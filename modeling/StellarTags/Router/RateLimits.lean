import StellarTags.Library.Transactions
import StellarTags.Router.Checks
import StellarTags.Router.MetaAuthorisation
import StellarTags.Router.Settlement

/-! How many payments a sender gets through in one ledger. -/

namespace StellarTags.Router

open Library.Transactions Library.Integers Library.Runs Library.Tokens Soroban

def Traffic.usedIn (t : Traffic) (sequence : ℕ) (sender : Address) : ℕ :=
  t.rateLimitUsed { sequence } sender

def paid (h : Host) (s : State) (call : Call) : List (Address × ℤ) :=
  match call.op with
  | .route op => if Tx.succeeds (call.op.invoke h call.env) s then op.payments else []
  | _ => []

/-- The call is no payment of the sender's that gets past the checks of an entry point without a
rate limit. -/
def Metered (h : Host) (sender : Address) (s : State) (call : Call) : Prop :=
  match call.op with
  | .route (.routePaymentMeta payment signerPubkey nonce deadline signature) =>
    payment.sender = sender →
      MetaCall.Verified ⟨payment, signerPubkey, nonce, deadline, signature⟩ h call.env s →
        s.settings.Admits payment.sender payment.recipient payment.amount →
          ¬ s.settings.Verifies call.env payment.sender payment.amount
  | .route (.routePaymentWithSwapRaw payer recipient _ tokenIn tokenOut amountIn path
      minAmountOut) =>
    payer = sender →
      ¬ s.settings.AdmitsRaw h call.env payer recipient tokenIn tokenOut amountIn path minAmountOut
  | .route (.routePaymentWithSwap swap) =>
    swap.sender = sender → ¬ s.settings.AdmitsSwap h call.env swap
  | .route (.routePaymentsWithSwap swaps) =>
    (∀ swap ∈ swaps, s.settings.AdmitsSwap h call.env swap) → ∀ swap ∈ swaps, swap.sender ≠ sender
  | .route (.routeSplitPaymentWithSwap payer recipient sellToken buyToken amountIn splits) =>
    payer = sender →
      ¬ s.settings.AdmitsSplit h call.env payer recipient sellToken buyToken amountIn splits
  | _ => True

structure Settings.Limits (cfg : Settings) (sender : Address) : Prop where
  limited : cfg.rateLimitRaw ≠ 0
  unlisted : cfg.rateLimitWhitelist sender = false

section Charges

variable {h : Host} {cfg : Settings} {env : Env} {sender payer recipient : Address} {α : Type}
  {m : Routing α} {amount : ℤ}

abbrev Spends (cfg : Settings) (env : Env) (sender : Address) (n : ℕ) (m : Routing α) : Prop :=
  Tx.Charges (fun t => t.usedIn env.sequence sender) cfg.rateLimitRaw n m

abbrev Unspent (env : Env) (sender : Address) : Traffic → Traffic → Prop :=
  Tx.Unmetered fun t => t.usedIn env.sequence sender

lemma unspent_of_counter {s t : Traffic} (ht : t.rateLimitCounter = s.rateLimitCounter) :
    Unspent env sender s t := by
  simp only [Tx.Unmetered, Traffic.usedIn, Traffic.rateLimitUsed, ht]

lemma unspent_settles (hm : Tx.Respects Settles m) : Tx.Respects (Unspent env sender) m :=
  fun s a t hr => unspent_of_counter (hm s a t hr).counter

lemma bumpHeartbeat_unspent : Tx.Respects (Unspent env sender) (bumpHeartbeat cfg env) :=
  .whenever fun _ => .update fun _ => unspent_of_counter rfl

lemma requireOpen_unspent : Tx.Respects (Unspent env sender) (requireOpen cfg) :=
  .bind (.reject _ _) fun _ => .reject _ _

lemma validatePayment_unspent :
    Tx.Respects (Unspent env sender) (validatePayment cfg env payer recipient amount) :=
  .bind (.reject _ _) fun _ => .bind (.reject _ _) fun _ => .bind (.reject _ _) fun _ =>
    .bind (.reject _ _) fun _ => verifyKycForAmount_reads

lemma checkRateLimit_spends (hl : cfg.Limits sender) :
    Spends cfg env sender (if payer = sender then 1 else 0) (checkRateLimit cfg env payer) := by
  intro s u t hr
  by_cases hp : payer = sender
  · subst hp
    have hmet : ¬ (cfg.rateLimitRaw = 0 ∨ cfg.rateLimitWhitelist payer = true) := by
      simp [hl.limited, hl.unlisted]
    simp only [checkRateLimit, Tx.whenever, hmet, not_false_eq_true, if_true, Tx.read_bind,
      Tx.reject_bind_ok, Tx.update_ok, not_le] at hr
    obtain ⟨hlt, rfl⟩ := hr
    have hused : s.rateLimitUsed env payer = s.usedIn env.sequence payer := rfl
    rw [hused] at hlt ⊢
    simp only [Traffic.usedIn, Traffic.rateLimitUsed, Function.update_self, if_true]
    exact ⟨trivial, Or.inr hlt⟩
  · rw [if_neg hp]
    refine ⟨?_, Or.inl rfl⟩
    rcases Tx.whenever_ok.mp hr with ⟨-, hr⟩ | ⟨-, rfl⟩
    · simp only [Tx.read_bind, Tx.reject_bind_ok, Tx.update_ok] at hr
      obtain ⟨-, rfl⟩ := hr
      simp [Traffic.usedIn, Traffic.rateLimitUsed, Function.update_of_ne (Ne.symm hp)]
    · rfl

lemma withGuard_spends {n : ℕ} (hm : Spends cfg env sender n m) :
    Spends cfg env sender n (withGuard m) := by
  refine .free_then (.read _) fun held => .free_then (.reject _ _) fun _ => ?_
  refine .free_then (.update fun _ => unspent_of_counter rfl) fun _ => ?_
  refine .then_free hm fun result => ?_
  exact .bind (.update fun _ => unspent_of_counter rfl) fun _ => .pure _

lemma routePayment_spends (hl : cfg.Limits sender) (payment : Payment) :
    Spends cfg env sender (if payment.sender = sender then 1 else 0)
      (routePayment h cfg env payment) := by
  apply withGuard_spends
  refine .free_then requireOpen_unspent fun _ => .free_then validatePayment_unspent fun _ => ?_
  refine .free_then (.demand _) fun _ => .then_free (checkRateLimit_spends hl) fun _ => ?_
  refine .bind loadFeeConfig_reads fun fees => ?_
  exact .bind (unspent_settles .processSinglePayment) fun _ => bumpHeartbeat_unspent

lemma routePayments_spends (hl : cfg.Limits sender) (payments : List Payment) :
    Spends cfg env sender (payments.countP (·.sender = sender))
      (routePayments h cfg env payments) := by
  apply withGuard_spends
  refine .free_then requireOpen_unspent fun _ => ?_
  refine .then_free (.fold fun seen payment => ?_) fun seen => ?_
  · refine .free_then validatePayment_unspent fun _ => ?_
    have hcharge : Spends cfg env sender (if payment.sender = sender then 1 else 0)
        (checkRateLimit cfg env payment.sender) := checkRateLimit_spends hl
    simp only [decide_eq_true_eq]
    refine .then_free hcharge fun _ => ?_
    split_ifs
    · exact .pure _
    · exact .bind (.demand _) fun _ => .pure _
  · refine .bind loadFeeConfig_reads fun fees => .bind bumpHeartbeat_unspent fun _ => ?_
    refine .bind (.forEach fun _ _ => unspent_settles .processSinglePayment) fun _ => ?_
    exact bumpHeartbeat_unspent

lemma routePaymentWithQuote_spends (hl : cfg.Limits sender) {quote : Quote}
    {makerPubkey : PublicKey} {signature : Signature} :
    Spends cfg env sender (if payer = sender then 1 else 0)
      (routePaymentWithQuote h cfg env payer recipient quote makerPubkey signature) := by
  apply withGuard_spends
  refine .free_then requireOpen_unspent fun _ => .free_then (.reject _ _) fun _ => ?_
  refine .free_then (.reject _ _) fun _ => .free_then (.reject _ _) fun _ => ?_
  refine .free_then (.reject _ _) fun _ => .free_then (.read _) fun used => ?_
  refine .free_then (.reject _ _) fun _ => .free_then (.reject _ _) fun _ => ?_
  refine .free_then verifyKycForAmount_reads fun _ => .free_then loadFeeConfig_reads fun _ => ?_
  refine .free_then (.demand _) fun _ => .free_then (.demand _) fun _ => ?_
  refine .free_then (.demand _) fun _ => .then_free (checkRateLimit_spends hl) fun _ => ?_
  refine .bind (.read _) fun _ => .bind (.read _) fun _ => .bind (.reject _ _) fun _ => ?_
  refine .bind (unspent_settles .accrueUserRecord) fun _ => ?_
  refine .bind (.update fun _ => unspent_of_counter rfl) fun _ => ?_
  refine .bind (unspent_settles .token) fun _ => .bind (unspent_settles .token) fun _ => ?_
  exact .bind bumpHeartbeat_unspent fun _ => .pure _

lemma routeMultihopSwap_spends (hl : cfg.Limits sender) {dex : Address} {amountIn : ℤ}
    {path : List Address} {floors : List ℤ} :
    Spends cfg env sender (if payer = sender then 1 else 0)
      (routeMultihopSwap h cfg env payer recipient dex amountIn path floors) := by
  apply withGuard_spends
  refine .free_then requireOpen_unspent fun _ => .free_then (.reject _ _) fun _ => ?_
  refine .free_then (.reject _ _) fun _ => .free_then (.reject _ _) fun _ => ?_
  refine .free_then (.reject _ _) fun _ => .free_then (.reject _ _) fun _ => ?_
  refine .free_then (.reject _ _) fun _ => .free_then (.reject _ _) fun _ => ?_
  refine .free_then verifyKycForAmount_reads fun _ => .free_then (.demand _) fun _ => ?_
  refine .then_free (checkRateLimit_spends hl) fun _ => .bind loadFeeConfig_reads fun fees => ?_
  refine .bind (unspent_settles .accrueUserRecord) fun _ => .bind (.unwrap _ _) fun _ => ?_
  refine .bind (.read _) fun _ => .bind (.reject _ _) fun _ => ?_
  refine .bind (unspent_settles .token) fun _ => ?_
  refine .bind (.fold fun _ _ _ => unspent_settles .swapHop) fun _ => ?_
  refine .bind (.unwrap _ _) fun _ => ?_
  exact .bind (unspent_settles .payOut) fun _ => .bind bumpHeartbeat_unspent fun _ => .pure _

lemma routePaymentMeta_unspent {payment : Payment} {signerPubkey : PublicKey}
    {nonce deadline : ℕ} {signature : Signature} :
    Tx.Respects (Unspent env sender)
      (routePaymentMeta h cfg env payment signerPubkey nonce deadline signature) := by
  intro s u t hr
  exact unspent_of_counter (Settles.routePaymentMeta hr).counter

end Charges

variable {h : Host} {env : Env} {sender : Address} {s t : State}

lemma countP_single (payment : Address × ℤ) :
    [payment].countP (·.1 = sender) = if payment.1 = sender then 1 else 0 := by
  simp [List.countP_cons]

lemma countP_other {payment : Address × ℤ} (hne : payment.1 ≠ sender) :
    [payment].countP (·.1 = sender) = 0 := by
  rw [countP_single, if_neg hne]

lemma unspent_charges {α : Type} {m : Routing α} {a : α} {n limit : ℕ} {v w : Traffic}
    (hm : Tx.Respects (Unspent env sender) m) (hz : n = 0) (hv : m v = .ok (a, w)) :
    w.usedIn env.sequence sender = v.usedIn env.sequence sender + n ∧
      (n = 0 ∨ w.usedIn env.sequence sender ≤ limit) := by
  rw [hz]
  exact ⟨hm _ _ _ hv, Or.inl rfl⟩

/-- The entry points that neither count calls nor renew the heartbeat. -/
def RoutingOp.unlimited : RoutingOp → Bool
  | .routePaymentMeta _ _ _ _ _ | .routePaymentWithSwapRaw _ _ _ _ _ _ _ _
  | .routePaymentWithSwap _ | .routePaymentsWithSwap _ | .routeSplitPaymentWithSwap _ _ _ _ _ _ =>
    true
  | _ => false

lemma RoutingOp.uncounted {op : RoutingOp} (hop : op.unlimited = true)
    (hk : Metered h sender s ⟨env, .route op⟩) (hr : (Op.route op).invoke h env s = .ok ((), t)) :
    op.payments.countP (·.1 = sender) = 0 := by
  have hcall := hr
  obtain ⟨v, hv, rfl⟩ := route_ok hr
  cases op with
  | routePaymentMeta payment signerPubkey nonce deadline signature =>
    refine countP_other fun hs => ?_
    have hm : MetaCall.Verified ⟨payment, signerPubkey, nonce, deadline, signature⟩ h env s :=
      MetaCall.verified _ hcall
    have hshown := routePaymentMeta_shows _ _ _ hv
    exact hk hs hm hshown.1 hshown.2
  | routePaymentWithSwapRaw payer recipient dexRouter tokenIn tokenOut amountIn path minOut =>
    exact countP_other fun hs => hk hs (routePaymentWithSwapRaw_shows _ _ _ hv)
  | routePaymentWithSwap swap =>
    exact countP_other fun hs => hk hs (routePaymentWithSwap_shows.void _ _ _ hv)
  | routePaymentsWithSwap swaps =>
    have hne := hk (routePaymentsWithSwap_shows.void _ _ _ hv)
    rw [RoutingOp.payments, List.countP_map, List.countP_eq_zero]
    simpa using hne
  | routeSplitPaymentWithSwap payer recipient sellToken buyToken amountIn splits =>
    exact countP_other fun hs => hk hs (routeSplitPaymentWithSwap_shows.void _ _ _ hv)
  | _ => cases hop

lemma RoutingOp.invoke_spends {op : RoutingOp} (hl : s.settings.Limits sender)
    (hk : Metered h sender s ⟨env, .route op⟩) (hr : (Op.route op).invoke h env s = .ok ((), t)) :
    t.settings = s.settings ∧
      t.traffic.usedIn env.sequence sender =
        s.traffic.usedIn env.sequence sender + op.payments.countP (·.1 = sender) ∧
      (op.payments.countP (·.1 = sender) = 0 ∨
        t.traffic.usedIn env.sequence sender ≤ s.settings.rateLimitRaw) := by
  have hnone (hop : op.unlimited = true) := RoutingOp.uncounted hop hk hr
  obtain ⟨v, hv, rfl⟩ := route_ok hr
  refine ⟨rfl, ?_⟩
  cases op with
  | routePayment payment =>
    rw [RoutingOp.payments, countP_single]
    exact routePayment_spends hl payment _ _ _ hv
  | routePayments payments =>
    rw [RoutingOp.payments, List.countP_map]
    exact routePayments_spends hl payments _ _ _ hv
  | routePaymentMeta payment signerPubkey nonce deadline signature =>
    exact unspent_charges routePaymentMeta_unspent (hnone rfl) hv
  | routePaymentWithQuote payer recipient quote makerPubkey signature =>
    rw [RoutingOp.payments, countP_single]
    exact (routePaymentWithQuote_spends hl).void _ _ _ hv
  | routePaymentWithSwapRaw payer recipient dexRouter tokenIn tokenOut amountIn path minOut =>
    exact unspent_charges (unspent_settles .routePaymentWithSwapRaw) (hnone rfl) hv
  | routePaymentWithSwap swap =>
    exact unspent_charges (unspent_settles (.void .routePaymentWithSwap)) (hnone rfl) hv
  | routePaymentsWithSwap swaps =>
    exact unspent_charges (unspent_settles (.void .routePaymentsWithSwap)) (hnone rfl) hv
  | routeSplitPaymentWithSwap payer recipient sellToken buyToken amountIn splits =>
    exact unspent_charges (unspent_settles (.void .routeSplitPaymentWithSwap)) (hnone rfl) hv
  | routeMultihopSwap payer recipient dex amountIn path floors =>
    rw [RoutingOp.payments, countP_single]
    exact (routeMultihopSwap_spends hl).void _ _ _ hv
  | quoteSwap dex sellToken buyToken =>
    exact unspent_charges (unspent_settles (.void .quoteSwap)) rfl hv
  | withdrawRefund user token amount =>
    exact unspent_charges (unspent_settles .withdrawRefund) rfl hv
  | claimAllRefunds user token =>
    exact unspent_charges (unspent_settles (.void .claimAllRefunds)) rfl hv
  | migrateUserRecord user =>
    exact unspent_charges (unspent_settles (.void .migrateUserRecord)) rfl hv

lemma step_spends {op : RoutingOp} (hl : s.settings.Limits sender)
    (hk : Metered h sender s ⟨env, .route op⟩) :
    let t := step h ⟨env, .route op⟩ s
    let count := (paid h s ⟨env, .route op⟩).countP (·.1 = sender)
    t.settings = s.settings ∧
      t.traffic.usedIn env.sequence sender = s.traffic.usedIn env.sequence sender + count ∧
      (count = 0 ∨ t.traffic.usedIn env.sequence sender ≤ s.settings.rateLimitRaw) := by
  cases hsucc : Tx.succeeds ((Op.route op).invoke h env) s with
  | false =>
    have hstep : step h ⟨env, .route op⟩ s = s := Tx.commit_of_fails hsucc
    have hpaid : paid h s ⟨env, .route op⟩ = [] := if_neg (Bool.not_eq_true _ ▸ hsucc)
    simp [hstep, hpaid]
  | true =>
    obtain ⟨t, hr⟩ := Tx.succeeds_unit.mp hsucc
    have hstep : step h ⟨env, .route op⟩ s = t := Tx.commit_ok hr
    have hpaid : paid h s ⟨env, .route op⟩ = op.payments := if_pos hsucc
    rw [hstep, hpaid]
    exact RoutingOp.invoke_spends hl hk hr

lemma run_spends {calls : List Call} {sequence : ℕ} (hl : s.settings.Limits sender)
    (hc : ∀ call ∈ calls, (∃ op, call.op = .route op) ∧ call.env.sequence = sequence)
    (hk : Along (step h) (Metered h sender) s calls) :
    let count := (trace (step h) (paid h) s calls).countP (·.1 = sender)
    (run (step h) s calls).traffic.usedIn sequence sender =
        s.traffic.usedIn sequence sender + count ∧
      (count = 0 ∨
        (run (step h) s calls).traffic.usedIn sequence sender ≤ s.settings.rateLimitRaw) := by
  induction calls generalizing s with
  | nil => simp [trace]
  | cons call calls ih =>
    obtain ⟨⟨op, hop⟩, hseq⟩ := hc call List.mem_cons_self
    obtain ⟨env, _⟩ := call
    obtain rfl : env.sequence = sequence := hseq
    subst hop
    obtain ⟨hset, hused, hbound⟩ := step_spends hl hk.1
    have hrest := ih (s := step h ⟨env, .route op⟩ s) (by rwa [hset])
      (fun c hm => hc c (List.mem_cons_of_mem _ hm)) hk.2
    obtain ⟨husedr, hboundr⟩ := hrest
    rw [hset] at hboundr
    simp only [trace, List.countP_append, run_cons]
    refine ⟨by omega, ?_⟩
    rcases hboundr with hz | hb
    · rcases hbound with hz' | hb'
      · left
        omega
      · right
        omega
    · exact Or.inr hb

/-- In one ledger no limited sender gets more payments through than the limit. -/
theorem payments_rate_limited (h : Host) (tokens : Ledger Address Address) (before : List Call)
    (sender : Address) (sequence : ℕ) (calls : List Call)
    (hl : (after h tokens before).settings.Limits sender)
    (hc : ∀ call ∈ calls, (∃ op, call.op = .route op) ∧ call.env.sequence = sequence)
    (hk : Along (step h) (Metered h sender) (after h tokens before) calls) :
    (trace (step h) (paid h) (after h tokens before) calls).countP (·.1 = sender) ≤
      (after h tokens before).settings.rateLimitRaw := by
  obtain ⟨hused, hbound⟩ := run_spends hl hc hk
  omega

section Examples

/-- Each sender has one payment a ledger, and `⟨2⟩` lets the router spend a hundred. -/
def limitedToOne : List Call :=
  allowed ++ [⟨signedBy [⟨1⟩], .configure (.setRateLimit 1)⟩]

def payTen : Call :=
  ⟨{ signedBy [⟨2⟩] with reply := fun _ => { accepts := true } },
    .route (.routePayment ⟨⟨2⟩, ⟨3⟩, ⟨20⟩, 10⟩)⟩

theorem payments_rate_limited_once :
    (trace (step .sample) (paid .sample) (after .sample emptyLedger limitedToOne)
      [payTen, payTen]).countP (·.1 = ⟨2⟩) ≤
        (after .sample emptyLedger limitedToOne).settings.rateLimitRaw :=
  payments_rate_limited .sample emptyLedger limitedToOne ⟨2⟩ 0 [payTen, payTen]
    ⟨by decide, by decide⟩ (by simp [payTen, signedBy]) ⟨trivial, trivial, trivial⟩

/-- Signed payments of ten, one after the other. -/
def relayTen (nonce : ℕ) : Call :=
  relay ⟨⟨⟨2⟩, ⟨3⟩, ⟨20⟩, 10⟩, ⟨2⟩, nonce, 0, ⟨2⟩⟩

/-- Two signed payments of `⟨2⟩` go through in one ledger with a limit of one. -/
theorem signed_payments_unlimited :
    (after .sample emptyLedger limitedToOne).settings.rateLimitRaw = 1 ∧
      (after .sample emptyLedger limitedToOne).settings.rateLimitWhitelist ⟨2⟩ = false ∧
      (trace (step .sample) (paid .sample) (after .sample emptyLedger limitedToOne)
        [relayTen 0, relayTen 1]).countP (·.1 = ⟨2⟩) = 2 := by
  decide

end Examples

end StellarTags.Router
