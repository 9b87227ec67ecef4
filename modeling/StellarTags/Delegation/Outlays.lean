import StellarTags.Proxy.Forwarding
import StellarTags.Router.FeeBounds
import StellarTags.Router.Journal

/-! What the router's own token calls take from an account, over all tokens. -/

namespace StellarTags.Router

open Library.Transactions Library.Integers Library.Tokens Soroban

def TrafficEvent.outlay (account : Address) : TrafficEvent → ℤ
  | .moved call => call.outlay account
  | _ => 0

def Traffic.outlay (t : Traffic) (account : Address) : ℤ :=
  (t.journal.map (TrafficEvent.outlay account)).sum

/-- Since an outlay of `base` the account has parted with at most `n`. -/
structure Traffic.Paid (account : Address) (base n : ℤ) (t : Traffic) : Prop where
  grown : base ≤ t.outlay account
  bounded : t.outlay account ≤ base + n

variable {h : Host} {cfg : Settings} {env : Env} {s t : Traffic} {account : Address}
  {base n k volume : ℤ} {events : List TrafficEvent} {call : TokenCall Address Address}

open Traffic

lemma Traffic.outlay_of_journal (hj : t.journal = events ++ s.journal) (account : Address) :
    t.outlay account = s.outlay account + (events.map (TrafficEvent.outlay account)).sum := by
  rw [outlay, outlay, hj, List.map_append, List.sum_append]
  ring

lemma Quiet.outlay (hq : Quiet s t) : t.outlay account = s.outlay account := by
  rw [Traffic.outlay, Traffic.outlay, hq.journal]

namespace Traffic.Paid

lemma quiet (hs : s.Paid account base n) (hq : Quiet s t) : t.Paid account base n := by
  constructor
  · rw [hq.outlay]
    exact hs.grown
  · rw [hq.outlay]
    exact hs.bounded

lemma mono (hs : s.Paid account base n) (hn : n ≤ k) : s.Paid account base k :=
  ⟨hs.grown, hs.bounded.trans (by omega)⟩

lemma publish (hs : s.Paid account base n) (event : TrafficEvent)
    (he : 0 ≤ event.outlay account) (hj : t.journal = event :: s.journal) :
    t.Paid account base (n + event.outlay account) := by
  have hnew : t.journal = [event] ++ s.journal := hj
  have ho := outlay_of_journal hnew account
  rw [List.map_singleton, List.sum_singleton] at ho
  constructor
  · have := hs.grown
    omega
  · have := hs.bounded
    omega

end Traffic.Paid

section Primitives

variable {α β : Type} {m : Routing α} {f : α → Routing β} {Q : β → Traffic → Prop}
  {contract sender recipient token user platformTreasury : Address} {amount : ℤ}

lemma paid_pass (hm : Tx.Respects Quiet m) (hf : ∀ a, Tx.Ensures (Paid account base n) (f a) Q) :
    Tx.Ensures (Paid account base n) (m >>= f) Q := .pass (fun _ _ hq hs => hs.quiet hq) hm hf

lemma withGuard_paid {m : Routing α}
    (hm : Tx.Ensures (Paid account base n) m fun _ => Paid account base k) :
    Tx.Ensures (Paid account base n) (withGuard m) fun _ => Paid account base k :=
  withGuard_ensures (fun _ _ hq hs => hs.quiet hq) (fun _ _ _ hq hs => hs.quiet hq) hm

lemma token_paid : Tx.Ensures (Paid account base n) (Router.token h env call)
    fun _ => Paid account base (n + call.outlay account) := by
  intro s u t hs hr
  obtain ⟨ledger, hl, -, rfl⟩ := token_ok hr
  exact hs.publish (.moved call) (Ledger.apply_outlay hl account) rfl

lemma token_idle_paid (hc : call.payer ≠ some account) :
    Tx.Ensures (Paid account base n) (Router.token h env call) fun _ => Paid account base n := by
  have hpaid : Tx.Ensures (Paid account base n) (Router.token h env call)
      fun _ => Paid account base (n + call.outlay account) := token_paid
  rwa [TokenCall.outlay_of_payer_ne hc, add_zero] at hpaid

lemma tryToken_idle_paid (hc : call.payer ≠ some account) :
    Tx.Ensures (Paid account base n) (tryToken h env call) fun _ => Paid account base n := by
  intro s done t hs hr
  have hp := outlay_of_journal (tryToken_posts hr).journal account
  have hnone : ((if done = true then [TrafficEvent.moved call] else []).map
      (TrafficEvent.outlay account)).sum = 0 := by
    cases done <;> simp [TrafficEvent.outlay, TokenCall.outlay_of_payer_ne hc]
  rw [hnone, add_zero] at hp
  exact ⟨hp ▸ hs.grown, hp ▸ hs.bounded⟩

lemma Traffic.Paid.publish_free (hs : s.Paid account base n) (event : TrafficEvent)
    (he : event.outlay account = 0) (hj : t.journal = event :: s.journal) :
    t.Paid account base n := by
  have ht := hs.publish event he.ge hj
  rwa [he, add_zero] at ht

lemma invoke_paid : Tx.Ensures (Paid account base n) (invoke h env contract)
    fun _ => Paid account base n := by
  refine paid_pass .nextReply fun reply => ?_
  split_ifs
  · refine .bind (Q := fun _ => Paid account base n) (.update fun s hs => ?_) fun _ =>
      .pure fun _ hs => hs
    exact hs.publish_free (.invoked contract) rfl rfl
  · exact .pure fun _ hs => hs

lemma invokeContract_paid : Tx.Ensures (Paid account base n) (invokeContract h env contract)
    fun _ => Paid account base n := by
  refine .bind invoke_paid fun reply => ?_
  cases reply with
  | some reply => exact .pure fun _ hs => hs
  | none => exact .trap

lemma creditRefundBalance_paid : Tx.Ensures (Paid account base n)
    (creditRefundBalance user token amount) fun _ => Paid account base n := by
  refine .read fun balance => checkedI128_ensures (.update fun s hs => ?_)
  exact hs.1.publish_free (.credited user token amount) rfl rfl

lemma payOut_paid (ha : account ≠ h.self) {amountOut feeBps feeCap : ℤ} :
    Tx.Ensures (Paid account base n) (payOut h env sender recipient token platformTreasury
      amountOut feeBps feeCap) fun _ => Paid account base n := by
  have hself : ∀ target amount, (TokenCall.transfer token h.self target amount).payer ≠
      some account := fun target amount => by simpa [TokenCall.payer] using ha.symm
  refine .bind (Q := fun _ => Paid account base n) ?_ fun split => ?_
  · exact checkedI128_ensures (checkedI128_ensures (.pure fun _ hs => hs))
  refine .bind (Q := fun _ => Paid account base n) ?_ fun _ => ?_
  · exact .whenever (fun _ => token_idle_paid (hself _ _)) fun _ _ hs => hs
  refine .bind (Q := fun _ => Paid account base n) (.whenever (fun _ => ?_) fun _ _ hs => hs)
    fun _ => .pure fun _ hs => hs
  refine .bind (tryToken_idle_paid (hself _ _)) fun delivered => ?_
  exact .whenever (fun _ => creditRefundBalance_paid) fun _ _ hs => hs

end Primitives

section Payments

variable {sender recipient token platformTreasury : Address} {amount fee feeBps feeCap : ℤ}
  {u : Unit}

lemma outlay_paymentEvents {ask : Address → ℤ → TokenCall Address Address} {held : Bool}
    (hask : ∀ target n, (ask target n).outlay account = if account = sender then n else 0)
    (hle : fee ≤ amount) (hf : account = sender → 0 ≤ fee) :
    ((paymentEvents h ask sender recipient token platformTreasury amount fee held).map
      (TrafficEvent.outlay account)).sum = if account = sender then amount else 0 := by
  rw [sum_paymentEvents (fun _ _ _ => rfl) (fun target => by simp [TrafficEvent.outlay, hask]) hle]
  simp only [TrafficEvent.outlay, hask]
  split_ifs with ha
  · rw [max_eq_left (hf ha)]
    ring
  · rfl

lemma processSinglePayment_outlay
    (hf : account = sender → 0 ≤ directFee amount (s.rate env sender feeBps) feeCap)
    (hr : processSinglePayment h env sender recipient token amount platformTreasury feeBps feeCap
      s = .ok (u, t)) :
    t.outlay account = s.outlay account + if account = sender then amount else 0 := by
  obtain ⟨held, hp⟩ := processSinglePayment_posts hr
  have hle : directFee amount (s.rate env sender feeBps) feeCap ≤ amount := capFee_le
  rw [outlay_of_journal hp.journal, outlay_paymentEvents (fun _ _ => rfl) hle hf]

lemma processSinglePaymentNoAuth_outlay
    (hf : account = sender → 0 ≤ signedFee amount (s.rate env sender feeBps) feeCap)
    (hr : processSinglePaymentNoAuth h cfg env sender recipient token amount platformTreasury
      feeBps feeCap s = .ok (u, t)) :
    t.outlay account = s.outlay account + if account = sender then amount else 0 := by
  obtain ⟨-, held, hp⟩ := processSinglePaymentNoAuth_posts hr
  have hle : signedFee amount (s.rate env sender feeBps) feeCap ≤ amount := capFee_le
  rw [outlay_of_journal hp.journal, outlay_paymentEvents (fun _ _ => rfl) hle hf]

end Payments

def Traffic.lifetimeVolume (t : Traffic) (sender : Address) : ℤ :=
  match t.userRecord sender with
  | some record => record.volume
  | none => (t.userVolume sender).getD 0

structure SameVolumes (s t : Traffic) : Prop where
  record : t.userRecord = s.userRecord
  volume : t.userVolume = s.userVolume

/-- Neither the journal nor a volume has changed. -/
structure Steady (s t : Traffic) : Prop extends SameVolumes s t where
  journal : t.journal = s.journal

/-- The account's outlay and its volume, which the next payments start from. -/
structure Traffic.Stands (account : Address) (base volume : ℤ) (t : Traffic) : Prop where
  outlay : t.outlay account = base
  volume : t.lifetimeVolume account = volume

section Volumes

variable {sender recipient token platformTreasury : Address} {amount feeBps feeCap userVolume : ℤ}
  {u : Unit} {payment : Payment}

instance : IsPreorder Traffic SameVolumes where
  refl _ := ⟨rfl, rfl⟩
  trans _ _ _ hst htv := ⟨htv.1.trans hst.1, htv.2.trans hst.2⟩

instance : IsPreorder Traffic Steady where
  refl s := ⟨refl_of SameVolumes s, rfl⟩
  trans _ _ _ hst htv := ⟨trans_of SameVolumes hst.1 htv.1, htv.2.trans hst.2⟩

lemma SameVolumes.lifetimeVolume (hs : SameVolumes s t) :
    t.lifetimeVolume account = s.lifetimeVolume account := by
  rw [Traffic.lifetimeVolume, Traffic.lifetimeVolume, hs.record, hs.volume]

lemma Traffic.Stands.steady (hs : s.Stands account base volume) (ht : Steady s t) :
    t.Stands account base volume := by
  constructor
  · rw [Traffic.outlay, ht.journal]
    exact hs.outlay
  · rw [ht.lifetimeVolume]
    exact hs.volume

lemma rate_eq (t : Traffic) (env : Env) (sender : Address) (feeBps : ℤ) :
    t.rate env sender feeBps = effectiveFeeBps (t.lifetimeVolume sender) feeBps := by
  unfold rate loadUserRecord loadLegacyRecord lifetimeVolume
  cases t.userRecord sender <;> rfl

lemma accrueUserRecord_volume (hr : accrueUserRecord env sender amount s = .ok (userVolume, t)) :
    t.lifetimeVolume account = if account = sender then
      saturateI128 (s.lifetimeVolume sender + amount) else s.lifetimeVolume account := by
  have hloaded : (s.loadUserRecord sender env.timestamp).1.volume = s.lifetimeVolume sender := by
    unfold loadUserRecord loadLegacyRecord lifetimeVolume
    cases s.userRecord sender <;> rfl
  simp only [accrueUserRecord, Tx.read_bind, subU64_bind_ok, Tx.reject_bind_ok,
    Tx.update_bind] at hr
  obtain ⟨_, w, hw, hr⟩ := Tx.bind_ok.mp hr.2.2.2
  obtain ⟨-, rfl⟩ := Tx.pure_ok.mp hr
  have hvolume : t.lifetimeVolume account = if account = sender then saturateI128
      ((s.loadUserRecord sender env.timestamp).1.volume + amount) else
        s.lifetimeVolume account := by
    rcases Tx.whenever_ok.mp hw with ⟨-, hw⟩ | ⟨-, rfl⟩
    · rw [Tx.update_ok.mp hw]
      by_cases ha : account = sender
      · subst ha
        simp only [lifetimeVolume, dropLegacyRecord, setUserRecord, Function.update_self, if_true]
        split_ifs <;> rfl
      · simp [lifetimeVolume, dropLegacyRecord, setUserRecord, ha]
    · by_cases ha : account = sender
      · subst ha
        simp only [lifetimeVolume, setUserRecord, Function.update_self, if_true]
        split_ifs <;> rfl
      · simp [lifetimeVolume, setUserRecord, ha]
  rw [hvolume, hloaded]

lemma tryToken_sameVolumes : Tx.Respects SameVolumes (tryToken h env call) := by
  have hreply : Tx.Respects SameVolumes (nextReply env) :=
    .bind (.read _) fun _ => .bind (.update fun _ => ⟨rfl, rfl⟩) fun _ => .pure _
  refine .bind hreply fun reply => .bind (.read _) fun ledger => ?_
  cases ledger.apply call with
  | none => exact .pure _
  | some ledger =>
    dsimp only
    split_ifs
    · exact .bind (.update fun _ => ⟨rfl, rfl⟩) fun _ => .pure _
    · exact .pure _

lemma deliver_sameVolumes {toRecipient toRouter : TokenCall Address Address} : Tx.Respects
    SameVolumes (deliver h env sender token amount toRecipient toRouter) := by
  have hcredit : Tx.Respects SameVolumes (creditRefundBalance sender token amount) :=
    .bind (.read _) fun _ => .bind checkedI128_reads fun _ => .update fun _ => ⟨rfl, rfl⟩
  refine .whenever fun _ => .bind tryToken_sameVolumes fun _ => .whenever fun _ => ?_
  exact .bind tryToken_sameVolumes fun _ => .bind (.reject _ _) fun _ => hcredit

lemma processSinglePayment_volume (hr : processSinglePayment h env sender recipient token amount
      platformTreasury feeBps feeCap s = .ok (u, t)) :
    t.lifetimeVolume account = if account = sender then
      saturateI128 (s.lifetimeVolume sender + amount) else s.lifetimeVolume account := by
  obtain ⟨userVolume, v, hv, hr⟩ := Tx.bind_ok.mp hr
  rw [← accrueUserRecord_volume hv]
  refine SameVolumes.lifetimeVolume (Tx.Respects.bind (.read _) (fun _ => ?_) v u t hr)
  refine .bind (.reject _ _) fun _ => .bind checkedI128_reads fun _ => ?_
  refine .bind (.whenever fun _ => ?_) fun _ => deliver_sameVolumes
  exact .bind tryToken_sameVolumes fun _ => .reject _ _

end Volumes

/-- The code's fee on the amount is not negative. -/
def NoBonus (amount bps feeCap : ℤ) : Prop := 0 ≤ feeCap ∧ -bpsDivisor < amount * bps

/-- Likewise on the signed path, where a product that overflows is charged as the amount. -/
def NoSignedBonus (amount bps feeCap : ℤ) : Prop :=
  0 ≤ feeCap ∧ (FitsI128 (amount * bps) → -bpsDivisor < amount * bps)

/-- What the configured fee makes of a payment by a sender with this volume. -/
def Settings.Charges (cfg : Settings) (volume : ℤ) (P : ℤ → ℤ → Prop) : Prop :=
  ∀ feeBps feeCap, cfg.feeBps = some feeBps → cfg.feeCap = some feeCap →
    P (effectiveFeeBps volume feeBps) feeCap

/-- None of the account's payments, one after another, has a negative fee. -/
def Settings.PaysNoBonus (cfg : Settings) (account : Address) : ℤ → List Payment → Prop
  | _, [] => True
  | volume, payment :: payments =>
    if account = payment.sender then
      cfg.Charges volume (NoBonus payment.amount) ∧
        cfg.PaysNoBonus account (saturateI128 (volume + payment.amount)) payments
    else cfg.PaysNoBonus account volume payments

section Batches

variable {platformTreasury : Address} {feeBps feeCap : ℤ} {payment : Payment}
  {payments : List Payment}

def Payment.spend (payment : Payment) : Address × ℤ := (payment.sender, payment.amount)

lemma processSinglePayment_stands
    (hf : account = payment.sender →
      0 ≤ directFee payment.amount (effectiveFeeBps volume feeBps) feeCap) :
    Tx.Ensures (Stands account base volume) (processSinglePayment h env payment.sender
      payment.recipient payment.tokenAddress payment.amount platformTreasury feeBps feeCap)
      fun _ => Stands account (base + if account = payment.sender then payment.amount else 0)
        (if account = payment.sender then saturateI128 (volume + payment.amount) else volume) := by
  intro s u t hs hr
  have hfee : account = payment.sender →
      0 ≤ directFee payment.amount (s.rate env payment.sender feeBps) feeCap := by
    intro ha
    rw [rate_eq, ← ha, hs.volume]
    exact hf ha
  constructor
  · rw [processSinglePayment_outlay hfee hr, hs.outlay]
  · rw [processSinglePayment_volume hr]
    split_ifs with ha
    · rw [← ha, hs.volume]
    · exact hs.volume

lemma processPayments_stands (hb : cfg.feeBps = some feeBps) (hc : cfg.feeCap = some feeCap)
    (hpos : ∀ payment ∈ payments, account = payment.sender → 0 < payment.amount)
    (hn : cfg.PaysNoBonus account volume payments) :
    Tx.Ensures (Stands account base volume) (Tx.forEach (fun payment =>
      processSinglePayment h env payment.sender payment.recipient payment.tokenAddress
        payment.amount platformTreasury feeBps feeCap) payments)
      fun _ t => t.outlay account = base + Proxy.spent account (payments.map Payment.spend) := by
  induction payments generalizing base volume with
  | nil => exact .pure fun s hs => by simp [hs.outlay]
  | cons payment payments ih =>
    have hrest := fun other ho => hpos other (List.mem_cons_of_mem _ ho)
    rw [Settings.PaysNoBonus] at hn
    by_cases ha : account = payment.sender
    · rw [if_pos ha] at hn
      have hfee : 0 ≤ directFee payment.amount (effectiveFeeBps volume feeBps) feeCap :=
        (directFee_nonneg_iff (hpos payment (by simp) ha)).mpr (hn.1 feeBps feeCap hb hc)
      refine .bind (processSinglePayment_stands fun _ => hfee) fun _ => ?_
      rw [if_pos ha, if_pos ha]
      refine (ih hrest hn.2).mono (fun _ hs => hs) fun _ t ht => ?_
      rw [ht, List.map_cons, Proxy.spent_cons, Payment.spend, if_pos ha.symm, add_assoc]
    · rw [if_neg ha] at hn
      refine .bind (processSinglePayment_stands fun hs => absurd hs ha) fun _ => ?_
      rw [if_neg ha, if_neg ha, add_zero]
      refine (ih hrest hn).mono (fun _ hs => hs) fun _ t ht => ?_
      rw [ht, List.map_cons, Proxy.spent_cons, Payment.spend, if_neg (Ne.symm ha), zero_add]

end Batches

section DirectPayments

variable {α : Type} {Q : α → Traffic → Prop} {payment : Payment} {payments : List Payment}
  {sender recipient : Address} {amount : ℤ}

lemma Steady.requireOpen : Tx.Respects Steady (requireOpen cfg) :=
  .bind (.reject _ _) fun _ => .reject _ _

lemma Steady.validatePayment :
    Tx.Respects Steady (validatePayment cfg env sender recipient amount) :=
  .bind (.reject _ _) fun _ => .bind (.reject _ _) fun _ => .bind (.reject _ _) fun _ =>
    .bind (.reject _ _) fun _ => verifyKycForAmount_reads

lemma Steady.checkRateLimit : Tx.Respects Steady (checkRateLimit cfg env sender) :=
  .whenever fun _ => .bind (.read _) fun _ => .bind (.reject _ _) fun _ =>
    .update fun _ => ⟨⟨rfl, rfl⟩, rfl⟩

lemma Steady.bumpHeartbeat : Tx.Respects Steady (bumpHeartbeat cfg env) :=
  .whenever fun _ => .update fun _ => ⟨⟨rfl, rfl⟩, rfl⟩

lemma Steady.admitPayment {seen : List Address} :
    Tx.Respects Steady (admitPayment h cfg env seen payment) := by
  refine .bind .validatePayment fun _ => .bind .checkRateLimit fun _ => ?_
  split_ifs
  · exact .pure _
  · exact .bind (.demand _) fun _ => .pure _

lemma steady_pass {β : Type} {m : Routing α} {f : α → Routing β} {Q : β → Traffic → Prop}
    (hm : Tx.Respects Steady m) (hf : ∀ a, Tx.Ensures (Stands account base volume) (f a) Q) :
    Tx.Ensures (Stands account base volume) (m >>= f) Q := .pass (fun _ _ ht hs => hs.steady ht) hm hf

lemma withGuard_stands {m : Routing α}
    (hm : Tx.Ensures (Stands account base volume) m fun _ t => t.outlay account = k) :
    Tx.Ensures (Stands account base volume) (withGuard m) fun _ t => t.outlay account = k :=
  withGuard_guarded (fun _ _ hs => hs.steady ⟨⟨rfl, rfl⟩, rfl⟩) (fun _ _ _ hs => hs) hm

lemma bumpHeartbeat_outlay : Tx.Ensures (fun t : Traffic => t.outlay account = k)
    (bumpHeartbeat cfg env) fun _ t => t.outlay account = k :=
  .of_respects Quiet.bumpHeartbeat fun _ _ hq hs => hq.outlay.trans hs

lemma routePayment_outlay (hpos : account = payment.sender → 0 < payment.amount)
    (hn : cfg.PaysNoBonus account volume [payment]) :
    Tx.Ensures (Stands account base volume) (routePayment h cfg env payment)
      fun _ t => t.outlay account = base + Proxy.spent account [payment.spend] := by
  refine withGuard_stands (steady_pass .requireOpen fun _ => steady_pass .validatePayment fun _ => ?_)
  refine .demand fun _ => steady_pass .checkRateLimit fun _ => loadFeeConfig_ensures fun fees hb hc => ?_
  refine .bind (Q := fun _ t => t.outlay account = base + Proxy.spent account [payment.spend]) ?_
    fun _ => bumpHeartbeat_outlay
  intro s u t hs hr
  have hrun : Tx.forEach (fun payment : Payment => processSinglePayment h env payment.sender
      payment.recipient payment.tokenAddress payment.amount fees.1 fees.2.1 fees.2.2) [payment] s =
        .ok ((), t) := Tx.forEach_cons.mpr ⟨t, hr, Tx.forEach_nil.mpr rfl⟩
  exact processPayments_stands hb hc (by simpa using hpos) hn s () t hs hrun

lemma routePayments_outlay (hpos : ∀ payment ∈ payments, account = payment.sender → 0 < payment.amount)
    (hn : cfg.PaysNoBonus account volume payments) :
    Tx.Ensures (Stands account base volume) (routePayments h cfg env payments)
      fun _ t => t.outlay account = base + Proxy.spent account (payments.map Payment.spend) := by
  refine withGuard_stands (steady_pass .requireOpen fun _ => ?_)
  refine steady_pass (.fold fun _ _ _ => .admitPayment) fun _ => loadFeeConfig_ensures fun fees hb hc => ?_
  refine steady_pass .bumpHeartbeat fun _ => ?_
  exact .bind (processPayments_stands hb hc hpos hn) fun _ => bumpHeartbeat_outlay

lemma routePaymentMeta_outlay {signerPubkey : PublicKey} {nonce deadline : ℕ}
    {signature : Signature} (hpos : account = payment.sender → 0 < payment.amount)
    (hn : account = payment.sender → cfg.Charges volume (NoSignedBonus payment.amount)) :
    Tx.Ensures (Stands account base volume) (routePaymentMeta h cfg env payment signerPubkey nonce
      deadline signature)
      fun _ t => t.outlay account = base + Proxy.spent account [payment.spend] := by
  refine withGuard_stands (steady_pass .requireOpen fun _ => loadFeeConfig_ensures fun fees hb hc => ?_)
  refine .reject fun _ => steady_pass (.read _) fun stored => .reject fun _ => .demand fun _ => ?_
  refine steady_pass (.bind (.demand _) fun _ => .pure _) fun next => ?_
  refine steady_pass (.update fun _ => ⟨⟨rfl, rfl⟩, rfl⟩) fun _ => ?_
  intro s u t hs hr
  have hfee : account = payment.sender →
      0 ≤ signedFee payment.amount (s.rate env payment.sender fees.2.1) fees.2.2 := by
    intro ha
    rw [rate_eq, ← ha, hs.volume]
    exact (signedFee_nonneg_iff (hpos ha)).mpr (hn ha _ _ hb hc)
  rw [processSinglePaymentNoAuth_outlay hfee hr, hs.outlay]
  by_cases ha : account = payment.sender
  · simp [Payment.spend, ha]
  · simp [Payment.spend, ha, Ne.symm ha]

end DirectPayments

end StellarTags.Router
