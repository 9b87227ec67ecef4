import StellarTags.Library.Sequences
import StellarTags.Router.Checks
import StellarTags.Router.MetaAuthorisation
import StellarTags.Router.Settlement

/-! Over any run, signed payments take their senders' nonces in order and quotes settle once. -/

namespace StellarTags.Router

open Library.Transactions Library.Integers Library.Runs Library.Counters Library.Tokens Soroban

def Quote.ticket (quote : Quote) : Address × String := (quote.maker, quote.quoteId)

def MetaCall.payload (m : MetaCall) : Payment × PublicKey × ℕ × ℕ :=
  (m.payment, m.signerPubkey, m.nonce, m.deadline)

def Op.metaCall : Op → Option MetaCall
  | .route (.routePaymentMeta payment signerPubkey nonce deadline signature) =>
    some ⟨payment, signerPubkey, nonce, deadline, signature⟩
  | _ => none

def Op.quote : Op → Option Quote
  | .route (.routePaymentWithQuote _ _ quote _ _) => some quote
  | _ => none

def executed (h : Host) : State → Call → List MetaCall := granted h Op.metaCall

def settled (h : Host) : State → Call → List Quote := granted h Op.quote

/-- Nonces and quotes are as they were. -/
structure SameTickets (s t : Traffic) : Prop where
  metaNonce : t.metaNonce = s.metaNonce
  usedQuote : t.usedQuote = s.usedQuote

def Traffic.noncesAfter (t : Traffic) (op : Op) : Address → Option ℕ :=
  match op.metaCall with
  | some m => Function.update t.metaNonce m.payment.sender (some (m.nonce + 1))
  | none => t.metaNonce

def Traffic.quotesAfter (t : Traffic) (op : Op) : Address → String → Bool :=
  match op.quote with
  | some quote => (t.markQuote quote.maker quote.quoteId).usedQuote
  | none => t.usedQuote

namespace SameTickets

instance : IsPreorder Traffic SameTickets where
  refl _ := ⟨rfl, rfl⟩
  trans _ _ _ hst htv := ⟨htv.1.trans hst.1, htv.2.trans hst.2⟩

variable {h : Host} {cfg : Settings} {env : Env} {sender recipient dex : Address} {amount : ℤ}
  {α : Type} {m : Routing α}

lemma of_settles (hm : Tx.Respects Settles m) : Tx.Respects SameTickets m :=
  fun s a t hr => ⟨(hm s a t hr).metaNonce, (hm s a t hr).usedQuote⟩

lemma withGuard (hm : Tx.Respects SameTickets m) : Tx.Respects SameTickets (withGuard m) := by
  refine .bind (.read _) fun held => .bind (.reject _ _) fun _ => ?_
  refine .bind (.update fun _ => ⟨rfl, rfl⟩) fun _ => .bind hm fun result => ?_
  exact .bind (.update fun _ => ⟨rfl, rfl⟩) fun _ => .pure _

lemma bumpHeartbeat : Tx.Respects SameTickets (bumpHeartbeat cfg env) :=
  .whenever fun _ => .update fun _ => ⟨rfl, rfl⟩

lemma checkRateLimit : Tx.Respects SameTickets (checkRateLimit cfg env sender) :=
  .whenever fun _ => .bind (.read _) fun _ => .bind (.reject _ _) fun _ =>
    .update fun _ => ⟨rfl, rfl⟩

lemma requireOpen : Tx.Respects SameTickets (requireOpen cfg) :=
  .bind (.reject _ _) fun _ => .reject _ _

lemma validatePayment :
    Tx.Respects SameTickets (validatePayment cfg env sender recipient amount) :=
  .bind (.reject _ _) fun _ => .bind (.reject _ _) fun _ => .bind (.reject _ _) fun _ =>
    .bind (.reject _ _) fun _ => verifyKycForAmount_reads

lemma routePayment {payment : Payment} :
    Tx.Respects SameTickets (routePayment h cfg env payment) := by
  refine withGuard (.bind requireOpen fun _ => .bind validatePayment fun _ => ?_)
  refine .bind (.demand _) fun _ => .bind checkRateLimit fun _ => ?_
  refine .bind loadFeeConfig_reads fun fees => ?_
  exact .bind (of_settles .processSinglePayment) fun _ => bumpHeartbeat

lemma admitPayment {seen : List Address} {payment : Payment} :
    Tx.Respects SameTickets (admitPayment h cfg env seen payment) := by
  refine .bind validatePayment fun _ => .bind checkRateLimit fun _ => ?_
  split_ifs
  · exact .pure _
  · exact .bind (.demand _) fun _ => .pure _

lemma routePayments {payments : List Payment} :
    Tx.Respects SameTickets (routePayments h cfg env payments) := by
  refine withGuard (.bind requireOpen fun _ => .bind (.fold fun _ _ _ => admitPayment) fun _ => ?_)
  refine .bind loadFeeConfig_reads fun fees => .bind bumpHeartbeat fun _ => ?_
  refine .bind (.forEach fun _ _ => of_settles .processSinglePayment) fun _ => ?_
  exact bumpHeartbeat

lemma routeMultihopSwap {amountIn : ℤ} {path : List Address} {floors : List ℤ} :
    Tx.Respects SameTickets
      (routeMultihopSwap h cfg env sender recipient dex amountIn path floors) := by
  refine withGuard (.bind requireOpen fun _ => .bind (.reject _ _) fun _ => ?_)
  refine .bind (.reject _ _) fun _ => .bind (.reject _ _) fun _ => .bind (.reject _ _) fun _ => ?_
  refine .bind (.reject _ _) fun _ => .bind (.reject _ _) fun _ => .bind (.reject _ _) fun _ => ?_
  refine .bind verifyKycForAmount_reads fun _ => .bind (.demand _) fun _ => ?_
  refine .bind checkRateLimit fun _ => .bind loadFeeConfig_reads fun fees => ?_
  refine .bind (of_settles .accrueUserRecord) fun _ => .bind (.unwrap _ _) fun _ => ?_
  refine .bind (.read _) fun _ => .bind (.reject _ _) fun _ => ?_
  refine .bind (of_settles .token) fun _ => ?_
  refine .bind (.fold fun _ _ _ => of_settles .swapHop) fun _ => .bind (.unwrap _ _) fun _ => ?_
  exact .bind (of_settles .payOut) fun _ => .bind bumpHeartbeat fun _ => .pure _

end SameTickets

/-- The quote was unused, and is marked since. -/
def Marks (quote : Quote) (s t : Traffic) : Prop :=
  SameTickets (s.markQuote quote.maker quote.quoteId) t ∧
    s.usedQuote quote.maker quote.quoteId = false

section Operations

variable {h : Host} {cfg : Settings} {env : Env} {s t : Traffic}

lemma routePaymentWithQuote_tickets {sender recipient : Address} {quote : Quote}
    {makerPubkey : PublicKey} {signature : Signature} :
    Tx.Ensures (SameTickets s)
      (routePaymentWithQuote h cfg env sender recipient quote makerPubkey signature)
      fun _ => Marks quote s := by
  have keep {v : Traffic} : ∀ t u, SameTickets t u → SameTickets v t → SameTickets v u :=
    fun _ _ htu hvt => trans_of SameTickets hvt htu
  refine .pass keep (.read _) fun held => .reject fun _ => ?_
  refine .pass keep (.update fun _ => ⟨rfl, rfl⟩) fun _ => ?_
  refine .bind (Q := fun _ => Marks quote s) ?_ fun amountOut => ?_
  · refine .pass keep .requireOpen fun _ => .reject fun _ => .reject fun _ => .reject fun _ => ?_
    refine .reject fun _ => .read fun used => .reject fun hu => .reject fun _ => ?_
    have hunused : ∀ t, SameTickets s t ∧ t.usedQuote quote.maker quote.quoteId = used →
        SameTickets s t ∧ s.usedQuote quote.maker quote.quoteId = false := by
      rintro t ⟨hs, ht⟩
      rw [hs.usedQuote] at ht
      exact ⟨hs, by simpa [ht] using hu⟩
    refine .mono (.given fun hq => ?_) hunused fun _ _ ht => ht
    refine .pass keep verifyKycForAmount_reads fun _ => .pass keep loadFeeConfig_reads fun _ => ?_
    refine .demand fun _ => .demand fun _ => .demand fun _ => .pass keep .checkRateLimit fun _ => ?_
    refine .pass keep (.read _) fun _ => .pass keep (.read _) fun _ => .reject fun _ => ?_
    refine .pass keep (.of_settles .accrueUserRecord) fun _ => ?_
    refine .bind (Q := fun _ => SameTickets (s.markQuote quote.maker quote.quoteId))
      (.update fun t ht => ?_) fun _ => ?_
    · exact ⟨ht.metaNonce, by simp only [Traffic.markQuote, ht.usedQuote]⟩
    refine .pass keep (.of_settles .token) fun _ => .pass keep (.of_settles .token) fun _ => ?_
    exact .pass keep .bumpHeartbeat fun _ => .pure fun _ ht => ⟨ht, hq⟩
  · refine .bind (.update fun t ht => ?_) fun _ => .pure fun _ ht => ht
    exact ⟨⟨ht.1.metaNonce, ht.1.usedQuote⟩, ht.2⟩

end Operations

variable {h : Host} {env : Env} {s t : State}

lemma RoutingOp.invoke_tickets {op : RoutingOp} (hr : (Op.route op).invoke h env s = .ok ((), t)) :
    t.traffic.metaNonce = s.traffic.noncesAfter (.route op) ∧
      t.traffic.usedQuote = s.traffic.quotesAfter (.route op) := by
  obtain ⟨v, hv, rfl⟩ := route_ok hr
  have keep {m : Routing Unit} (hm : Tx.Respects SameTickets m)
      (hv : m s.traffic = .ok ((), v)) :
      v.metaNonce = s.traffic.metaNonce ∧ v.usedQuote = s.traffic.usedQuote :=
    ⟨(hm _ _ _ hv).metaNonce, (hm _ _ _ hv).usedQuote⟩
  cases op with
  | routePayment payment => exact keep .routePayment hv
  | routePayments payments => exact keep .routePayments hv
  | routePaymentMeta payment signerPubkey nonce deadline signature =>
    have hsettles := Settles.routePaymentMeta hv
    exact ⟨hsettles.metaNonce, hsettles.usedQuote⟩
  | routePaymentWithQuote payer recipient quote makerPubkey signature =>
    obtain ⟨amountOut, hv⟩ := Tx.void_ok.mp hv
    have hmarks := (routePaymentWithQuote_tickets _ _ _ (refl_of SameTickets _) hv).1
    exact ⟨hmarks.metaNonce, hmarks.usedQuote⟩
  | routePaymentWithSwapRaw payer recipient dexRouter tokenIn tokenOut amountIn path minOut =>
    exact keep (.of_settles .routePaymentWithSwapRaw) hv
  | routePaymentWithSwap swap => exact keep (.of_settles (.void .routePaymentWithSwap)) hv
  | routePaymentsWithSwap swaps => exact keep (.of_settles (.void .routePaymentsWithSwap)) hv
  | routeSplitPaymentWithSwap payer recipient sellToken buyToken amountIn splits =>
    exact keep (.of_settles (.void .routeSplitPaymentWithSwap)) hv
  | routeMultihopSwap payer recipient dex amountIn path floors =>
    exact keep (.void .routeMultihopSwap) hv
  | quoteSwap dex sellToken buyToken => exact keep (.of_settles (.void .quoteSwap)) hv
  | withdrawRefund user token amount => exact keep (.of_settles .withdrawRefund) hv
  | claimAllRefunds user token => exact keep (.of_settles (.void .claimAllRefunds)) hv
  | migrateUserRecord user => exact keep (.of_settles (.void .migrateUserRecord)) hv

lemma TimelockOp.invoke_traffic {op : TimelockOp} {u : Unit}
    (hr : op.invoke h env s = .ok (u, t)) :
    t.traffic = { s.traffic with lastHeartbeat := t.traffic.lastHeartbeat } := by
  apply TimelockOp.invoke_preserves
    (I := fun t => t.traffic = { s.traffic with lastHeartbeat := t.traffic.lastHeartbeat })
    (fun _ _ ht => ht) ?_ rfl hr
  intro v t action hv ha
  rw [ha.traffic, hv]

lemma Op.invoke_tickets {op : Op} (hr : op.invoke h env s = .ok ((), t)) :
    t.traffic.metaNonce = s.traffic.noncesAfter op ∧
      t.traffic.usedQuote = s.traffic.quotesAfter op := by
  cases op with
  | administer op =>
    rw [(AdminOp.invoke_administered hr).traffic]
    exact ⟨rfl, rfl⟩
  | configure op =>
    obtain ⟨_, -, rfl⟩ := ConfigOp.invoke_frame hr
    exact ⟨rfl, rfl⟩
  | timelock op =>
    rw [TimelockOp.invoke_traffic hr]
    exact ⟨rfl, rfl⟩
  | group op =>
    rw [(GroupOp.invoke_ok hr).2]
    exact ⟨rfl, rfl⟩
  | route op => exact RoutingOp.invoke_tickets hr
  | treasury op =>
    have hsettles := TreasuryOp.invoke_settles s () t hr
    exact ⟨hsettles.metaNonce, hsettles.usedQuote⟩
  | outside call =>
    simp only [invoke, modifyTraffic_ok] at hr
    subst hr
    exact ⟨rfl, rfl⟩

section Runs

/-- The senders' next nonces are those that follow the executed payments' own, taken in order. -/
def InOrder (payments : List MetaCall) (s : State) : Prop :=
  Consecutive (fun m : MetaCall => m.payment.sender) MetaCall.nonce s.traffic.metaNonceOf
    payments.reverse

/-- The quotes stored as used are those that have been settled, each of them once. -/
structure SettledOnce (quotes : List Quote) (s : State) : Prop where
  once : (quotes.map Quote.ticket).Nodup
  used : ∀ maker quoteId, s.traffic.usedQuote maker quoteId = true ↔
    (maker, quoteId) ∈ quotes.map Quote.ticket

variable {payments : List MetaCall} {quotes : List Quote} {op : Op}

lemma Op.metaCall_eq {m : MetaCall} (hm : op.metaCall = some m) : op = m.op := by
  unfold metaCall at hm
  split at hm
  · obtain rfl := Option.some.inj hm
    rfl
  · cases hm

lemma Op.quote_unused {quote : Quote} (hq : op.quote = some quote)
    (hr : op.invoke h env s = .ok ((), t)) :
    s.traffic.usedQuote quote.maker quote.quoteId = false := by
  unfold Op.quote at hq
  split at hq
  · obtain rfl := Option.some.inj hq
    obtain ⟨v, hv, -⟩ := route_ok hr
    obtain ⟨amountOut, hv⟩ := Tx.void_ok.mp hv
    exact (routePaymentWithQuote_tickets _ _ _ (refl_of SameTickets _) hv).2
  · cases hq

lemma metaNonceOf_after (ht : t.traffic.metaNonce = s.traffic.noncesAfter op) :
    t.traffic.metaNonceOf =
      match op.metaCall with
      | some m => Function.update s.traffic.metaNonceOf m.payment.sender (m.nonce + 1)
      | none => s.traffic.metaNonceOf := by
  funext sender
  cases hm : op.metaCall with
  | none => simp only [Traffic.metaNonceOf, ht, Traffic.noncesAfter, hm]
  | some m =>
    simp only [Traffic.metaNonceOf, ht, Traffic.noncesAfter, hm, Function.update_apply]
    split_ifs <;> rfl

lemma step_inOrder (call : Call) (hs : InOrder payments s) :
    InOrder (payments ++ executed h s call) (step h call s) := by
  rcases granted_cases Op.metaCall s call with ⟨he, hstep⟩ | ⟨he, hr⟩
  · rwa [executed, he, hstep, List.append_nil]
  have hnonces := metaNonceOf_after (Op.invoke_tickets hr).1
  rw [executed, he, InOrder, hnonces]
  cases hm : call.op.metaCall with
  | none => simpa [InOrder] using hs
  | some m =>
    have hverified := m.verified (Op.metaCall_eq hm ▸ hr)
    rw [Option.toList_some, List.reverse_append]
    exact Consecutive.use hs hverified.nonce.symm

lemma step_settledOnce (call : Call) (hs : SettledOnce quotes s) :
    SettledOnce (quotes ++ settled h s call) (step h call s) := by
  rcases granted_cases Op.quote s call with ⟨he, hstep⟩ | ⟨he, hr⟩
  · rwa [settled, he, hstep, List.append_nil]
  have hused := (Op.invoke_tickets hr).2
  rw [settled, he]
  cases hq : call.op.quote with
  | none =>
    rw [Traffic.quotesAfter, hq] at hused
    refine ⟨by simpa using hs.once, fun maker quoteId => ?_⟩
    simpa [hused] using hs.used maker quoteId
  | some quote =>
    have hfresh := Op.quote_unused hq hr
    rw [Traffic.quotesAfter, hq] at hused
    have hnew : quote.ticket ∉ quotes.map Quote.ticket := by
      intro hmem
      have hmarked := (hs.used quote.maker quote.quoteId).mpr hmem
      simp [hfresh] at hmarked
    refine ⟨?_, fun maker quoteId => ?_⟩
    · rw [List.map_append]
      exact hs.once.append (by simp) (by simpa using hnew)
    · simp only [hused, Traffic.markQuote, Option.toList_some, List.map_append, List.mem_append]
      rw [← hs.used]
      by_cases hi : maker = quote.maker ∧ quoteId = quote.quoteId
      · simp [hi, Quote.ticket]
      · simp only [hi, if_false, List.map_cons, List.map_nil, List.mem_singleton, Quote.ticket,
          Prod.mk.injEq, or_false]

/-- The senders' nonces were taken in order, no payload was executed and no quote settled twice, and
what fails uses up nothing. -/
structure ReplayFree (h : Host) (payments : List MetaCall) (quotes : List Quote) (s : State) :
    Prop where
  nonces : ∀ sender, (payments.filter (·.payment.sender = sender)).map (·.nonce) =
    List.range (s.traffic.metaNonceOf sender)
  payloads : (payments.map MetaCall.payload).Nodup
  quotes : SettledOnce quotes s
  failed : ∀ call : Call, Tx.succeeds (call.op.invoke h call.env) s = false → step h call s = s

lemma InOrder.payloads (hs : InOrder payments s) : (payments.map MetaCall.payload).Nodup := by
  have htickets := hs.nodup_tickets
  rw [List.map_reverse, List.nodup_reverse] at htickets
  apply List.Nodup.of_map fun payload : Payment × PublicKey × ℕ × ℕ =>
    (payload.1.sender, payload.2.2.1)
  rwa [List.map_map]

/-- Whatever calls are made, no signed payment and no quote takes effect twice. -/
theorem replay_protected (h : Host) (tokens : Ledger Address Address) (calls : List Call) :
    ReplayFree h (trace (step h) (executed h) (State.fresh tokens) calls)
      (trace (step h) (settled h) (State.fresh tokens) calls) (after h tokens calls) := by
  have hstart : InOrder [] (State.fresh tokens) := Consecutive.start
  have hunused : SettledOnce [] (State.fresh tokens) := ⟨.nil, by simp [State.fresh]⟩
  have horder := trace_invariant (fun _ _ call => step_inOrder (h := h) call) hstart calls
  have honce := trace_invariant (fun _ _ call => step_settledOnce (h := h) call) hunused calls
  rw [List.nil_append] at horder honce
  exact ⟨horder.in_order, horder.payloads, honce, fun call hr => Tx.commit_of_fails hr⟩

end Runs

end StellarTags.Router
