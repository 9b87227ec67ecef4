import StellarTags.EventSourcing.Events
import StellarTags.Library.Runs

/-! The payment commands, one after the other, and what they do to a payment that is settled. -/

namespace StellarTags.EventSourcing

open Library.Runs

structure PaymentData where
  fromAddress : Field String
  toAddress : Field String
  amount : Field ℚ
  fee : Field ℚ := .absent
  assetCode : Field String := .absent
  riskScore : Field ℚ := .absent
  deriving DecidableEq, Repr

/-- Calls of the services. A new payment's id is a fresh uuid; the batch queue takes one from its
caller, and records each payment of a batch that was submitted. -/
inductive Command
  | createPayment (paymentId : PaymentId) (paymentData : PaymentData)
  | routePayment (paymentId : PaymentId) (transactionHash : Field String)
  | completePayment (paymentId : PaymentId)
  | failPayment (paymentId : PaymentId) (reason : Field String)
  | flagPaymentFraud (paymentId : PaymentId) (riskScore : Field ℚ)
  | clearPaymentFraud (paymentId : PaymentId)
  | enqueue (paymentId : PaymentId) (paymentData : PaymentData)
  | processBatch (paymentId : PaymentId) (txHash : String)
  deriving DecidableEq, Repr

/-- What a command that appends nothing answers. -/
inductive Reply
  | error (message : String)
  | status (status : String)
  deriving DecidableEq, Repr

def HasType (events : List PaymentEvent) (eventType : EventType) : Prop :=
  ∃ e ∈ events, e.eventType = eventType

instance (events : List PaymentEvent) (eventType : EventType) :
    Decidable (HasType events eventType) :=
  inferInstanceAs (Decidable (∃ e ∈ events, _))

def PaymentData.HasAddresses (paymentData : PaymentData) : Prop :=
  paymentData.fromAddress.orElse "" "" ≠ "" ∧ paymentData.toAddress.orElse "" "" ≠ ""

instance (paymentData : PaymentData) : Decidable paymentData.HasAddresses :=
  inferInstanceAs (Decidable (_ ∧ _))

/-- `amount <= 0` of `createPayment`: false of an amount that is left out, true of `null`. -/
def PaymentData.NoAmount (paymentData : PaymentData) : Prop :=
  paymentData.amount ≠ .absent ∧ paymentData.amount.get.getD 0 ≤ 0

instance (paymentData : PaymentData) : Decidable paymentData.NoAmount :=
  inferInstanceAs (Decidable (_ ∧ _))

namespace Command

def paymentId : Command → PaymentId
  | createPayment id _ => id
  | routePayment id _ => id
  | completePayment id => id
  | failPayment id _ => id
  | flagPaymentFraud id _ => id
  | clearPaymentFraud id => id
  | enqueue id _ => id
  | processBatch id _ => id

def eventType : Command → EventType
  | createPayment _ _ => .paymentCreated
  | routePayment _ _ => .paymentRouted
  | completePayment _ => .paymentCompleted
  | failPayment _ _ => .paymentFailed
  | flagPaymentFraud _ _ => .paymentFlaggedFraud
  | clearPaymentFraud _ => .paymentClearedFraud
  | enqueue _ _ => .paymentCreated
  | processBatch _ _ => .paymentRouted

def data : Command → EventData
  | createPayment _ paymentData =>
    { fromAddress := paymentData.fromAddress
      toAddress := paymentData.toAddress
      amount := paymentData.amount
      fee := paymentData.fee.default 0
      assetCode := paymentData.assetCode.default "XLM"
      riskScore := paymentData.riskScore.default 0 }
  | routePayment _ transactionHash => { transactionHash }
  | completePayment _ => {}
  | failPayment _ reason => { reason }
  | flagPaymentFraud _ riskScore => { riskScore }
  | clearPaymentFraud _ => {}
  | enqueue _ paymentData =>
    { fromAddress := paymentData.fromAddress
      toAddress := paymentData.toAddress
      amount := paymentData.amount
      fee := .value (paymentData.fee.orElse 0 0)
      assetCode := .value (paymentData.assetCode.orElse "" "XLM")
      riskScore := .value (paymentData.riskScore.orElse 0 0) }
  | processBatch _ txHash => { transactionHash := .value txHash }

def draft (c : Command) : Draft := ⟨c.paymentId, c.eventType, c.data⟩

def reads : Command → Bool
  | createPayment _ _ => false
  | enqueue _ _ => false
  | processBatch _ _ => false
  | _ => true

def notFound (id : PaymentId) : Reply := .error ("Payment " ++ toString id ++ " not found")

def check : Command → List PaymentEvent → Except Reply Unit
  | createPayment _ paymentData, _ =>
    if ¬ paymentData.HasAddresses then .error (.error "fromAddress and toAddress are required")
    else if paymentData.NoAmount then .error (.error "amount must be greater than 0")
    else .ok ()
  | routePayment id _, events =>
    if events = [] then .error (notFound id)
    else if ¬ HasType events .paymentCreated then .error (.error "Payment not properly created")
    else if HasType events .paymentRouted then .error (.status "already_routed")
    else .ok ()
  | completePayment id, events =>
    if events = [] then .error (notFound id)
    else if HasType events .paymentCompleted then .error (.status "already_completed")
    else .ok ()
  | enqueue _ paymentData, _ =>
    if ¬ paymentData.HasAddresses then .error (.error "fromAddress and toAddress are required")
    else if paymentData.amount = .absent ∨ paymentData.NoAmount then
      .error (.error "amount must be greater than 0")
    else .ok ()
  | processBatch _ _, _ => .ok ()
  | c, events => if events = [] then .error (notFound c.paymentId) else .ok ()

end Command

section Sequential

/-- A command that no other one overlaps, at a time. -/
def execute : ℕ × Command → List PaymentEvent → List PaymentEvent
  | (now, c), store =>
    match c.check (getEventsByAggregate store c.paymentId) with
    | .ok () => appendEvent store c.draft now
    | .error _ => store

structure Settlement where
  status : Option Status
  transactionHash : Option String
  routedAt : Option ℕ
  completedAt : Option ℕ
  failedAt : Option ℕ
  failureReason : Option String
  deriving DecidableEq, Repr

def PaymentState.settlement (state : PaymentState) : Settlement where
  status := state.status
  transactionHash := state.transactionHash
  routedAt := state.routedAt
  completedAt := state.completedAt
  failedAt := state.failedAt
  failureReason := state.failureReason

def settlementOf (store : List PaymentEvent) (id : PaymentId) : Option Settlement :=
  (rebuildStateFromEvents store id).map PaymentState.settlement

def Settled (store : List PaymentEvent) (id : PaymentId) : Prop :=
  (settlementOf store id).map Settlement.status ∈ [some (some .completed), some (some .failed)]

instance (store : List PaymentEvent) (id : PaymentId) : Decidable (Settled store id) :=
  inferInstanceAs (Decidable (_ ∈ _))

/-- What a settled payment can be asked: to be flagged or cleared, to be routed or completed if it
was before, or to be created without an address or an amount. -/
def Harmless (events : List PaymentEvent) : Command → Prop
  | .routePayment _ _ => HasType events .paymentRouted
  | .completePayment _ => HasType events .paymentCompleted
  | .flagPaymentFraud _ _ => True
  | .clearPaymentFraud _ => True
  | .createPayment _ paymentData => ¬ paymentData.HasAddresses ∨ paymentData.NoAmount
  | .enqueue _ paymentData =>
    ¬ paymentData.HasAddresses ∨ paymentData.amount = .absent ∨ paymentData.NoAmount
  | .failPayment _ _ => False
  | .processBatch _ _ => False

def Respects (id : PaymentId) (store : List PaymentEvent) : ℕ × Command → Prop
  | (_, c) => Settled store id → c.paymentId = id → Harmless (getEventsByAggregate store id) c

end Sequential

section Replays

variable {store : List PaymentEvent} {id : PaymentId} {c : Command} {e : PaymentEvent} {now : ℕ}

lemma execute_sequenced (h : Sequenced store) (i : ℕ × Command) : Sequenced (execute i store) := by
  obtain ⟨now, c⟩ := i
  rw [execute]
  split
  · exact h.append _ _
  · exact h

/-- The rest of the state does not bear on what an event makes of the settlement. -/
lemma settlement_applyEvent_of_fraud (state : PaymentState)
    (he : e.eventType = .paymentFlaggedFraud ∨ e.eventType = .paymentClearedFraud) :
    (applyEvent state e).settlement = state.settlement := by
  rw [applyEvent]
  obtain he | he := he <;> rw [he] <;> rfl

lemma settlementOf_snoc_of_ne (he : e.aggregateId ≠ id) :
    settlementOf (store ++ [e]) id = settlementOf store id := by
  have hevents : getEventsByAggregate (store ++ [e]) id = getEventsByAggregate store id := by
    simp [getEventsByAggregate, he]
  rw [settlementOf, rebuildStateFromEvents, hevents, ← rebuildStateFromEvents, ← settlementOf]

lemma settlementOf_snoc_of_fraud (h : Sequenced store) (hnext : Sequenced (store ++ [e]))
    (hid : e.aggregateId = id) (hevents : stream store id ≠ [])
    (he : e.eventType = .paymentFlaggedFraud ∨ e.eventType = .paymentClearedFraud) :
    settlementOf (store ++ [e]) id = settlementOf store id := by
  have hsnoc : stream (store ++ [e]) id = stream store id ++ [e] := by rw [stream_snoc, if_pos hid]
  have hne : stream store id ++ [e] ≠ [] := by simp
  simp only [settlementOf, rebuildStateFromEvents, h.getEventsByAggregate, hnext.getEventsByAggregate,
    hsnoc, if_neg hevents, if_neg hne, Option.map_some, List.foldl_append, List.foldl_cons,
    List.foldl_nil, settlement_applyEvent_of_fraud _ he]

lemma stream_ne_nil_of_settled (h : Sequenced store) (hs : Settled store id) :
    stream store id ≠ [] := by
  intro hnil
  rw [Settled, settlementOf, rebuildStateFromEvents, h.getEventsByAggregate, hnil] at hs
  simp at hs

lemma Harmless.refused {events : List PaymentEvent} (h : Harmless events c) (hevents : events ≠ []) :
    (c.eventType = .paymentFlaggedFraud ∨ c.eventType = .paymentClearedFraud) ∨
      ∃ reply, c.check events = .error reply := by
  cases c with
  | createPayment id paymentData =>
    right
    by_cases haddresses : paymentData.HasAddresses
    · have hamount := h.resolve_left (not_not.mpr haddresses)
      exact ⟨_, by rw [Command.check, if_neg (not_not.mpr haddresses), if_pos hamount]⟩
    · exact ⟨_, if_pos haddresses⟩
  | enqueue id paymentData =>
    right
    by_cases haddresses : paymentData.HasAddresses
    · have hamount := h.resolve_left (not_not.mpr haddresses)
      exact ⟨_, by rw [Command.check, if_neg (not_not.mpr haddresses), if_pos hamount]⟩
    · exact ⟨_, if_pos haddresses⟩
  | routePayment id transactionHash =>
    right
    change HasType events .paymentRouted at h
    by_cases hcreated : HasType events .paymentCreated
    · exact ⟨_, by rw [Command.check, if_neg hevents, if_neg (not_not.mpr hcreated), if_pos h]⟩
    · exact ⟨_, by rw [Command.check, if_neg hevents, if_pos hcreated]⟩
  | completePayment id =>
    right
    change HasType events .paymentCompleted at h
    exact ⟨_, by rw [Command.check, if_neg hevents, if_pos h]⟩
  | failPayment id reason => cases h
  | processBatch id txHash => cases h
  | flagPaymentFraud id riskScore => exact .inl (.inl rfl)
  | clearPaymentFraud id => exact .inl (.inr rfl)

lemma settlementOf_appendEvent_of_fraud (h : Sequenced store) (hs : Settled store c.paymentId)
    (hc : c.eventType = .paymentFlaggedFraud ∨ c.eventType = .paymentClearedFraud) :
    settlementOf (appendEvent store c.draft now) c.paymentId = settlementOf store c.paymentId := by
  have hnext := h.append c.draft now
  rw [h.appendEvent] at hnext ⊢
  exact settlementOf_snoc_of_fraud h hnext rfl (stream_ne_nil_of_settled h hs) hc

lemma settlementOf_execute (h : Sequenced store) (hs : Settled store id)
    (hc : Respects id store (now, c)) : settlementOf (execute (now, c) store) id =
      settlementOf store id := by
  rw [execute]
  split
  case h_2 => rfl
  case h_1 hok =>
    by_cases hid : c.paymentId = id
    · subst hid
      have hevents := stream_ne_nil_of_settled h hs
      rw [← h.getEventsByAggregate] at hevents
      obtain hfraud | ⟨reply, hrefused⟩ := (hc hs rfl).refused hevents
      · exact settlementOf_appendEvent_of_fraud h hs hfraud
      · rw [hrefused] at hok
        cases hok
    · rw [h.appendEvent]
      exact settlementOf_snoc_of_ne hid

end Replays

/-- In a run that asks of a settled payment only what is harmless, its settlement stays. -/
theorem settlement_stays {earlier later : List (ℕ × Command)} {id : PaymentId}
    (h : Along execute (Respects id) [] (earlier ++ later))
    (hs : Settled (run execute [] earlier) id) :
    settlementOf (run execute [] (earlier ++ later)) id =
      settlementOf (run execute [] earlier) id := by
  have hsequenced : Sequenced (run execute [] earlier) :=
    reachable_invariant (I := Sequenced) (fun _ i hstore => execute_sequenced hstore i)
      sequenced_nil ⟨earlier, rfl⟩
  have hlater := ((along_append _ _ _ _ _).mp h).2
  rw [run, List.foldl_append, ← run, ← run]
  generalize run execute [] earlier = store at hsequenced hs hlater
  have hstep (t : List PaymentEvent) (i : ℕ × Command)
      (ht : Sequenced t ∧ settlementOf t id = settlementOf store id) (hi : Respects id t i) :
      Sequenced (execute i t) ∧ settlementOf (execute i t) id = settlementOf store id := by
    refine ⟨execute_sequenced ht.1 i, ?_⟩
    rw [settlementOf_execute ht.1 _ hi, ht.2]
    rwa [Settled, ht.2]
  exact (run_invariant hstep ⟨hsequenced, rfl⟩ hlater).2

def paid : PaymentData where
  fromAddress := .value "GFROM"
  toAddress := .value "GTO"
  amount := .value 5

def completion : List (ℕ × Command) :=
  [(100, .createPayment 1 paid), (200, .routePayment 1 (.value "hash")), (300, .completePayment 1)]

theorem settlement_stays_completed :
    settlementOf (run execute [] (completion ++ [(400, .flagPaymentFraud 1 (.value 9))])) 1 =
      settlementOf (run execute [] completion) 1 := by
  have hsettled : Settled (run execute [] completion) 1 := by decide
  apply settlement_stays _ hsettled
  refine ⟨?_, ?_, ?_, ?_, trivial⟩ <;> intro hs hid
  · exact absurd hs (by decide)
  · exact absurd hs (by decide)
  · exact absurd hs (by decide)
  · trivial

/-- A completed payment can be failed. -/
theorem completed_then_failed :
    Settled (run execute [] completion) 1 ∧
      settlementOf (run execute [] (completion ++ [(400, .failPayment 1 (.value "late"))])) 1 ≠
        settlementOf (run execute [] completion) 1 := by
  decide

end StellarTags.EventSourcing
