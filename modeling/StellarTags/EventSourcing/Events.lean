import Mathlib.Data.Rat.Defs
import Mathlib.Data.List.Sort

/-! The events of payments, their store, and the state that replaying them gives. -/

namespace StellarTags.EventSourcing

abbrev PaymentId := ℕ

inductive EventType
  | paymentCreated
  | paymentValidated
  | paymentRouted
  | paymentCompleted
  | paymentFailed
  | paymentRefunded
  | paymentFlaggedFraud
  | paymentClearedFraud
  deriving DecidableEq, Repr

/-- A field of a JSON object. -/
inductive Field (α : Type)
  | absent
  | null
  | value (a : α)
  deriving DecidableEq, Repr

namespace Field

variable {α : Type}

def get : Field α → Option α
  | .absent => none
  | .null => none
  | .value a => some a

/-- Spread over an old value, or written to a column that has one. -/
def spreadOver : Field α → Option α → Option α
  | .absent, old => old
  | .null, _ => none
  | .value a, _ => some a

/-- The default of a destructuring: `null` is not replaced. -/
def default (a : α) : Field α → Field α
  | .absent => .value a
  | field => field

/-- The value after `||`: there is none, or it is falsy. -/
def orElse [DecidableEq α] (falsy a : α) (field : Field α) : α :=
  match field.get with
  | none => a
  | some b => if b = falsy then a else b

end Field

structure EventData where
  fromAddress : Field String := .absent
  toAddress : Field String := .absent
  amount : Field ℚ := .absent
  fee : Field ℚ := .absent
  assetCode : Field String := .absent
  riskScore : Field ℚ := .absent
  transactionHash : Field String := .absent
  reason : Field String := .absent
  deriving DecidableEq, Repr

structure PaymentEvent where
  aggregateId : PaymentId
  sequence : ℕ
  eventType : EventType
  eventData : EventData
  timestamp : ℕ
  deriving DecidableEq, Repr

section Store

def getEventsByAggregate (store : List PaymentEvent) (aggregateId : PaymentId) : List PaymentEvent :=
  (store.filter (·.aggregateId = aggregateId)).insertionSort (·.sequence ≤ ·.sequence)

/-- The order of `getEventsSince`. The database is free among events with one timestamp and one
sequence; `rank` is its choice. -/
def before (rank : PaymentEvent → ℕ) (a b : PaymentEvent) : Prop :=
  a.timestamp < b.timestamp ∨ a.timestamp = b.timestamp ∧
    (a.sequence < b.sequence ∨ a.sequence = b.sequence ∧ rank a ≤ rank b)

instance (rank : PaymentEvent → ℕ) : DecidableRel (before rank) := fun _ _ =>
  inferInstanceAs (Decidable (_ ∨ _))

def getEventsSince (rank : PaymentEvent → ℕ) (store : List PaymentEvent) (sinceSequence limit : ℕ) :
    List PaymentEvent :=
  ((store.filter (sinceSequence < ·.sequence)).insertionSort (before rank)).take limit

/-- What `appendEvent` is asked to store. -/
structure Draft where
  paymentId : PaymentId
  eventType : EventType
  data : EventData
  deriving DecidableEq, Repr

def nextSequence (store : List PaymentEvent) (paymentId : PaymentId) : ℕ :=
  match ((store.filter (·.aggregateId = paymentId)).map (·.sequence)).max? with
  | some lastSequence => lastSequence + 1
  | none => 1

def Draft.event (draft : Draft) (sequence timestamp : ℕ) : PaymentEvent :=
  ⟨draft.paymentId, sequence, draft.eventType, draft.data, timestamp⟩

/-- The row of an event; the store holds one event of a sequence for a payment. -/
def create (store : List PaymentEvent) (event : PaymentEvent) : Option (List PaymentEvent) :=
  if ∃ e ∈ store, e.aggregateId = event.aggregateId ∧ e.sequence = event.sequence then none
  else some (store ++ [event])

/-- The transaction of an append that no other one overlaps. -/
def appendEvent (store : List PaymentEvent) (draft : Draft) (timestamp : ℕ) : List PaymentEvent :=
  (create store (draft.event (nextSequence store draft.paymentId) timestamp)).getD store

end Store

section Replay

inductive Status
  | unknown
  | created
  | validated
  | routed
  | completed
  | failed
  deriving DecidableEq, Repr

inductive FraudStatus
  | clear
  | flagged
  | cleared
  deriving DecidableEq, Repr

/-- The object that events are applied to; a property it lacks is `none`. -/
structure PaymentState where
  id : PaymentId
  status : Option Status := none
  currentState : Option Status := none
  eventCount : Option ℕ := none
  lastEventSeq : Option ℕ := none
  fromAddress : Option String := none
  toAddress : Option String := none
  amount : Option ℚ := none
  fee : Option ℚ := none
  assetCode : Option String := none
  riskScore : Option ℚ := none
  fraudStatus : Option FraudStatus := none
  transactionHash : Option String := none
  failureReason : Option String := none
  createdAt : Option ℕ := none
  validatedAt : Option ℕ := none
  routedAt : Option ℕ := none
  completedAt : Option ℕ := none
  failedAt : Option ℕ := none
  fraudFlaggedAt : Option ℕ := none
  fraudClearedAt : Option ℕ := none
  deriving DecidableEq, Repr

def PaymentState.spread (state : PaymentState) (data : EventData) : PaymentState :=
  { state with
    fromAddress := data.fromAddress.spreadOver state.fromAddress
    toAddress := data.toAddress.spreadOver state.toAddress
    amount := data.amount.spreadOver state.amount
    fee := data.fee.spreadOver state.fee
    assetCode := data.assetCode.spreadOver state.assetCode
    riskScore := data.riskScore.spreadOver state.riskScore
    transactionHash := data.transactionHash.spreadOver state.transactionHash }

def applyEvent (currentState : PaymentState) (event : PaymentEvent) : PaymentState :=
  let newState := { currentState with eventCount := currentState.eventCount.map (· + 1) }
  match event.eventType with
  | .paymentCreated =>
    { newState.spread event.eventData with
      status := some .created
      createdAt := some event.timestamp }
  | .paymentValidated =>
    { newState with
      status := some .validated
      validatedAt := some event.timestamp }
  | .paymentRouted =>
    { newState with
      status := some .routed
      routedAt := some event.timestamp
      transactionHash := event.eventData.transactionHash.get }
  | .paymentCompleted =>
    { newState with
      status := some .completed
      completedAt := some event.timestamp }
  | .paymentFailed =>
    { newState with
      status := some .failed
      failedAt := some event.timestamp
      failureReason := event.eventData.reason.get }
  | .paymentFlaggedFraud =>
    { newState with
      fraudStatus := some .flagged
      riskScore := event.eventData.riskScore.get
      fraudFlaggedAt := some event.timestamp }
  | .paymentClearedFraud =>
    { newState with
      fraudStatus := some .cleared
      fraudClearedAt := some event.timestamp }
  | .paymentRefunded => newState

def rebuildStateFromEvents (store : List PaymentEvent) (aggregateId : PaymentId) :
    Option PaymentState :=
  let events := getEventsByAggregate store aggregateId
  if events = [] then none
  else
    some (events.foldl applyEvent
      { id := aggregateId, status := some .unknown, eventCount := some 0 })

end Replay

section Streams

variable {store : List PaymentEvent} {id : PaymentId} {e : PaymentEvent}

def stream (store : List PaymentEvent) (id : PaymentId) : List PaymentEvent :=
  store.filter (·.aggregateId = id)

/-- The events of each payment were stored with the sequences 1, 2, and so on. -/
def Sequenced (store : List PaymentEvent) : Prop :=
  ∀ id, (stream store id).map (·.sequence) = List.range' 1 (stream store id).length

@[simp] lemma mem_getEventsByAggregate :
    e ∈ getEventsByAggregate store id ↔ e ∈ store ∧ e.aggregateId = id := by
  simp [getEventsByAggregate]

@[simp] lemma mem_stream : e ∈ stream store id ↔ e ∈ store ∧ e.aggregateId = id := by
  simp [stream]

@[simp] lemma stream_snoc (store : List PaymentEvent) (e : PaymentEvent) (id : PaymentId) :
    stream (store ++ [e]) id =
      if e.aggregateId = id then stream store id ++ [e] else stream store id := by
  rw [stream, List.filter_append, ← stream]
  split_ifs with h <;> simp [h]

lemma sequenced_nil : Sequenced [] := fun _ => rfl

lemma Sequenced.snoc (h : Sequenced store)
    (he : e.sequence = (stream store e.aggregateId).length + 1) : Sequenced (store ++ [e]) := by
  intro id
  rw [stream_snoc]
  split_ifs with hid
  · subst hid
    rw [List.map_append, h, List.length_append, List.length_singleton, List.range'_concat,
      List.map_singleton, he, Nat.one_mul, Nat.add_comm 1]
  · exact h id

lemma Sequenced.bounds (h : Sequenced store) (he : e ∈ stream store id) :
    0 < e.sequence ∧ e.sequence ≤ (stream store id).length := by
  have hmem : e.sequence ∈ (stream store id).map (·.sequence) := List.mem_map_of_mem he
  rw [h, List.mem_range'_1] at hmem
  omega

lemma Sequenced.taken (h : Sequenced store) {n : ℕ} (hpos : 0 < n)
    (hn : n ≤ (stream store id).length) :
    ∃ e ∈ store, e.aggregateId = id ∧ e.sequence = n := by
  have hmem : n ∈ (stream store id).map (·.sequence) := by
    rw [h, List.mem_range'_1]
    omega
  obtain ⟨e, he, rfl⟩ := List.mem_map.mp hmem
  obtain ⟨hstore, hid⟩ := mem_stream.mp he
  exact ⟨e, hstore, hid, rfl⟩

lemma Sequenced.getEventsByAggregate (h : Sequenced store) (id : PaymentId) :
    getEventsByAggregate store id = stream store id := by
  have hsorted : ((stream store id).map (·.sequence)).Pairwise (· ≤ ·) := by
    rw [h]
    exact List.pairwise_le_range'
  exact List.Pairwise.insertionSort_eq (List.pairwise_map.mp hsorted)

lemma Sequenced.nextSequence (h : Sequenced store) (id : PaymentId) :
    nextSequence store id = (stream store id).length + 1 := by
  rw [EventSourcing.nextSequence, ← stream, h id]
  cases hlength : (stream store id).length with
  | zero => rfl
  | succ n =>
    have hmax : (List.range' 1 (n + 1)).max? = some (n + 1) := by
      rw [List.max?_eq_some_iff]
      simp only [List.mem_range'_1]
      exact ⟨by omega, fun m hm => by omega⟩
    rw [hmax]

lemma nextSequence_pos (store : List PaymentEvent) (id : PaymentId) :
    0 < EventSourcing.nextSequence store id := by
  rw [EventSourcing.nextSequence]
  split
  · exact Nat.succ_pos _
  · exact Nat.one_pos

lemma create_ok {event : PaymentEvent}
    (h : ∀ e ∈ store, e.aggregateId = event.aggregateId → e.sequence ≠ event.sequence) :
    create store event = some (store ++ [event]) :=
  if_neg fun ⟨e, he, hid, hsequence⟩ => h e he hid hsequence

lemma Sequenced.appendEvent (h : Sequenced store) (draft : Draft) (timestamp : ℕ) :
    appendEvent store draft timestamp =
      store ++ [draft.event ((stream store draft.paymentId).length + 1) timestamp] := by
  rw [EventSourcing.appendEvent, h.nextSequence]
  have hnew (e : PaymentEvent) (he : e ∈ store) (hid : e.aggregateId = draft.paymentId) :
      e.sequence ≠ (stream store draft.paymentId).length + 1 := by
    have hbounds := h.bounds (mem_stream.mpr ⟨he, hid⟩)
    omega
  rw [create_ok hnew, Option.getD_some]

lemma Sequenced.append (h : Sequenced store) (draft : Draft) (timestamp : ℕ) :
    Sequenced (EventSourcing.appendEvent store draft timestamp) := by
  rw [h.appendEvent]
  exact h.snoc rfl

end Streams

end StellarTags.EventSourcing
