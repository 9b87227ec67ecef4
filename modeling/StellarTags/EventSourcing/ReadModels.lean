import Mathlib.Data.List.Dedup
import StellarTags.EventSourcing.Events

/-! The read models of payments: kept up event by event, and rebuilt from the whole store. -/

namespace StellarTags.EventSourcing

structure PaymentReadModel where
  id : PaymentId
  currentState : Status
  fromAddress : String
  toAddress : String
  amount : ℚ
  fee : ℚ
  assetCode : Option String
  transactionHash : Option String := none
  riskScore : Option ℚ
  fraudStatus : FraudStatus
  createdAt : ℕ
  lastEventSeq : ℕ
  version : ℕ := 1
  deriving DecidableEq, Repr

/-- What the database refuses to create. -/
inductive Fault
  | missingColumn
  | duplicateId
  deriving DecidableEq, Repr

abbrev ReadModels := PaymentId → Option PaymentReadModel

namespace ReadModels

def empty : ReadModels := fun _ => none

/-- The row is `none` if a column that needs a value has none. -/
def create (table : ReadModels) (row : Option PaymentReadModel) : Except Fault ReadModels :=
  match row with
  | none => .error .missingColumn
  | some row =>
    if (table row.id).isSome then .error .duplicateId
    else .ok (Function.update table row.id (some row))

def update (table : ReadModels) (id : PaymentId) (f : PaymentReadModel → PaymentReadModel) :
    ReadModels :=
  match table id with
  | none => table
  | some row => Function.update table id (some { f row with version := row.version + 1 })

end ReadModels

def createdRow (event : PaymentEvent) : Option PaymentReadModel := do
  let fromAddress ← event.eventData.fromAddress.get
  let toAddress ← event.eventData.toAddress.get
  let amount ← event.eventData.amount.get
  pure {
    id := event.aggregateId
    currentState := .created
    fromAddress, toAddress, amount
    fee := event.eventData.fee.orElse 0 0
    assetCode := event.eventData.assetCode.get
    riskScore := event.eventData.riskScore.get
    fraudStatus := .clear
    createdAt := event.timestamp
    lastEventSeq := event.sequence }

/-- Nothing writes the row between its read and its update, so the version always matches. -/
def updateReadModelFromEvent (table : ReadModels) (event : PaymentEvent) : Except Fault ReadModels :=
  match event.eventType with
  | .paymentCreated =>
    if (table event.aggregateId).isNone then table.create (createdRow event) else .ok table
  | .paymentRouted => .ok <| table.update event.aggregateId fun row =>
    { row with
      currentState := .routed
      transactionHash := event.eventData.transactionHash.spreadOver row.transactionHash
      lastEventSeq := event.sequence }
  | .paymentCompleted => .ok <| table.update event.aggregateId fun row =>
    { row with currentState := .completed, lastEventSeq := event.sequence }
  | .paymentFailed => .ok <| table.update event.aggregateId fun row =>
    { row with currentState := .failed, lastEventSeq := event.sequence }
  | .paymentFlaggedFraud => .ok <| table.update event.aggregateId fun row =>
    { row with
      fraudStatus := .flagged
      riskScore := event.eventData.riskScore.spreadOver row.riskScore
      lastEventSeq := event.sequence }
  | .paymentClearedFraud => .ok <| table.update event.aggregateId fun row =>
    { row with fraudStatus := .cleared, lastEventSeq := event.sequence }
  | .paymentValidated => .ok table
  | .paymentRefunded => .ok table

def rebuildStep (state : PaymentState) (event : PaymentEvent) : PaymentState :=
  { applyEvent state event with lastEventSeq := some event.sequence }

def rebuiltState (store : List PaymentEvent) (aggregateId : PaymentId) : PaymentState :=
  (getEventsByAggregate store aggregateId).foldl rebuildStep
    { id := aggregateId, currentState := some .unknown, lastEventSeq := some 0 }

/-- `now` stands for the new date of a payment without one. -/
def rebuiltRow (now : ℕ) (state : PaymentState) : Option PaymentReadModel := do
  let currentState ← state.status.or state.currentState
  let fromAddress ← state.fromAddress
  let toAddress ← state.toAddress
  pure {
    id := state.id
    currentState, fromAddress, toAddress
    amount := state.amount.getD 0
    fee := state.fee.getD 0
    assetCode := state.assetCode
    transactionHash := state.transactionHash
    riskScore := state.riskScore
    fraudStatus := state.fraudStatus.getD .clear
    createdAt := state.createdAt.getD now
    lastEventSeq := state.lastEventSeq.getD 0 }

def rebuildReadModel (now : ℕ) (store : List PaymentEvent) (aggregateId : PaymentId) :
    ReadModels × ℕ → Except Fault (ReadModels × ℕ)
  | (table, rebuilt) =>
    let state := rebuiltState store aggregateId
    if state.currentState ≠ some .unknown then do
      let table ← table.create (rebuiltRow now state)
      pure (table, rebuilt + 1)
    else .ok (table, rebuilt)

def rebuildAllReadModels (now : ℕ) (store : List PaymentEvent) : Except Fault (ReadModels × ℕ) :=
  (store.map (·.aggregateId)).dedup.foldlM (fun rows id => rebuildReadModel now store id rows)
    (.empty, 0)

def projectHistory (store : List PaymentEvent) (aggregateId : PaymentId) : Except Fault ReadModels :=
  (getEventsByAggregate store aggregateId).foldlM updateReadModelFromEvent .empty

/-- The columns of a row that come from the events: all but its version and its date. -/
def PaymentReadModel.columns (row : PaymentReadModel) : PaymentReadModel :=
  { row with createdAt := 0, version := 0 }

def rebuiltColumns (now : ℕ) (store : List PaymentEvent) (id : PaymentId) :
    Except Fault (Option PaymentReadModel) :=
  (rebuildAllReadModels now store).map fun rows => (rows.1 id).map PaymentReadModel.columns

def projectedColumns (store : List PaymentEvent) (id : PaymentId) :
    Except Fault (Option PaymentReadModel) :=
  (projectHistory store id).map fun table => (table id).map PaymentReadModel.columns

section Rebuild

variable {now : ℕ} {store : List PaymentEvent} {id : PaymentId}

@[simp] lemma applyEvent_currentState (state : PaymentState) (event : PaymentEvent) :
    (applyEvent state event).currentState = state.currentState := by
  rw [applyEvent]
  cases event.eventType <;> rfl

/-- Events set the status of the state they are applied to, and never its `currentState`. -/
lemma rebuiltState_currentState (store : List PaymentEvent) (id : PaymentId) :
    (rebuiltState store id).currentState = some .unknown := by
  have hfold (events : List PaymentEvent) (state : PaymentState)
      (h : state.currentState = some .unknown) :
      (events.foldl rebuildStep state).currentState = some .unknown := by
    induction events generalizing state with
    | nil => exact h
    | cons event events ih => exact ih _ (by rw [rebuildStep, applyEvent_currentState, h])
  exact hfold _ _ rfl

/-- So the rebuild deletes every row and creates none. -/
lemma rebuildAllReadModels_eq (now : ℕ) (store : List PaymentEvent) :
    rebuildAllReadModels now store = .ok (.empty, 0) := by
  have hfold (ids : List PaymentId) : ids.foldlM
      (fun rows id => rebuildReadModel now store id rows) (ReadModels.empty, 0) =
        .ok (ReadModels.empty, 0) := by
    induction ids with
    | nil => rfl
    | cons id ids ih =>
      rw [List.foldlM_cons, rebuildReadModel, if_neg (by simp [rebuiltState_currentState])]
      exact ih
  exact hfold _

end Rebuild

section Projection

variable {store events : List PaymentEvent} {event : PaymentEvent} {table table' : ReadModels}
  {id : PaymentId}

lemma ReadModels.update_of_none {f : PaymentReadModel → PaymentReadModel} (h : table id = none) :
    table.update id f = table := by
  rw [ReadModels.update, h]

lemma ReadModels.isSome_update (id' : PaymentId) {f : PaymentReadModel → PaymentReadModel}
    (h : (table id).isSome) : (table.update id' f id).isSome := by
  rw [ReadModels.update]
  cases hrow : table id' with
  | none => exact h
  | some row =>
    by_cases hid : id = id'
    · subst hid
      simp
    · simpa [hid] using h

lemma ReadModels.isSome_create {row : Option PaymentReadModel} (h : table.create row = .ok table') :
    ∃ r, row = some r ∧ table' = Function.update table r.id (some r) := by
  cases row with
  | none => cases h
  | some r =>
    rw [ReadModels.create] at h
    split_ifs at h
    exact ⟨r, rfl, (Except.ok.inj h).symm⟩

lemma id_of_createdRow {row : PaymentReadModel} (h : createdRow event = some row) :
    row.id = event.aggregateId := by
  simp only [createdRow, Option.bind_eq_bind, Option.bind_eq_some_iff] at h
  obtain ⟨_, _, _, _, _, _, h⟩ := h
  obtain rfl := Option.some.inj h
  rfl

lemma updateReadModelFromEvent_of_none (hnone : table event.aggregateId = none)
    (h : event.eventType ≠ .paymentCreated) : updateReadModelFromEvent table event = .ok table := by
  rw [updateReadModelFromEvent]
  cases htype : event.eventType with
  | paymentCreated => exact absurd htype h
  | paymentValidated => rfl
  | paymentRefunded => rfl
  | _ => simp only [ReadModels.update_of_none hnone]

lemma isSome_updateReadModelFromEvent (h : updateReadModelFromEvent table event = .ok table')
    (hrow : (table id).isSome) : (table' id).isSome := by
  rw [updateReadModelFromEvent] at h
  cases htype : event.eventType with
  | paymentCreated =>
    simp only [htype] at h
    split_ifs at h with hnone
    · obtain ⟨row, -, rfl⟩ := ReadModels.isSome_create h
      by_cases hid : id = row.id
      · subst hid
        simp
      · simpa [hid] using hrow
    · obtain rfl := Except.ok.inj h
      exact hrow
  | paymentValidated =>
    rw [htype] at h
    obtain rfl := Except.ok.inj h
    exact hrow
  | paymentRefunded =>
    rw [htype] at h
    obtain rfl := Except.ok.inj h
    exact hrow
  | _ =>
    rw [htype] at h
    obtain rfl := Except.ok.inj h
    exact ReadModels.isSome_update _ hrow

lemma isSome_of_created (h : updateReadModelFromEvent table event = .ok table')
    (htype : event.eventType = .paymentCreated) : (table' event.aggregateId).isSome := by
  simp only [updateReadModelFromEvent, htype] at h
  split_ifs at h with hnone
  · obtain ⟨row, hrow, rfl⟩ := ReadModels.isSome_create h
    simp [id_of_createdRow hrow]
  · obtain rfl := Except.ok.inj h
    rw [Option.isSome_iff_ne_none]
    exact fun h => hnone (by rw [h, Option.isNone_none])

lemma foldlM_of_none (hid : ∀ e ∈ events, e.aggregateId = id)
    (h : ∀ e ∈ events, e.eventType ≠ .paymentCreated) (hnone : table id = none) :
    events.foldlM updateReadModelFromEvent table = .ok table := by
  induction events with
  | nil => rfl
  | cons event events ih =>
    have hevent : table event.aggregateId = none := by rw [hid event (by simp), hnone]
    rw [List.foldlM_cons, updateReadModelFromEvent_of_none hevent (h event (by simp))]
    exact ih (fun e he => hid e (by simp [he])) fun e he => h e (by simp [he])

lemma isSome_foldlM (h : events.foldlM updateReadModelFromEvent table = .ok table')
    (hrow : (table id).isSome ∨
      ∃ e ∈ events, e.aggregateId = id ∧ e.eventType = .paymentCreated) : (table' id).isSome := by
  induction events generalizing table with
  | nil =>
    obtain rfl := Except.ok.inj h
    obtain hrow | ⟨e, he, -⟩ := hrow
    · exact hrow
    · cases he
  | cons event events ih =>
    rw [List.foldlM_cons] at h
    cases hnext : updateReadModelFromEvent table event with
    | error fault =>
      rw [hnext] at h
      cases h
    | ok next =>
      rw [hnext] at h
      apply ih h
      obtain hrow | ⟨e, he, rfl, htype⟩ := hrow
      · exact .inl (isSome_updateReadModelFromEvent hnext hrow)
      · obtain rfl | he := List.mem_cons.mp he
        · exact .inl (isSome_of_created hnext htype)
        · exact .inr ⟨e, he, rfl, htype⟩

end Projection

/-- The rebuild agrees with the updater on no payment that was created: the updater gives such a
payment a row, or fails on it, and the rebuild passes it over. -/
theorem rebuild_agrees_iff (now : ℕ) (store : List PaymentEvent) (id : PaymentId) :
    rebuiltColumns now store id = projectedColumns store id ↔
      ∀ e ∈ store, e.aggregateId = id → e.eventType ≠ .paymentCreated := by
  have hrebuilt : rebuiltColumns now store id = .ok none := by
    rw [rebuiltColumns, rebuildAllReadModels_eq]
    rfl
  rw [hrebuilt, projectedColumns]
  constructor
  · intro h e he hid htype
    cases hproject : projectHistory store id with
    | error fault =>
      rw [hproject] at h
      cases h
    | ok table =>
      have hrow := isSome_foldlM hproject
        (.inr ⟨e, mem_getEventsByAggregate.mpr ⟨he, hid⟩, hid, htype⟩)
      rw [hproject] at h
      have hnone : (table id).map PaymentReadModel.columns = none := (Except.ok.inj h).symm
      rw [Option.map_eq_none_iff.mp hnone] at hrow
      cases hrow
  · intro h
    have hproject : projectHistory store id = .ok .empty := by
      refine foldlM_of_none (fun e he => (mem_getEventsByAggregate.mp he).2) (fun e he => ?_) rfl
      obtain ⟨hstore, hid⟩ := mem_getEventsByAggregate.mp he
      exact h e hstore hid
    rw [hproject]
    rfl

def created : PaymentEvent where
  aggregateId := 1
  sequence := 1
  eventType := .paymentCreated
  eventData :=
    { fromAddress := .value "GFROM"
      toAddress := .value "GTO"
      amount := .value 5 }
  timestamp := 100

/-- One payment that was created: the updater has a row for it, the rebuild has none. -/
theorem rebuild_loses_created :
    (∃ row, projectedColumns [created] 1 = .ok (some row)) ∧
      rebuiltColumns 200 [created] 1 = .ok none ∧
        rebuiltColumns 200 [created] 1 ≠ projectedColumns [created] 1 := by
  have hrebuilt : rebuiltColumns 200 [created] 1 = .ok none := by
    rw [rebuiltColumns, rebuildAllReadModels_eq]
    rfl
  have hprojected : ∃ row, projectedColumns [created] 1 = .ok (some row) := ⟨_, rfl⟩
  refine ⟨hprojected, hrebuilt, fun h => ?_⟩
  obtain ⟨row, hrow⟩ := hprojected
  rw [hrebuilt, hrow] at h
  cases h

end StellarTags.EventSourcing
