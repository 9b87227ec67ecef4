import StellarTags.Reconciliation.Interleavings

/-! The settlement events of the payments that passes settle. -/

namespace StellarTags.Reconciliation

open Library Library.Runs

section Records

def World.Done (w : World) (id : String) : Prop :=
  ∃ row ∈ w.payments, row.id = id ∧ row.status ∉ PENDING_STATUSES

def World.eventsOf (w : World) (id : String) : List SettlementEvent :=
  w.events.filter (·.paymentId = id)

/-- There is an event for the payment, or a pass is about to append one. -/
def World.Noted (w : World) (id : String) : Prop :=
  w.eventsOf id ≠ [] ∨ ∃ i task, (w.passes i).Appending task ∧ task.payment.id = id

/-- No pass has started, and events are of payments that are no longer pending. -/
structure Fresh (w : World) : Prop where
  keyed : Tables.Keyed (·.id) w.payments
  idle : ∀ i, w.passes i = .idle
  done : ∀ event ∈ w.events, w.Done event.paymentId

/-- Events get appended, no pass dies between its update and its append, and no other writer makes a
payment pending again that a pass has settled. -/
def Undisturbed (w : World) : Move → Prop
  | .append _ succeeds => succeeds = true
  | .crash i => ∀ task, ¬ (w.passes i).Appending task
  | .write id change => w.Noted id → ∀ row ∈ w.payments, row.id = id →
      row.status ∉ PENDING_STATUSES → (change row).status ∉ PENDING_STATUSES
  | _ => True

/-- Every payment that was settled has its one event, or the pass that settled it is about to append
the event. -/
structure Recorded (log : List Task) (w : World) : Prop where
  keyed : Tables.Keyed (·.id) w.payments
  decided : ∀ i task batch, w.passes i = .updating task batch → task.status ∈ SETTLED_STATUSES
  done : ∀ id, w.Noted id → w.Done id
  unrecorded : ∀ i task, (w.passes i).Appending task → w.eventsOf task.payment.id = []
  alone : ∀ i j task task', (w.passes i).Appending task → (w.passes j).Appending task' →
    task.payment.id = task'.payment.id → i = j
  logged : ∀ task ∈ log, w.eventsOf task.payment.id = [task.event] ∨
    ∃ i, (w.passes i).Appending task

end Records

variable {settings : Settings} {w w' : World} {i j : ℕ} {phase : Phase} {task task' : Task}
  {batch : Batch} {log tasks : List Task} {move : Move} {id k : String}

section Rows

lemma Task.exists_pending (h : (task.update w.payments).1 ≠ 0) :
    ∃ row ∈ w.payments, row.id = task.payment.id ∧ row.status ∈ PENDING_STATUSES := by
  obtain ⟨row, hrow, hcondition⟩ := List.countP_pos_iff.mp (Nat.pos_of_ne_zero h)
  exact ⟨row, hrow, of_decide_eq_true hcondition⟩

lemma Recorded.not_done (h : Recorded log w) (hcount : (task.update w.payments).1 ≠ 0) :
    ¬ w.Done task.payment.id := by
  rintro ⟨row, hrow, hid, hdone⟩
  obtain ⟨pending, hpending, hid', hstatus⟩ := Task.exists_pending hcount
  obtain rfl : row = pending := List.inj_on_of_nodup_map h.keyed hrow hpending (hid.trans hid'.symm)
  exact hdone hstatus

lemma done_update (h : w.Done k) :
    World.Done { w with payments := (task.update w.payments).2 } k := by
  obtain ⟨row, hrow, hid, hdone⟩ := h
  refine ⟨row, List.mem_map.mpr ⟨row, hrow, ?_⟩, hid, hdone⟩
  simp [hdone]

lemma done_updated (hcount : (task.update w.payments).1 ≠ 0)
    (hstatus : task.status ∈ SETTLED_STATUSES) :
    World.Done { w with payments := (task.update w.payments).2 } task.payment.id := by
  obtain ⟨row, hrow, hid, hpending⟩ := Task.exists_pending hcount
  refine ⟨_, List.mem_map_of_mem hrow, ?_, ?_⟩
  · simp [hid, hpending]
  · simpa [hid, hpending] using settled_not_pending hstatus

lemma done_write {change : Payment → Payment} (h : w.Done k)
    (hchange : k = id → ∀ row ∈ w.payments, row.id = id → row.status ∉ PENDING_STATUSES →
      (change row).status ∉ PENDING_STATUSES) :
    World.Done { w with payments := (Tables.updateMany (fun row => decide (row.id = id))
      (fun row => { change row with id := row.id }) w.payments).2 } k := by
  obtain ⟨row, hrow, hid, hdone⟩ := h
  refine ⟨_, List.mem_map_of_mem hrow, ?_, ?_⟩
  · by_cases heq : row.id = id <;> simp [heq, ← hid]
  · by_cases heq : row.id = id
    · simpa [heq] using hchange (hid.symm.trans heq) row hrow heq hdone
    · simpa [heq] using hdone

lemma done_create (payment : Payment) (h : w.Done k) :
    World.Done { w with payments := Tables.insert (·.id) payment w.payments } k := by
  obtain ⟨row, hrow, hid, hdone⟩ := h
  refine ⟨row, ?_, hid, hdone⟩
  rw [Tables.insert]
  split_ifs
  · exact hrow
  · exact List.mem_append_left _ hrow

end Rows

lemma appending_setPass : ((w.setPass i phase).passes j).Appending task ↔
    if j = i then phase.Appending task else (w.passes j).Appending task := by
  by_cases h : j = i
  · subst h
    simp
  · rw [World.setPass_of_ne h, if_neg h]

lemma noted_congr (hevents : w'.events = w.events)
    (happending : ∀ i task, (w'.passes i).Appending task ↔ (w.passes i).Appending task) :
    w'.Noted k ↔ w.Noted k := by
  simp only [World.Noted, World.eventsOf, hevents, happending]

lemma Recorded.congr (h : Recorded log w) (hkeyed : Tables.Keyed (·.id) w'.payments)
    (hdecided : ∀ i task batch, w'.passes i = .updating task batch → task.status ∈ SETTLED_STATUSES)
    (hdone : ∀ id, w.Noted id → w.Done id → w'.Done id) (hevents : w'.events = w.events)
    (happending : ∀ i task, (w'.passes i).Appending task ↔ (w.passes i).Appending task) :
    Recorded log w' where
  keyed := hkeyed
  decided := hdecided
  done id hnoted :=
    have hnoted := (noted_congr hevents happending).mp hnoted
    hdone id hnoted (h.done id hnoted)
  unrecorded i task hi := by
    rw [World.eventsOf, hevents]
    exact h.unrecorded i task ((happending i task).mp hi)
  alone i j task task' hi hj := h.alone i j task task' ((happending i task).mp hi)
    ((happending j task').mp hj)
  logged task htask := by
    simp only [World.eventsOf, hevents, happending]
    exact h.logged task htask

lemma Recorded.setPass (h : Recorded log w) (hphase : ∀ task, ¬ phase.Appending task)
    (hleft : ∀ task, ¬ (w.passes i).Appending task)
    (hdecided : ∀ task batch, phase = .updating task batch → task.status ∈ SETTLED_STATUSES) :
    Recorded log (w.setPass i phase) := by
  refine h.congr h.keyed (fun j task batch hj => ?_) (fun id _ hdone => hdone) rfl fun j task => ?_
  · by_cases hji : j = i
    · subst hji
      rw [World.setPass_self] at hj
      exact hdecided task batch hj
    · rw [World.setPass_of_ne hji] at hj
      exact h.decided j task batch hj
  · rw [appending_setPass]
    split_ifs with hji
    · subst hji
      exact iff_of_false (hphase task) (hleft task)
    · rfl

lemma not_appending_of_updating (h : w.passes i = .updating task batch) (task' : Task) :
    ¬ (w.passes i).Appending task' := by
  rintro ⟨batch', h'⟩
  rw [h] at h'
  cases h'

lemma appending_inj (h : w.passes i = .appending task batch) (h' : (w.passes i).Appending task') :
    task' = task := by
  obtain ⟨batch', h'⟩ := h'
  rw [h] at h'
  cases h'
  rfl

lemma Recorded.settle (h : Recorded log w) (hupdating : w.passes i = .updating task batch)
    (hcount : (task.update w.payments).1 ≠ 0) :
    Recorded (log ++ [task])
      ({ w with payments := (task.update w.payments).2 }.setPass i (.appending task batch)) := by
  -- a payment that is still pending has neither an event nor an append
  have hunnoted : ¬ w.Noted task.payment.id := fun hnoted => h.not_done hcount (h.done _ hnoted)
  have hnone : w.eventsOf task.payment.id = [] := by_contra fun hne => hunnoted (.inl hne)
  have hother (j : ℕ) (task' : Task) (hj : (w.passes j).Appending task') :
      task'.payment.id ≠ task.payment.id := fun hid => hunnoted (.inr ⟨j, task', hj, hid⟩)
  have happending (j : ℕ) (task' : Task) :
      (({ w with payments := (task.update w.payments).2 }.setPass i
        (.appending task batch)).passes j).Appending task' ↔
      (j = i ∧ task' = task) ∨ (w.passes j).Appending task' := by
    rw [appending_setPass]
    split_ifs with hji
    · subst hji
      simp only [not_appending_of_updating hupdating, or_false, true_and]
      constructor
      · rintro ⟨batch', heq⟩
        cases heq
        rfl
      · rintro rfl
        exact ⟨batch, rfl⟩
    · simp [hji]
  refine ⟨h.keyed.updateMany fun _ _ => rfl, fun j task' batch' hj => ?_, fun id hid => ?_,
    fun j task' hj => ?_, fun j j' task₁ task₂ hj hj' hid => ?_, fun task' htask' => ?_⟩
  · by_cases hji : j = i
    · subst hji
      rw [World.setPass_self] at hj
      cases hj
    · rw [World.setPass_of_ne hji] at hj
      exact h.decided j task' batch' hj
  · have hcases : id = task.payment.id ∨ w.Noted id := by
      rcases hid with hevents | ⟨j, task', hj, rfl⟩
      · exact .inr (.inl hevents)
      · rcases (happending j task').mp hj with ⟨-, rfl⟩ | hj
        · exact .inl rfl
        · exact .inr (.inr ⟨j, task', hj, rfl⟩)
    rcases hcases with rfl | hnoted
    · exact done_updated hcount (h.decided i task batch hupdating)
    · exact done_update (h.done id hnoted)
  · rcases (happending j task').mp hj with ⟨-, rfl⟩ | hj
    · exact hnone
    · exact h.unrecorded j task' hj
  · rcases (happending j task₁).mp hj with ⟨rfl, rfl⟩ | hold <;>
      rcases (happending j' task₂).mp hj' with ⟨rfl, rfl⟩ | hold'
    · rfl
    · exact absurd hid.symm (hother j' task₂ hold')
    · exact absurd hid (hother j task₁ hold)
    · exact h.alone j j' task₁ task₂ hold hold' hid
  · rcases List.mem_append.mp htask' with hlog | hnew
    · rcases h.logged task' hlog with hevents | ⟨j, hj⟩
      · exact .inl hevents
      · exact .inr ⟨j, (happending j task').mpr (.inr hj)⟩
    · obtain rfl := List.mem_singleton.mp hnew
      exact .inr ⟨i, (happending i task').mpr (.inl ⟨rfl, rfl⟩)⟩

lemma Recorded.record (h : Recorded log w) (happending : w.passes i = .appending task batch)
    (hphase : phase.Resting) :
    Recorded log ({ w with events := w.events ++ [task.event] }.setPass i phase) := by
  have hi : (w.passes i).Appending task := ⟨batch, happending⟩
  have hself : ({ w with events := w.events ++ [task.event] } : World).eventsOf task.payment.id =
      [task.event] := by
    rw [World.eventsOf, List.filter_append]
    exact congrArg (· ++ _) (h.unrecorded i task hi) |>.trans (by simp [Task.event, settlementEvent])
  have hother (id : String) (hid : id ≠ task.payment.id) :
      ({ w with events := w.events ++ [task.event] } : World).eventsOf id = w.eventsOf id := by
    rw [World.eventsOf, List.filter_append]
    simp [Task.event, settlementEvent, hid.symm, World.eventsOf]
  have hstill (j : ℕ) (task' : Task) :
      (({ w with events := w.events ++ [task.event] }.setPass i phase).passes j).Appending task' ↔
        j ≠ i ∧ (w.passes j).Appending task' := by
    rw [appending_setPass]
    split_ifs with hji
    · simp [hji, hphase.not_appending]
    · simp [hji]
  refine ⟨h.keyed, fun j task' batch' hj => ?_, fun id hid => ?_, fun j task' hj => ?_,
    fun j j' task₁ task₂ hj hj' => ?_, fun task' htask' => ?_⟩
  · by_cases hji : j = i
    · subst hji
      rw [World.setPass_self] at hj
      subst hj
      cases hphase
    · rw [World.setPass_of_ne hji] at hj
      exact h.decided j task' batch' hj
  · refine h.done id ?_
    rcases hid with hevents | ⟨j, task', hj, rfl⟩
    · by_cases hid : id = task.payment.id
      · exact .inr ⟨i, task, hi, hid.symm⟩
      · exact .inl fun hnil => hevents ((hother id hid).trans hnil)
    · exact .inr ⟨j, task', ((hstill j task').mp hj).2, rfl⟩
  · obtain ⟨hji, hj⟩ := (hstill j task').mp hj
    have hid : task'.payment.id ≠ task.payment.id := fun hid => hji (h.alone j i task' task hj hi hid)
    exact (hother _ hid).trans (h.unrecorded j task' hj)
  · exact h.alone j j' task₁ task₂ ((hstill j task₁).mp hj).2 ((hstill j' task₂).mp hj').2
  · rcases h.logged task' htask' with hevents | ⟨j, hj⟩
    · have hid : task'.payment.id ≠ task.payment.id := by
        intro hid
        rw [hid, h.unrecorded i task hi] at hevents
        cases hevents
      exact .inl ((hother _ hid).trans hevents)
    · by_cases hji : j = i
      · subst hji
        obtain rfl := appending_inj happending hj
        exact .inl hself
      · exact .inr ⟨j, (hstill j task').mpr ⟨hji, hj⟩⟩

lemma Recorded.effect (h : Recorded log w) (hundisturbed : Undisturbed w move)
    (he : Effect w move w' tasks) : Recorded (log ++ tasks) w' := by
  cases he with
  | nothing => rwa [List.append_nil]
  | rested i phase hresting hknown hleft =>
    rw [List.append_nil]
    have hleft : ∀ task, ¬ (w.passes i).Appending task := by
      rcases hleft with rfl | hleft
      · exact hundisturbed
      · exact hleft
    refine h.setPass (fun task => hresting.not_appending) hleft fun task batch heq => ?_
    subst heq
    cases hresting
  | decided i horizon payment status reason transactionHash count batch hlooking houtcome =>
    rw [List.append_nil]
    refine h.setPass ?_ ?_ ?_
    · rintro task ⟨batch', heq⟩
      cases heq
    · rintro task ⟨batch', heq⟩
      rw [hlooking] at heq
      cases heq
    · intro task batch' heq
      cases heq
      exact decision_settled houtcome
  | settled i task batch hupdating hcount => exact h.settle hupdating hcount
  | appended i task batch succeeds phase happending hresting hknown =>
    obtain rfl : succeeds = true := hundisturbed
    rw [List.append_nil]
    exact h.record happending hresting
  | written id change =>
    rw [List.append_nil]
    refine h.congr (h.keyed.updateMany fun _ _ => rfl) h.decided (fun k hnoted hdone => ?_) rfl
      fun _ _ => Iff.rfl
    exact done_write hdone fun hid => hundisturbed (hid ▸ hnoted)
  | created payment =>
    rw [List.append_nil]
    exact h.congr (h.keyed.insert payment) h.decided (fun _ _ => done_create payment) rfl
      fun _ _ => Iff.rfl
  | committed tx =>
    rw [List.append_nil]
    exact h.congr h.keyed h.decided (fun _ _ hdone => hdone) rfl fun _ _ => Iff.rfl

lemma Fresh.recorded (h : Fresh w) : Recorded [] w where
  keyed := h.keyed
  decided i task batch heq := by
    rw [h.idle i] at heq
    cases heq
  done id hnoted := by
    rcases hnoted with hevents | ⟨i, task, ⟨batch, heq⟩, -⟩
    · obtain ⟨event, hevent⟩ := List.exists_mem_of_ne_nil _ hevents
      obtain ⟨hevent, hid⟩ := List.mem_filter.mp hevent
      exact of_decide_eq_true hid ▸ h.done event hevent
    · rw [h.idle i] at heq
      cases heq
  unrecorded i task hi := by
    obtain ⟨batch, heq⟩ := hi
    rw [h.idle i] at heq
    cases heq
  alone i j task task' hi := by
    obtain ⟨batch, heq⟩ := hi
    rw [h.idle i] at heq
    cases heq
  logged task htask := absurd htask List.not_mem_nil

/-- Once all passes have ended, every payment that one of them settled has its one event. -/
theorem settled_recorded_once {moves : List Move} (hfresh : Fresh w)
    (hundisturbed : Along (step settings) Undisturbed w moves)
    (hended : ∀ i, (run (step settings) w moves).passes i = .idle) :
    ∀ task ∈ trace (step settings) settles w moves,
      (run (step settings) w moves).eventsOf task.payment.id = [task.event] ∧
        task.event.eventType =
          if task.status = SUCCESS then .PAYMENT_COMPLETED else .PAYMENT_FAILED := by
  intro task htask
  have hrecorded := trace_invariant_along (I := Recorded)
    (fun log w move h hp => Recorded.effect h hp (step_effect settings move))
    hfresh.recorded hundisturbed
  rcases hrecorded.logged task htask with hevents | ⟨i, batch, heq⟩
  · exact ⟨hevents, rfl⟩
  · rw [hended i] at heq
    cases heq

section Samples

def sampleWorld : World where
  payments := [samplePayment "pay_1" (some "HASH")]
  ledger := sampleLedger "GBUYER"

def sampleMoves (succeeds : Bool) : List Move :=
  [.start 0 sampleNow, .answer 0 (sampleLedger "GBUYER").horizon, .update 0 true, .append 0 succeeds,
    .start 0 sampleNow]

lemma sampleMoves_ended (succeeds : Bool) (i : ℕ) :
    (run (step {}) sampleWorld (sampleMoves succeeds)).passes i = .idle := by
  cases succeeds <;> cases i <;> rfl

theorem settled_recorded_once_sample :
    (run (step {}) sampleWorld (sampleMoves true)).eventsOf "pay_1" =
      [settlementEvent (samplePayment "pay_1" (some "HASH")) SUCCESS (some "HASH")
        "Transaction confirmed successful on the Stellar ledger"] := by
  have hfresh : Fresh sampleWorld :=
    ⟨List.nodup_singleton _, fun _ => rfl, fun _ h => absurd h List.not_mem_nil⟩
  have hmem : (⟨samplePayment "pay_1" (some "HASH"), SUCCESS, some "HASH",
      "Transaction confirmed successful on the Stellar ledger", none, Stats.confirm⟩ : Task) ∈
      trace (step {}) settles sampleWorld (sampleMoves true) := List.mem_singleton_self _
  have hundisturbed : Along (step {}) Undisturbed sampleWorld (sampleMoves true) :=
    ⟨trivial, trivial, trivial, rfl, trivial, trivial⟩
  exact (settled_recorded_once hfresh hundisturbed (sampleMoves_ended true) _ hmem).1

/-- The append fails: the payment is a success for good, and no event says so. -/
theorem settled_not_recorded :
    let final := run (step {}) sampleWorld (sampleMoves false)
    (∀ i, final.passes i = .idle) ∧
      (trace (step {}) settles sampleWorld (sampleMoves false)).map
        (fun task => (task.payment.id, task.status)) = [("pay_1", SUCCESS)] ∧
      final.payments.map (·.status) = [SUCCESS] ∧ final.eventsOf "pay_1" = [] :=
  ⟨sampleMoves_ended false, by decide, by decide, by decide⟩

end Samples

end StellarTags.Reconciliation
