import Mathlib.Algebra.Order.BigOperators.Group.List
import Mathlib.Algebra.Order.Ring.Nat
import Mathlib.Logic.Function.Basic
import StellarTags.EventSourcing.Events
import StellarTags.Library.Runs

/-! The updater of the read models: which events its checkpoint passes over. -/

namespace StellarTags.EventSourcing.Polling

open Library.Runs

def BATCH_SIZE : ℕ := 50

/-- Where a caller of `processNewEvents` is; an idle one has what its last call reported, if it ended
well. -/
inductive Caller
  | idle (reported : Option ℕ)
  | fetching (lastSequence : ℕ)
  | handling (total : ℕ) (events : List PaymentEvent)
  | saving (total : ℕ) (event : PaymentEvent) (events : List PaymentEvent)
  deriving DecidableEq, Repr

/-- The store, the updater's checkpoint in it, and the events that were applied to the read models. -/
structure Updater where
  store : List PaymentEvent := []
  checkpoint : Option ℕ := none
  applied : List PaymentEvent := []
  callers : ℕ → Caller := fun _ => .idle none

/-- Events are appended while calls are under way. A call is resumed up to its next await, or what it
waits for throws: its handler of an event, or the database. -/
inductive Move
  | append (draft : Draft) (timestamp : ℕ)
  | resume (caller : ℕ) (rank : PaymentEvent → ℕ)
  | throw (caller : ℕ)

namespace Updater

def lastSequence (u : Updater) : ℕ := u.checkpoint.getD 0

def setCaller (u : Updater) (i : ℕ) (caller : Caller) : Updater :=
  { u with callers := Function.update u.callers i caller }

def fetch (u : Updater) (rank : PaymentEvent → ℕ) (lastSequence : ℕ) : List PaymentEvent :=
  getEventsSince rank u.store lastSequence BATCH_SIZE

end Updater

/-- Read the checkpoint, fetch, apply an event, save the checkpoint, and end after the last event. -/
def step : Move → Updater → Updater
  | .append draft timestamp, u => { u with store := appendEvent u.store draft timestamp }
  | .resume i rank, u =>
    match u.callers i with
    | .idle _ => u.setCaller i (.fetching u.lastSequence)
    | .fetching lastSequence =>
      let events := u.fetch rank lastSequence
      u.setCaller i (.handling events.length events)
    | .handling total [] => u.setCaller i (.idle (some total))
    | .handling total (event :: events) =>
      { u.setCaller i (.saving total event events) with applied := u.applied ++ [event] }
    | .saving total event events =>
      { u.setCaller i (.handling total events) with checkpoint := some event.sequence }
  | .throw i, u => u.setCaller i (.idle none)

def processNewEvents (i : ℕ) (rank : PaymentEvent → ℕ) (u : Updater) : List Move :=
  List.replicate (3 + 2 * (u.fetch rank u.lastSequence).length) (.resume i rank)

def polls (i : ℕ) (ranks : ℕ → PaymentEvent → ℕ) : ℕ → Updater → List Move
  | 0, _ => []
  | k + 1, u =>
    polls i ranks k u ++ processNewEvents i (ranks k) (run step u (polls i ranks k u))

def polled (i : ℕ) (ranks : ℕ → PaymentEvent → ℕ) (k : ℕ) (u : Updater) : Updater :=
  run step u (polls i ranks k u)

def Updater.Quiet (u : Updater) : Prop := ∀ i, ∃ reported, u.callers i = .idle reported

section Order

def Caller.waiting : Caller → List PaymentEvent
  | .handling _ events => events
  | .saving _ _ events => events
  | _ => []

def Caller.target : Caller → Option ℕ
  | .handling _ events => events.getLast?.map (·.sequence)
  | .saving _ event events => some ((event :: events).getLast (List.cons_ne_nil _ _)).sequence
  | _ => none

/-- The calls under way, or the checkpoint if none will set it, leave the sequence ahead. -/
def Updater.Ahead (u : Updater) (sequence : ℕ) : Prop :=
  (∀ i, ∀ n ∈ (u.callers i).target, n < sequence) ∧
    ((∀ i, (u.callers i).target = none) → u.lastSequence < sequence)

/-- An event that is neither applied nor in the batch of a call under way. -/
def Updater.Missed (u : Updater) (e : PaymentEvent) : Prop :=
  e ∈ u.store ∧ e ∉ u.applied ∧ ∀ i, e ∉ (u.callers i).waiting

/-- An event gets a sequence that is ahead; a batch is followed by greater sequences only; a call that
ends early leaves the events of its batch ahead. -/
def InOrder (u : Updater) : Move → Prop
  | .append draft _ => u.Ahead (nextSequence u.store draft.paymentId)
  | .resume i rank => ∀ lastSequence, u.callers i = .fetching lastSequence →
    ∀ last ∈ (u.fetch rank lastSequence).getLast?, ∀ e, u.Missed e →
      e ∉ u.fetch rank lastSequence → last.sequence < e.sequence
  | .throw i => ∀ e, (u.setCaller i (.idle none)).Missed e →
    (u.setCaller i (.idle none)).Ahead e.sequence

end Order

section Invariant

variable {u : Updater} {i : ℕ} {e event : PaymentEvent} {events : List PaymentEvent}

@[simp] lemma Updater.setCaller_self (caller : Caller) :
    (u.setCaller i caller).callers i = caller := Function.update_self ..

@[simp] lemma Updater.setCaller_of_ne {j : ℕ} (hji : j ≠ i) (caller : Caller) :
    (u.setCaller i caller).callers j = u.callers j := Function.update_of_ne hji ..

@[simp] lemma Updater.lastSequence_setCaller (caller : Caller) :
    (u.setCaller i caller).lastSequence = u.lastSequence := rfl

def Move.caller : Move → Option ℕ
  | .append _ _ => none
  | .resume i _ => some i
  | .throw i => some i

lemma step_callers_of_ne {move : Move} {j : ℕ} (h : move.caller ≠ some j) :
    (step move u).callers j = u.callers j := by
  cases move with
  | append draft timestamp => rfl
  | resume i rank =>
    have hji : j ≠ i := fun hij => h (congrArg some hij.symm)
    rw [step]
    split
    all_goals exact Updater.setCaller_of_ne hji _
  | throw i => exact Updater.setCaller_of_ne (fun hij => h (congrArg some hij.symm)) _

lemma run_callers_of_ne {moves : List Move} {j : ℕ} (h : ∀ move ∈ moves, move.caller ≠ some j) :
    (run step u moves).callers j = u.callers j := by
  induction moves generalizing u with
  | nil => rfl
  | cons move moves ih =>
    rw [run_cons, ih fun m hm => h m (List.mem_cons_of_mem _ hm)]
    exact step_callers_of_ne (h move List.mem_cons_self)

/-- No event is passed over. -/
structure Sound (u : Updater) : Prop where
  sequenced : Sequenced u.store
  ahead : ∀ e, u.Missed e → u.Ahead e.sequence

lemma Updater.missed_setCaller {caller : Caller} (h : (u.setCaller i caller).Missed e)
    (hwaiting : ∀ e ∈ (u.callers i).waiting, e ∈ caller.waiting) : u.Missed e := by
  obtain ⟨hstore, happlied, hcallers⟩ := h
  refine ⟨hstore, happlied, fun j hj => ?_⟩
  by_cases hji : j = i
  · subst hji
    exact hcallers j (by simpa using hwaiting e hj)
  · exact hcallers j (by simpa [hji] using hj)

lemma Updater.ahead_setCaller {caller : Caller} {n : ℕ} (h : u.Ahead n)
    (htarget : caller.target = (u.callers i).target) : (u.setCaller i caller).Ahead n := by
  have hsame (j : ℕ) : ((u.setCaller i caller).callers j).target = (u.callers j).target := by
    by_cases hji : j = i
    · subst hji
      simpa using htarget
    · simp [hji]
  simpa only [Updater.Ahead, hsame, Updater.lastSequence_setCaller] using h

lemma getLast?_map_cons (event : PaymentEvent) (events : List PaymentEvent) :
    (event :: events).getLast?.map (·.sequence) =
      some ((event :: events).getLast (List.cons_ne_nil _ _)).sequence := by
  rw [List.getLast?_eq_some_getLast (List.cons_ne_nil _ _), Option.map_some]

lemma Sound.append (h : Sound u) {draft : Draft} {timestamp : ℕ}
    (hmove : InOrder u (.append draft timestamp)) : Sound (step (.append draft timestamp) u) where
  sequenced := h.sequenced.append draft timestamp
  ahead := by
    rintro e ⟨hstore, happlied, hcallers⟩
    change e ∈ appendEvent u.store draft timestamp at hstore
    rw [h.sequenced.appendEvent] at hstore
    obtain hstore | hnew := List.mem_append.mp hstore
    · exact h.ahead e ⟨hstore, happlied, hcallers⟩
    · obtain rfl := List.mem_singleton.mp hnew
      change u.Ahead ((stream u.store draft.paymentId).length + 1)
      rw [← h.sequenced.nextSequence]
      exact hmove

/-- A batch takes in what the call fetched; the rest of what was missed is ahead of its last event. -/
lemma Sound.fetch (h : Sound u) {rank : PaymentEvent → ℕ} {lastSequence : ℕ}
    (hcaller : u.callers i = .fetching lastSequence) (hmove : InOrder u (.resume i rank)) :
    Sound (u.setCaller i (.handling (u.fetch rank lastSequence).length (u.fetch rank lastSequence)))
    where
  sequenced := h.sequenced
  ahead := by
    intro e hmissed
    have hbefore : u.Missed e := by
      apply Updater.missed_setCaller hmissed
      rw [hcaller]
      exact fun _ he => by cases he
    have hfetched : e ∉ u.fetch rank lastSequence := by
      have hbatch := hmissed.2.2 i
      rwa [Updater.setCaller_self] at hbatch
    have hahead := h.ahead e hbefore
    constructor
    · intro j n hn
      by_cases hji : j = i
      · subst hji
        rw [Updater.setCaller_self] at hn
        obtain ⟨last, hlast, rfl⟩ := Option.map_eq_some_iff.mp hn
        exact hmove lastSequence hcaller last hlast e hbefore hfetched
      · rw [Updater.setCaller_of_ne hji] at hn
        exact hahead.1 j n hn
    · intro hnone
      apply hahead.2
      intro j
      by_cases hji : j = i
      · subst hji
        rw [hcaller]
        rfl
      · have hj := hnone j
        rwa [Updater.setCaller_of_ne hji] at hj

lemma Sound.handle (h : Sound u) {total : ℕ} (hcaller : u.callers i = .handling total (event :: events)) :
    Sound { u.setCaller i (.saving total event events) with applied := u.applied ++ [event] } where
  sequenced := h.sequenced
  ahead := by
    rintro e ⟨hstore, happlied, hcallers⟩
    obtain ⟨hold, hnew⟩ := not_or.mp fun hor => happlied (List.mem_append.mpr hor)
    have hmissed : u.Missed e := by
      refine ⟨hstore, hold, fun j hj => ?_⟩
      by_cases hji : j = i
      · subst hji
        rw [hcaller] at hj
        obtain rfl | hj := List.mem_cons.mp hj
        · exact hnew (by simp)
        · exact hcallers j (by simpa [Caller.waiting] using hj)
      · exact hcallers j (by simpa [hji] using hj)
    apply (Updater.ahead_setCaller (h.ahead e hmissed) _ : (u.setCaller i _).Ahead _)
    rw [hcaller]
    exact (getLast?_map_cons event events).symm

lemma Sound.save (h : Sound u) {total : ℕ} (hcaller : u.callers i = .saving total event events) :
    Sound { u.setCaller i (.handling total events) with checkpoint := some event.sequence } where
  sequenced := h.sequenced
  ahead := by
    intro e hmissed
    have hbefore : u.Missed e := by
      have hset : (u.setCaller i (.handling total events)).Missed e := hmissed
      apply Updater.missed_setCaller hset
      rw [hcaller]
      exact fun _ he => he
    have hahead := h.ahead e hbefore
    have htarget : (u.callers i).target =
        some ((event :: events).getLast (List.cons_ne_nil _ _)).sequence := by
      rw [hcaller]
      rfl
    constructor
    · intro j n hn
      by_cases hji : j = i
      · subst hji
        change n ∈ ((u.setCaller j _).callers j).target at hn
        rw [Updater.setCaller_self] at hn
        cases events with
        | nil => cases hn
        | cons next events =>
          apply hahead.1 j n
          rw [htarget, List.getLast_cons (List.cons_ne_nil _ _), ← getLast?_map_cons]
          exact hn
      · change n ∈ ((u.setCaller i _).callers j).target at hn
        rw [Updater.setCaller_of_ne hji] at hn
        exact hahead.1 j n hn
    · intro hnone
      have hlast := hnone i
      change ((u.setCaller i _).callers i).target = none at hlast
      rw [Updater.setCaller_self] at hlast
      cases events with
      | nil => exact hahead.1 i _ htarget
      | cons next events =>
        rw [Caller.target, getLast?_map_cons] at hlast
        cases hlast

lemma Sound.resume (h : Sound u) {rank : PaymentEvent → ℕ} (hmove : InOrder u (.resume i rank)) :
    Sound (step (.resume i rank) u) := by
  have hsame {caller : Caller} (hwaiting : caller.waiting = (u.callers i).waiting)
      (htarget : caller.target = (u.callers i).target) : Sound (u.setCaller i caller) :=
    ⟨h.sequenced, fun e hmissed => Updater.ahead_setCaller
      (h.ahead e (Updater.missed_setCaller hmissed fun _ he => hwaiting ▸ he)) htarget⟩
  rw [step]
  cases hcaller : u.callers i with
  | idle reported => exact hsame (by rw [hcaller]; rfl) (by rw [hcaller]; rfl)
  | fetching lastSequence => exact h.fetch hcaller hmove
  | handling total events =>
    cases events with
    | nil => exact hsame (by rw [hcaller]; rfl) (by rw [hcaller]; rfl)
    | cons event events => exact h.handle hcaller
  | saving total event events => exact h.save hcaller

lemma Sound.step (h : Sound u) {move : Move} (hmove : InOrder u move) : Sound (step move u) := by
  cases move with
  | append draft timestamp => exact h.append hmove
  | resume i rank => exact h.resume hmove
  | throw i => exact ⟨h.sequenced, hmove⟩

end Invariant

section Calls

variable {u : Updater} {i j k : ℕ} {rank : PaymentEvent → ℕ} {ranks : ℕ → PaymentEvent → ℕ}
  {reported : Option ℕ} {e : PaymentEvent}

def Updater.processed (u : Updater) (i total : ℕ) (events : List PaymentEvent) : Updater where
  store := u.store
  checkpoint := (events.getLast?.map (·.sequence)).or u.checkpoint
  applied := u.applied ++ events
  callers := Function.update u.callers i (.idle (some total))

lemma run_handling {total : ℕ} {events : List PaymentEvent}
    (h : u.callers i = .handling total events) :
    run step u (List.replicate (1 + 2 * events.length) (.resume i rank)) =
      u.processed i total events := by
  induction events generalizing u with
  | nil =>
    rw [List.length_nil, List.replicate_succ, List.replicate_zero, run_cons, run_nil, step, h]
    simp [Updater.processed, Updater.setCaller]
  | cons event events ih =>
    have hlength : 1 + 2 * (event :: events).length = (1 + 2 * events.length) + 1 + 1 := by
      rw [List.length_cons]
      omega
    have hhandle : step (.resume i rank) u =
        { u.setCaller i (.saving total event events) with applied := u.applied ++ [event] } := by
      rw [step, h]
    have hsave : step (.resume i rank) { u.setCaller i (.saving total event events) with
        applied := u.applied ++ [event] } = { u.setCaller i (.handling total events) with
          applied := u.applied ++ [event], checkpoint := some event.sequence } := by
      simp [step, Updater.setCaller]
    have hrest : run step { u.setCaller i (.handling total events) with
        applied := u.applied ++ [event], checkpoint := some event.sequence }
          (List.replicate (1 + 2 * events.length) (.resume i rank)) =
            { u.setCaller i (.handling total events) with
              applied := u.applied ++ [event],
              checkpoint := some event.sequence : Updater }.processed i total events :=
      ih (Updater.setCaller_self _)
    rw [hlength, List.replicate_succ, List.replicate_succ, run_cons, run_cons, hhandle, hsave, hrest]
    have hlast : (events.getLast?.map (·.sequence)).or (some event.sequence) =
        ((event :: events).getLast?.map (·.sequence)).or u.checkpoint := by
      rw [List.getLast?_cons]
      cases events.getLast? <;> rfl
    simp only [Updater.processed, hlast]
    simp [Updater.setCaller]

lemma run_processNewEvents (h : u.callers i = .idle reported) :
    run step u (processNewEvents i rank u) =
      u.processed i (u.fetch rank u.lastSequence).length (u.fetch rank u.lastSequence) := by
  have hlength (n : ℕ) : 3 + 2 * n = (1 + 2 * n) + 1 + 1 := by omega
  have hread : step (.resume i rank) u = u.setCaller i (.fetching u.lastSequence) := by
    rw [step, h]
  have hfetch : step (.resume i rank) (u.setCaller i (.fetching u.lastSequence)) =
      u.setCaller i (.handling (u.fetch rank u.lastSequence).length
        (u.fetch rank u.lastSequence)) := by
    simp [step, Updater.setCaller, Updater.fetch]
  rw [processNewEvents, hlength, List.replicate_succ, List.replicate_succ, run_cons, run_cons, hread,
    hfetch, run_handling (Updater.setCaller_self _)]
  simp [Updater.processed, Updater.setCaller]

lemma mem_fetch_lt {n : ℕ} (he : e ∈ u.fetch rank n) : e ∈ u.store ∧ n < e.sequence := by
  have hmem := List.mem_of_mem_take he
  rw [List.mem_insertionSort, List.mem_filter] at hmem
  simpa using hmem

lemma fetch_eq_nil {n : ℕ} : u.fetch rank n = [] ↔ ∀ e ∈ u.store, e.sequence ≤ n := by
  rw [Updater.fetch, getEventsSince, List.take_eq_nil_iff, ← List.length_eq_zero_iff,
    List.length_insertionSort, List.length_eq_zero_iff, List.filter_eq_nil_iff]
  simp [BATCH_SIZE]

lemma polled_succ (k : ℕ) :
    polled i ranks (k + 1) u =
      run step (polled i ranks k u) (processNewEvents i (ranks k) (polled i ranks k u)) := by
  rw [polled, polls, run, List.foldl_append]
  rfl

variable (ranks) in
lemma polled_idle (hidle : u.callers i = .idle reported) (k : ℕ) :
    (polled i ranks k u).store = u.store ∧
      (∃ r, (polled i ranks k u).callers i = .idle r) ∧
        ∀ j ≠ i, (polled i ranks k u).callers j = u.callers j := by
  induction k with
  | zero => exact ⟨rfl, ⟨reported, hidle⟩, fun _ _ => rfl⟩
  | succ k ih =>
    obtain ⟨hstore, ⟨r, hr⟩, hothers⟩ := ih
    rw [polled_succ, run_processNewEvents hr]
    refine ⟨hstore, ⟨_, Function.update_self ..⟩, fun j hj => ?_⟩
    rw [← hothers j hj]
    exact Function.update_of_ne hj ..

lemma Updater.Quiet.polled (h : u.Quiet) (k : ℕ) : (polled i ranks k u).Quiet := by
  intro j
  obtain ⟨reported, hidle⟩ := h i
  obtain ⟨-, hi, hothers⟩ := polled_idle ranks hidle k
  by_cases hj : j = i
  · exact hj ▸ hi
  · rw [hothers j hj]
    exact h j

lemma reported_iff {n : ℕ} (hidle : u.callers i = .idle reported) :
    (polled i ranks (k + 1) u).callers i = .idle (some n) ↔
      ((polled i ranks k u).fetch (ranks k) (polled i ranks k u).lastSequence).length = n := by
  obtain ⟨-, ⟨r, hr⟩, -⟩ := polled_idle ranks hidle k
  rw [polled_succ, run_processNewEvents hr]
  simp [Updater.processed]

/-- A call that has nothing to report leaves the checkpoint past every event. -/
lemma sequence_le_of_reported_zero (hidle : u.callers i = .idle reported)
    (hzero : (polled i ranks (k + 1) u).callers i = .idle (some 0)) (he : e ∈ u.store) :
    e.sequence ≤ (polled i ranks (k + 1) u).lastSequence := by
  obtain ⟨hstore, ⟨r, hr⟩, -⟩ := polled_idle ranks hidle k
  rw [reported_iff hidle, List.length_eq_zero_iff] at hzero
  rw [polled_succ, run_processNewEvents hr, hzero]
  exact fetch_eq_nil.mp hzero e (hstore ▸ he)

lemma le_lastSequence_polled (hidle : u.callers i = .idle reported)
    (h : ∀ j < k, (polled i ranks (j + 1) u).callers i ≠ .idle (some 0)) :
    k ≤ (polled i ranks k u).lastSequence := by
  induction k with
  | zero => exact Nat.zero_le _
  | succ k ih =>
    have hbefore := ih fun j hj => h j (Nat.lt_succ_of_lt hj)
    obtain ⟨-, ⟨r, hr⟩, -⟩ := polled_idle ranks hidle k
    have hsome := h k (Nat.lt_succ_self k)
    rw [Ne, reported_iff hidle, List.length_eq_zero_iff] at hsome
    rw [polled_succ, run_processNewEvents hr]
    generalize polled i ranks k u = v at hbefore hsome
    have hlast := List.getLast?_eq_some_getLast hsome
    have hgreater := (mem_fetch_lt (List.mem_of_getLast? hlast)).2
    simp only [Updater.processed, Updater.lastSequence] at hgreater ⊢
    rw [← Updater.lastSequence, hlast]
    exact hbefore.trans_lt hgreater

/-- Calls repeated without end come to one that has nothing to report. -/
lemma exists_reported_zero (hidle : u.callers i = .idle reported) (ranks : ℕ → PaymentEvent → ℕ) :
    ∃ k, (polled i ranks (k + 1) u).callers i = .idle (some 0) := by
  by_contra hnever
  obtain ⟨bound, hbound⟩ : ∃ bound, ∀ e ∈ u.store, e.sequence ≤ bound :=
    ⟨(u.store.map (·.sequence)).sum, fun e he => List.le_sum_of_mem (List.mem_map_of_mem he)⟩
  have hlast : bound ≤ (polled i ranks bound u).lastSequence :=
    le_lastSequence_polled hidle fun j _ => not_exists.mp hnever j
  apply hnever
  refine ⟨bound, (reported_iff hidle).mpr ?_⟩
  rw [List.length_eq_zero_iff, fetch_eq_nil, (polled_idle ranks hidle bound).1]
  exact fun e he => (hbound e he).trans hlast

lemma Sound.lt_of_quiet (h : Sound u) (hquiet : u.Quiet) (he : e ∈ u.store) (hnew : e ∉ u.applied) :
    u.lastSequence < e.sequence := by
  have hmissed : u.Missed e := by
    refine ⟨he, hnew, fun j => ?_⟩
    obtain ⟨_, hj⟩ := hquiet j
    rw [hj]
    exact List.not_mem_nil
  apply (h.ahead e hmissed).2
  intro j
  obtain ⟨_, hj⟩ := hquiet j
  rw [hj]
  rfl

end Calls

section Payments

def creation (id : PaymentId) : Draft := ⟨id, .paymentCreated, {}⟩

def twoPayments : List Move := [.append (creation 1) 100, .append (creation 2) 200]

/-- A payment with two events is read up to its second; then the first event of another payment has
a sequence that the checkpoint is past. -/
def skipping : List Move :=
  [.append (creation 1) 100, .append ⟨1, .paymentCompleted, {}⟩ 200] ++
    List.replicate 7 (.resume 0 fun _ => 0) ++ [.append (creation 2) 300]

end Payments

end StellarTags.EventSourcing.Polling
