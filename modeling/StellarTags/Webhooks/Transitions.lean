import Mathlib.Data.List.Count
import Mathlib.Logic.Function.Basic
import StellarTags.Library.Runs
import StellarTags.Webhooks.Breaker

/-! When the breaker of a domain opens and closes, where late deliveries may report to it. -/

namespace StellarTags.Webhooks.Transitions

open Library.Runs

section System

/-- An attempt of a job, with the attempts before it, or a request of the probe cycle. One that was
sent on the probe slot has the number of times that the breaker had opened. -/
structure Attempt where
  attemptsMade : Option ℕ
  probe : Option ℕ

inductive Task
  | idle
  | sent (attempt : Attempt)
  | done

structure Outcome where
  error : Option String
  probe : Option ℕ

/-- Outcomes are listed from the newest. -/
structure World where
  record : BreakerRecord := {}
  now : ℕ := 0
  openings : ℕ := 0
  tasks : ℕ → Task := fun _ => .idle
  outcomes : List Outcome := []

inductive Move
  | wait (elapsed : ℕ)
  | enqueueWebhookDelivery (i : ℕ)
  | runProbeCycle (i : ℕ)
  | report (i : ℕ) (error : Option String)

def MAX_WEBHOOK_ATTEMPTS : ℕ := 5

variable (config : BreakerConfig) (w : World)

def World.setTask (i : ℕ) (task : Task) : World := { w with tasks := Function.update w.tasks i task }

/-- The slot is asked for where the check says that there can be a probe. -/
def World.sendProbe (i : ℕ) (attemptsMade : Option ℕ) : World :=
  if (canQueueDelivery config w.record w.now).canProbe then
    match acquireProbeSlot config w.record w.now with
    | none => w
    | some record => { w with record }.setTask i (.sent ⟨attemptsMade, some w.openings⟩)
  else w

def World.enqueue (i : ℕ) : World :=
  if (canQueueDelivery config w.record w.now).allowed then w.setTask i (.sent ⟨some 0, none⟩)
  else w.sendProbe config i (some 0)

def World.handle (error : Option String) : BreakerRecord :=
  match error with
  | none => handleDeliverySuccess config w.record
  | some message => handleDeliveryFailure config (.error message) w.now w.record

/-- The times that it has opened, where it goes on to a state. -/
def World.openingsAfter (state : BreakerState) : ℕ :=
  if state = .OPEN ∧ w.record.state ≠ .OPEN then w.openings + 1 else w.openings

def Attempt.next (attempt : Attempt) (error : Option String) : Task :=
  match error, attempt.attemptsMade with
  | some _, some made => if made + 1 < MAX_WEBHOOK_ATTEMPTS then .sent ⟨some (made + 1), none⟩ else .done
  | _, _ => .done

def World.report (i : ℕ) (attempt : Attempt) (error : Option String) : World :=
  { w with
    record := w.handle config error
    openings := w.openingsAfter (w.handle config error).state
    outcomes := ⟨error, attempt.probe⟩ :: w.outcomes }.setTask i (attempt.next error)

def step (move : Move) (w : World) : World :=
  match move with
  | .wait elapsed => { w with now := w.now + elapsed }
  | .enqueueWebhookDelivery i =>
    match w.tasks i with
    | .idle => w.enqueue config i
    | _ => w
  | .runProbeCycle i =>
    match w.tasks i with
    | .idle => w.sendProbe config i none
    | _ => w
  | .report i error =>
    match w.tasks i with
    | .sent attempt => w.report config i attempt error
    | _ => w

def failures (outcomes : List Outcome) : ℕ :=
  (outcomes.takeWhile fun outcome => outcome.error.isSome).length

/-- How many outcomes since the last failure are those of probes of the opening. -/
def recovered (opening : ℕ) (outcomes : List Outcome) : ℕ :=
  (outcomes.takeWhile fun outcome => outcome.error.isNone).countP fun outcome =>
    outcome.probe = some opening

/-- The transitions that are documented: from one state to the next. -/
structure Exact (w next : World) : Prop where
  trips : w.record.state = .CLOSED →
    (next.record.state ≠ .CLOSED ↔ config.failureThreshold ≤ failures next.outcomes)
  recovers : w.record.state ≠ .CLOSED →
    (next.record.state = .CLOSED ↔ config.successThreshold ≤ recovered w.openings next.outcomes)
  counts : w.record.consecutiveSuccesses < next.record.consecutiveSuccesses →
    next.outcomes = ⟨none, some w.openings⟩ :: w.outcomes

/-- A success that is reported while the breaker is half open is that of a probe, sent since it last
opened. -/
def Probes (w : World) (move : Move) : Prop :=
  w.record.state = .HALF_OPEN → ∀ i attempt, move = .report i none → w.tasks i = .sent attempt →
    attempt.probe = some w.openings

end System

section Counts

variable {config : BreakerConfig} {w : World} {move : Move} {i : ℕ} {attempt : Attempt}
  {outcome : Outcome} {outcomes : List Outcome}

/-- What the record counts. -/
structure Counts (config : BreakerConfig) (w : World) : Prop where
  closed : w.record.state = .CLOSED → w.record.consecutiveFailures = failures w.outcomes ∧
    failures w.outcomes < config.failureThreshold
  halfOpen : w.record.state = .HALF_OPEN →
    w.record.consecutiveSuccesses = recovered w.openings w.outcomes ∧
      recovered w.openings w.outcomes < config.successThreshold
  opened : w.record.state = .OPEN → w.record.consecutiveSuccesses = 0 ∧
    (∀ outcome ∈ w.outcomes, outcome.probe ≠ some w.openings) ∧
      ∀ i attempt, w.tasks i = .sent attempt → attempt.probe ≠ some w.openings
  sent : ∀ i attempt, w.tasks i = .sent attempt → ∀ k, attempt.probe = some k → k ≤ w.openings
  reported : ∀ outcome ∈ w.outcomes, ∀ k, outcome.probe = some k → k ≤ w.openings

lemma failures_cons : failures (outcome :: outcomes) =
    if outcome.error.isSome then failures outcomes + 1 else 0 := by
  unfold failures
  rw [List.takeWhile_cons]
  split_ifs <;> rfl

lemma recovered_cons (opening : ℕ) : recovered opening (outcome :: outcomes) =
    if outcome.error.isSome then 0
    else recovered opening outcomes + if outcome.probe = some opening then 1 else 0 := by
  unfold recovered
  rw [List.takeWhile_cons]
  cases outcome.error with
  | none =>
    simp only [Option.isNone_none, if_true, List.countP_cons, Option.isSome_none, Bool.false_eq_true,
      if_false, decide_eq_true_eq]
  | some message => rfl

lemma recovered_eq_zero {opening : ℕ} (h : ∀ outcome ∈ outcomes, outcome.probe ≠ some opening) :
    recovered opening outcomes = 0 := by
  unfold recovered
  rw [List.countP_eq_zero]
  intro outcome houtcome
  simpa using h outcome ((List.takeWhile_sublist _).subset houtcome)

lemma Counts.quiet (h : Counts config w) :
    (w.record.state = .CLOSED → ¬ config.failureThreshold ≤ failures w.outcomes) ∧
      (w.record.state ≠ .CLOSED → ¬ config.successThreshold ≤ recovered w.openings w.outcomes) := by
  constructor
  · exact fun hclosed => Nat.not_le.mpr (h.closed hclosed).2
  · intro hclosed
    rw [Nat.not_le]
    cases hstate : w.record.state with
    | CLOSED => exact absurd hstate hclosed
    | HALF_OPEN => exact (h.halfOpen hstate).2
    | OPEN =>
      rw [recovered_eq_zero (h.opened hstate).2.1]
      exact config.successThreshold_pos

lemma Counts.unreported (h : Counts config w) {next : World}
    (hclosed : next.record.state = .CLOSED ↔ w.record.state = .CLOSED)
    (houtcomes : next.outcomes = w.outcomes)
    (hsuccesses : next.record.consecutiveSuccesses = w.record.consecutiveSuccesses) :
    Exact config w next where
  trips hstate := by
    rw [houtcomes, Ne, hclosed]
    exact iff_of_false (fun hne => hne hstate) (h.quiet.1 hstate)
  recovers hstate := by
    rw [houtcomes, hclosed]
    exact iff_of_false hstate (h.quiet.2 hstate)
  counts hlt := absurd hlt (hsuccesses ▸ Nat.lt_irrefl _)

lemma Counts.refl (h : Counts config w) : Exact config w w := h.unreported Iff.rfl rfl rfl

lemma Counts.setTask (h : Counts config w) (i : ℕ) {task : Task}
    (htask : ∀ attempt, task = .sent attempt → attempt.probe = none) :
    Counts config (w.setTask i task) where
  closed := h.closed
  halfOpen := h.halfOpen
  opened hstate := by
    obtain ⟨hzero, houtcomes, hsent⟩ := h.opened hstate
    refine ⟨hzero, houtcomes, fun j attempt hj => ?_⟩
    by_cases hne : j = i
    · subst hne
      simp only [World.setTask, Function.update_self] at hj
      simp [htask attempt hj]
    · simp only [World.setTask, Function.update_of_ne hne] at hj
      exact hsent j attempt hj
  sent j attempt hj k hk := by
    by_cases hne : j = i
    · subst hne
      simp only [World.setTask, Function.update_self] at hj
      rw [htask attempt hj] at hk
      cases hk
    · simp only [World.setTask, Function.update_of_ne hne] at hj
      exact h.sent j attempt hj k hk
  reported := h.reported

lemma Counts.sendProbe (h : Counts config w) (i : ℕ) (attemptsMade : Option ℕ) :
    Exact config w (w.sendProbe config i attemptsMade) ∧
      Counts config (w.sendProbe config i attemptsMade) := by
  unfold World.sendProbe
  split_ifs
  swap
  · exact ⟨h.refl, h⟩
  cases hslot : acquireProbeSlot config w.record w.now with
  | none => exact ⟨h.refl, h⟩
  | some record =>
    obtain ⟨hclosed, -, -, rfl⟩ := acquireProbeSlot_eq_some.mp hslot
    refine ⟨h.unreported (iff_of_false (fun heq => nomatch heq) hclosed) rfl rfl, ?_⟩
    constructor
    · exact fun heq => nomatch heq
    · intro _
      refine ⟨?_, Nat.not_le.mp (h.quiet.2 hclosed)⟩
      cases hstate : w.record.state with
      | CLOSED => exact absurd hstate hclosed
      | HALF_OPEN => exact (h.halfOpen hstate).1
      | OPEN =>
        obtain ⟨hzero, houtcomes, -⟩ := h.opened hstate
        exact hzero.trans (recovered_eq_zero houtcomes).symm
    · exact fun heq => nomatch heq
    · intro j attempt hj k hk
      by_cases hne : j = i
      · subst hne
        simp only [World.setTask, Function.update_self] at hj
        obtain rfl := Task.sent.inj hj
        exact Option.some.inj hk ▸ Nat.le_refl _
      · simp only [World.setTask, Function.update_of_ne hne] at hj
        exact h.sent j attempt hj k hk
    · exact h.reported

lemma next_probe {error : Option String} {later : Attempt} (h : attempt.next error = .sent later) :
    later.probe = none := by
  unfold Attempt.next at h
  cases error with
  | none => cases h
  | some message =>
    cases hmade : attempt.attemptsMade with
    | none => simp [hmade] at h
    | some made =>
      simp only [hmade] at h
      split_ifs at h
      exact Task.sent.inj h ▸ rfl

lemma openings_le (state : BreakerState) : w.openings ≤ w.openingsAfter state := by
  unfold World.openingsAfter
  split_ifs <;> omega

section Report

variable {error : Option String}

lemma report_record : (w.report config i attempt error).record = w.handle config error := rfl

lemma report_outcomes :
    (w.report config i attempt error).outcomes = ⟨error, attempt.probe⟩ :: w.outcomes := rfl

lemma report_openings : (w.report config i attempt error).openings =
    w.openingsAfter (w.handle config error).state := rfl

/-- What is known of the openings that the reported and the other probes are of. -/
lemma Counts.report_probes (h : Counts config w) (error : Option String) (hi : w.tasks i = .sent attempt) :
    (∀ outcome ∈ (w.report config i attempt error).outcomes, ∀ k, outcome.probe = some k →
        k ≤ w.openings) ∧
      (∀ j later, (w.report config i attempt error).tasks j = .sent later → ∀ k, later.probe = some k →
        ∃ j before, w.tasks j = .sent before ∧ before.probe = some k) := by
  constructor
  · intro outcome houtcome k hk
    obtain rfl | houtcome := List.mem_cons.mp houtcome
    · exact h.sent i attempt hi k hk
    · exact h.reported outcome houtcome k hk
  · intro j later hj k hk
    by_cases hne : j = i
    · subst hne
      simp only [World.report, World.setTask, Function.update_self] at hj
      rw [next_probe hj] at hk
      cases hk
    · simp only [World.report, World.setTask, Function.update_of_ne hne] at hj
      exact ⟨j, later, hj, hk⟩

lemma Counts.report (h : Counts config w) (hi : w.tasks i = .sent attempt)
    (hclosed : (w.handle config error).state = .CLOSED →
      (w.handle config error).consecutiveFailures = failures (⟨error, attempt.probe⟩ :: w.outcomes) ∧
        failures (⟨error, attempt.probe⟩ :: w.outcomes) < config.failureThreshold)
    (hhalf : (w.handle config error).state = .HALF_OPEN → w.openingsAfter .HALF_OPEN = w.openings ∧
      (w.handle config error).consecutiveSuccesses =
        recovered w.openings (⟨error, attempt.probe⟩ :: w.outcomes) ∧
        recovered w.openings (⟨error, attempt.probe⟩ :: w.outcomes) < config.successThreshold)
    (hopen : (w.handle config error).state = .OPEN → (w.handle config error).consecutiveSuccesses = 0) :
    Counts config (w.report config i attempt error) := by
  obtain ⟨hreported, hsent⟩ := h.report_probes error hi
  have hle := openings_le (w := w) (w.handle config error).state
  constructor
  · exact hclosed
  · intro hstate
    rw [report_record] at hstate
    obtain ⟨hsame, hcount⟩ := hhalf hstate
    rw [report_openings, hstate, hsame]
    exact hcount
  · intro hstate
    rw [report_record] at hstate
    refine ⟨hopen hstate, ?_⟩
    rw [report_openings, hstate]
    by_cases hbefore : w.record.state = .OPEN
    · obtain ⟨-, houtcomes, htasks⟩ := h.opened hbefore
      have hsame : w.openingsAfter .OPEN = w.openings := by simp [World.openingsAfter, hbefore]
      rw [hsame]
      constructor
      · intro outcome houtcome
        obtain rfl | houtcome := List.mem_cons.mp houtcome
        · exact htasks i attempt hi
        · exact houtcomes outcome houtcome
      · intro j later hj hk
        obtain ⟨k, before, hk', hbefore⟩ := hsent j later hj _ hk
        exact htasks k before hk' hbefore
    · have hnew : w.openingsAfter .OPEN = w.openings + 1 := by simp [World.openingsAfter, hbefore]
      rw [hnew]
      constructor
      · intro outcome houtcome hk
        exact absurd (hreported outcome houtcome _ hk) (Nat.not_succ_le_self _)
      · intro j later hj hk
        obtain ⟨k, before, hk', hbefore⟩ := hsent j later hj _ hk
        exact absurd (h.sent k before hk' _ hbefore) (Nat.not_succ_le_self _)
  · intro j later hj k hk
    obtain ⟨j', before, hj', hbefore⟩ := hsent j later hj k hk
    exact Nat.le_trans (h.sent j' before hj' k hbefore) hle
  · exact fun outcome houtcome k hk => Nat.le_trans (hreported outcome houtcome k hk) hle

lemma Counts.report_closed (h : Counts config w) (hi : w.tasks i = .sent attempt)
    (hstate : w.record.state = .CLOSED) :
    Exact config w (w.report config i attempt error) ∧
      Counts config (w.report config i attempt error) := by
  obtain ⟨hfailures, -⟩ := h.closed hstate
  cases error with
  | none =>
    have hhandle : w.handle config none = { w.record with consecutiveFailures := 0, probing := false } := by
      simp [World.handle, handleDeliverySuccess, hstate]
    have hzero : failures (⟨none, attempt.probe⟩ :: w.outcomes) = 0 := by simp [failures_cons]
    constructor
    · constructor
      · intro _
        rw [report_record, report_outcomes, hhandle, hzero]
        exact iff_of_false (fun hne => hne hstate) (Nat.not_le.mpr config.failureThreshold_pos)
      · exact fun hne => absurd hstate hne
      · rw [report_record, hhandle]
        exact fun hlt => absurd hlt (Nat.lt_irrefl _)
    · apply h.report hi
      · rw [hhandle, hzero]
        exact fun _ => ⟨rfl, config.failureThreshold_pos⟩
      · simp [hhandle, hstate]
      · simp [hhandle, hstate]
  | some message =>
    have hone : failures (⟨some message, attempt.probe⟩ :: w.outcomes) =
        w.record.consecutiveFailures + 1 := by simp [failures_cons, hfailures]
    by_cases htrips : config.failureThreshold ≤ w.record.consecutiveFailures + 1
    · have hhandle : w.handle config (some message) = { w.record with
          state := .OPEN, consecutiveFailures := w.record.consecutiveFailures + 1
          consecutiveSuccesses := 0, lastProbeTime := w.now, openedAt := w.now, probing := false } := by
        simp [World.handle, handleDeliveryFailure, isOutageFailure, hstate, htrips]
      constructor
      · constructor
        · intro _
          rw [report_record, report_outcomes, hhandle, hone]
          exact iff_of_true (by simp) htrips
        · exact fun hne => absurd hstate hne
        · rw [report_record, hhandle]
          exact fun hlt => absurd hlt (Nat.not_lt_zero _)
      · apply h.report hi
        · simp [hhandle]
        · simp [hhandle]
        · simp [hhandle]
    · have hhandle : w.handle config (some message) = { w.record with
          consecutiveFailures := w.record.consecutiveFailures + 1, probing := false } := by
        simp [World.handle, handleDeliveryFailure, isOutageFailure, hstate, htrips]
      constructor
      · constructor
        · intro _
          rw [report_record, report_outcomes, hhandle, hone]
          exact iff_of_false (fun hne => hne hstate) htrips
        · exact fun hne => absurd hstate hne
        · rw [report_record, hhandle]
          exact fun hlt => absurd hlt (Nat.lt_irrefl _)
      · apply h.report hi
        · rw [hhandle, hone]
          exact fun _ => ⟨rfl, Nat.not_le.mp htrips⟩
        · simp [hhandle, hstate]
        · simp [hhandle, hstate]

lemma Counts.report_halfOpen (h : Counts config w) (hi : w.tasks i = .sent attempt)
    (hstate : w.record.state = .HALF_OPEN) (hprobes : Probes w (.report i error)) :
    Exact config w (w.report config i attempt error) ∧
      Counts config (w.report config i attempt error) := by
  obtain ⟨hsuccesses, -⟩ := h.halfOpen hstate
  have hopen : w.record.state ≠ .CLOSED := by simp [hstate]
  cases error with
  | none =>
    have hprobe := hprobes hstate i attempt rfl hi
    have hone : recovered w.openings (⟨none, attempt.probe⟩ :: w.outcomes) =
        w.record.consecutiveSuccesses + 1 := by simp [recovered_cons, hprobe, hsuccesses]
    by_cases hcloses : config.successThreshold ≤ w.record.consecutiveSuccesses + 1
    · have hhandle : w.handle config none = { w.record with
          state := .CLOSED, consecutiveFailures := 0, consecutiveSuccesses := 0, openedAt := 0
          probing := false } := by
        simp [World.handle, handleDeliverySuccess, hstate, hcloses]
      constructor
      · constructor
        · exact fun hclosed => absurd hclosed hopen
        · intro _
          rw [report_record, report_outcomes, hhandle, hone]
          exact iff_of_true rfl hcloses
        · rw [report_record, hhandle]
          exact fun hlt => absurd hlt (Nat.not_lt_zero _)
      · apply h.report hi
        · rw [hhandle, failures_cons]
          exact fun _ => ⟨rfl, config.failureThreshold_pos⟩
        · simp [hhandle]
        · simp [hhandle]
    · have hhandle : w.handle config none = { w.record with
          consecutiveSuccesses := w.record.consecutiveSuccesses + 1, probing := false } := by
        simp [World.handle, handleDeliverySuccess, hstate, hcloses]
      constructor
      · constructor
        · exact fun hclosed => absurd hclosed hopen
        · intro _
          rw [report_record, report_outcomes, hhandle, hone]
          exact iff_of_false hopen hcloses
        · rw [report_outcomes, hprobe]
          exact fun _ => rfl
      · apply h.report hi
        · simp [hhandle, hstate]
        · rw [hhandle, hone]
          exact fun _ => ⟨by simp [World.openingsAfter], rfl, Nat.not_le.mp hcloses⟩
        · simp [hhandle, hstate]
  | some message =>
    have hhandle : w.handle config (some message) = { w.record with
        state := .OPEN, consecutiveSuccesses := 0, lastProbeTime := w.now, probing := false } := by
      simp [World.handle, handleDeliveryFailure, isOutageFailure, hstate]
    have hzero : recovered w.openings (⟨some message, attempt.probe⟩ :: w.outcomes) = 0 := by
      simp [recovered_cons]
    constructor
    · constructor
      · exact fun hclosed => absurd hclosed hopen
      · intro _
        rw [report_record, report_outcomes, hhandle, hzero]
        exact iff_of_false (by simp) (Nat.not_le.mpr config.successThreshold_pos)
      · rw [report_record, hhandle]
        exact fun hlt => absurd hlt (Nat.not_lt_zero _)
    · apply h.report hi
      · simp [hhandle]
      · simp [hhandle]
      · simp [hhandle]

/-- No probe of the opening has reported yet: the outcome changes no count. -/
lemma Counts.report_open (h : Counts config w) (hi : w.tasks i = .sent attempt)
    (hstate : w.record.state = .OPEN) :
    Exact config w (w.report config i attempt error) ∧
      Counts config (w.report config i attempt error) := by
  obtain ⟨hsuccesses, houtcomes, htasks⟩ := h.opened hstate
  have hopen : w.record.state ≠ .CLOSED := by simp [hstate]
  have hhandle : w.handle config error = { w.record with probing := false } := by
    cases error <;> simp [World.handle, handleDeliverySuccess, handleDeliveryFailure, isOutageFailure, hstate]
  have hzero : recovered w.openings (⟨error, attempt.probe⟩ :: w.outcomes) = 0 := by
    apply recovered_eq_zero
    intro outcome houtcome
    obtain rfl | houtcome := List.mem_cons.mp houtcome
    · exact htasks i attempt hi
    · exact houtcomes outcome houtcome
  constructor
  · constructor
    · exact fun hclosed => absurd hclosed hopen
    · intro _
      rw [report_record, report_outcomes, hhandle, hzero]
      exact iff_of_false hopen (Nat.not_le.mpr config.successThreshold_pos)
    · rw [report_record, hhandle]
      exact fun hlt => absurd hlt (Nat.lt_irrefl _)
  · apply h.report hi
    · simp [hhandle, hstate]
    · simp [hhandle, hstate]
    · simp [hhandle, hsuccesses]

end Report

lemma Counts.step (h : Counts config w) (hprobes : Probes w move) :
    Exact config w (step config move w) ∧ Counts config (step config move w) := by
  cases move with
  | wait elapsed => exact ⟨h.unreported Iff.rfl rfl rfl, { h with }⟩
  | enqueueWebhookDelivery i =>
    simp only [Transitions.step]
    cases w.tasks i with
    | idle =>
      simp only [World.enqueue]
      split_ifs
      · exact ⟨h.unreported Iff.rfl rfl rfl, h.setTask i fun attempt heq => Task.sent.inj heq ▸ rfl⟩
      · exact h.sendProbe i _
    | _ => exact ⟨h.refl, h⟩
  | runProbeCycle i =>
    simp only [Transitions.step]
    cases w.tasks i with
    | idle => exact h.sendProbe i _
    | _ => exact ⟨h.refl, h⟩
  | report i error =>
    simp only [Transitions.step]
    cases hi : w.tasks i with
    | sent attempt =>
      cases hstate : w.record.state with
      | CLOSED => exact h.report_closed hi hstate
      | HALF_OPEN => exact h.report_halfOpen hi hstate hprobes
      | OPEN => exact h.report_open hi hstate
    | _ => exact ⟨h.refl, h⟩

lemma Counts.init (config : BreakerConfig) : Counts config {} := by
  constructor
  · exact fun _ => ⟨rfl, config.failureThreshold_pos⟩
  · exact fun heq => nomatch heq
  · exact fun heq => nomatch heq
  · exact fun _ _ heq => nomatch heq
  · simp

end Counts

end StellarTags.Webhooks.Transitions
