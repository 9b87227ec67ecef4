import Mathlib.Tactic.Common

/-! The circuit breaker of a webhook's domain: its record, and what each handler writes to it. -/

namespace StellarTags.Webhooks

/-- The domain of a URL; what parses it gives the host name. -/
def getDestinationDomain (hostname : String → Option String) (url : String) : String :=
  ((hostname url).filter (· ≠ "")).getD "unknown"

inductive BreakerState
  | CLOSED
  | OPEN
  | HALF_OPEN
  deriving DecidableEq

/-- A domain of which nothing is stored has the defaults. -/
structure BreakerRecord where
  state : BreakerState := .CLOSED
  consecutiveFailures : ℕ := 0
  consecutiveSuccesses : ℕ := 0
  lastProbeTime : ℕ := 0
  openedAt : ℕ := 0
  probing : Bool := false
  deriving DecidableEq

structure BreakerConfig where
  failureThreshold : ℕ := 5
  successThreshold : ℕ := 3
  probeInterval : ℕ := 60_000
  failureThreshold_pos : 0 < failureThreshold := by decide
  successThreshold_pos : 0 < successThreshold := by decide

structure QueueCheck where
  allowed : Bool
  state : BreakerState
  canProbe : Bool := false
  reason : Option String := none
  nextProbeInMs : Option ℕ := none

/-- What a delivery failed of: the status of a response, or what was thrown. -/
inductive Failure
  | status (code : ℕ)
  | error (message : String)

variable (config : BreakerConfig)

def canQueueDelivery (record : BreakerRecord) (now : ℕ) : QueueCheck :=
  match record.state with
  | .CLOSED => { allowed := true, state := .CLOSED }
  | .OPEN =>
    if record.lastProbeTime + config.probeInterval ≤ now ∧ record.probing = false then
      { allowed := false, state := .OPEN, canProbe := true,
        reason := "Circuit breaker is OPEN. Active queueing halted; probe eligible." }
    else
      { allowed := false, state := .OPEN, canProbe := false,
        reason := "Circuit breaker is OPEN after " ++ toString config.failureThreshold ++
          " consecutive failures. Active queueing halted."
        nextProbeInMs := record.lastProbeTime + config.probeInterval - now }
  | .HALF_OPEN =>
    { allowed := false, state := .HALF_OPEN, canProbe := !record.probing,
      reason := "Circuit breaker is HALF_OPEN (probing in progress). Active queueing halted." }

/-- What `acquireProbeSlot` writes where it wins. The interval is asked for in OPEN only. -/
def acquireProbeSlot (record : BreakerRecord) (now : ℕ) : Option BreakerRecord :=
  if record.state = .CLOSED then none
  else if now < record.lastProbeTime + config.probeInterval ∧ record.state = .OPEN then none
  else if record.probing then none
  else some { record with state := .HALF_OPEN, lastProbeTime := now, probing := true }

def handleDeliverySuccess (record : BreakerRecord) : BreakerRecord :=
  match record.state with
  | .HALF_OPEN =>
    if config.successThreshold ≤ record.consecutiveSuccesses + 1 then
      { record with
        state := .CLOSED, consecutiveFailures := 0, consecutiveSuccesses := 0, openedAt := 0
        probing := false }
    else { record with consecutiveSuccesses := record.consecutiveSuccesses + 1, probing := false }
  | .CLOSED => { record with consecutiveFailures := 0, probing := false }
  | .OPEN => { record with probing := false }

/-- Whatever a thrown error says, it counts. -/
def isOutageFailure : Failure → Bool
  | .status code => 500 ≤ code ∧ code ≤ 599
  | .error _ => true

def handleDeliveryFailure (failure : Failure) (now : ℕ) (record : BreakerRecord) : BreakerRecord :=
  if isOutageFailure failure then
    match record.state with
    | .HALF_OPEN =>
      { record with state := .OPEN, consecutiveSuccesses := 0, lastProbeTime := now, probing := false }
    | .CLOSED =>
      if config.failureThreshold ≤ record.consecutiveFailures + 1 then
        { record with
          state := .OPEN, consecutiveFailures := record.consecutiveFailures + 1
          consecutiveSuccesses := 0, lastProbeTime := now, openedAt := now, probing := false }
      else { record with consecutiveFailures := record.consecutiveFailures + 1, probing := false }
    | .OPEN => { record with probing := false }
  else record

section Rules

variable {config : BreakerConfig} {record claimed : BreakerRecord} {now : ℕ} {failure : Failure}

lemma allowed_iff : (canQueueDelivery config record now).allowed = true ↔ record.state = .CLOSED := by
  unfold canQueueDelivery
  cases record.state with
  | CLOSED | HALF_OPEN => simp
  | OPEN =>
    dsimp only
    split_ifs <;> simp

lemma acquireProbeSlot_eq_some : acquireProbeSlot config record now = some claimed ↔
    record.state ≠ .CLOSED ∧ record.probing = false ∧
      (record.state = .OPEN → record.lastProbeTime + config.probeInterval ≤ now) ∧
        claimed = { record with state := .HALF_OPEN, lastProbeTime := now, probing := true } := by
  unfold acquireProbeSlot
  split_ifs with hclosed hcool hprobing
  · simp [hclosed]
  · simp only [false_iff]
    rintro ⟨-, -, hinterval, -⟩
    exact Nat.not_lt.mpr (hinterval hcool.2) hcool.1
  · simp [hprobing]
  · have hinterval : record.state = .OPEN → record.lastProbeTime + config.probeInterval ≤ now := by
      intro hopen
      exact Nat.not_lt.mp fun hearly => hcool ⟨hearly, hopen⟩
    rw [Option.some.injEq]
    constructor
    · rintro rfl
      exact ⟨hclosed, by simpa using hprobing, hinterval, rfl⟩
    · rintro ⟨-, -, -, rfl⟩
      rfl

lemma canProbe_iff : (canQueueDelivery config record now).canProbe = true ↔
    (acquireProbeSlot config record now).isSome := by
  rw [Option.isSome_iff_exists]
  simp only [acquireProbeSlot_eq_some, exists_and_left, exists_eq, and_true]
  unfold canQueueDelivery
  cases hstate : record.state with
  | CLOSED | HALF_OPEN => simp
  | OPEN =>
    dsimp only
    split_ifs with hfree
    · simp [hfree]
    · simp only [false_iff, not_and]
      intro _ hprobing hinterval
      exact hfree ⟨hinterval trivial, hprobing⟩

@[simp] lemma handleDeliverySuccess_probing : (handleDeliverySuccess config record).probing = false := by
  unfold handleDeliverySuccess
  cases record.state with
  | HALF_OPEN =>
    dsimp only
    split_ifs <;> rfl
  | CLOSED | OPEN => rfl

@[simp] lemma handleDeliverySuccess_lastProbeTime :
    (handleDeliverySuccess config record).lastProbeTime = record.lastProbeTime := by
  unfold handleDeliverySuccess
  cases record.state with
  | HALF_OPEN =>
    dsimp only
    split_ifs <;> rfl
  | CLOSED | OPEN => rfl

lemma handleDeliverySuccess_state (h : (handleDeliverySuccess config record).state ≠ .CLOSED) :
    record.state ≠ .CLOSED := by
  intro hclosed
  apply h
  simp [handleDeliverySuccess, hclosed]

lemma handleDeliveryFailure_probing (hsevere : isOutageFailure failure = true) :
    (handleDeliveryFailure config failure now record).probing = false := by
  unfold handleDeliveryFailure
  rw [if_pos hsevere]
  cases record.state with
  | CLOSED =>
    dsimp only
    split_ifs <;> rfl
  | HALF_OPEN | OPEN => rfl

/-- A failure after which the breaker is not closed happened while it was not, or it opens it. -/
lemma handleDeliveryFailure_lastProbeTime (hsevere : isOutageFailure failure = true)
    (h : (handleDeliveryFailure config failure now record).state ≠ .CLOSED) :
    (handleDeliveryFailure config failure now record).lastProbeTime = now ∨ record.state ≠ .CLOSED ∧
      (handleDeliveryFailure config failure now record).lastProbeTime = record.lastProbeTime := by
  revert h
  unfold handleDeliveryFailure
  rw [if_pos hsevere]
  cases hstate : record.state with
  | HALF_OPEN => exact fun _ => .inl rfl
  | OPEN => exact fun _ => .inr ⟨by simp, rfl⟩
  | CLOSED =>
    dsimp only
    split_ifs with htrips
    · exact fun _ => .inl rfl
    · intro h
      exact absurd rfl h

end Rules

end StellarTags.Webhooks
