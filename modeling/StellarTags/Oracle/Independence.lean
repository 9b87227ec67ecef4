import StellarTags.Library.Twins
import StellarTags.Oracle.History

/-! What one pair's callers see of the observations of other pairs. -/

namespace StellarTags.Oracle

open Library.Transactions Library.Integers Library.Runs Soroban

/-- Two states that hold the same configuration and the same data of a pair. -/
structure SameFor (pair : Pair) (s t : State) : Prop where
  admin : s.admin = t.admin
  observed : s.pair pair = t.pair pair
  staleness : s.staleness pair = t.staleness pair
  tripped : s.circuitBreakerTripped = t.circuitBreakerTripped
  maxDeviation : s.maxSingleUpdateDeviationBps = t.maxSingleUpdateDeviationBps
  logs : s.cumulativeLogs pair = t.cumulativeLogs pair

namespace SameFor

variable {pair other : Pair} {s t u : State}

lemma refl (pair : Pair) (s : State) : SameFor pair s s := ⟨rfl, rfl, rfl, rfl, rfl, rfl⟩

lemma symm (h : SameFor pair s t) : SameFor pair t s :=
  ⟨h.admin.symm, h.observed.symm, h.staleness.symm, h.tripped.symm, h.maxDeviation.symm,
    h.logs.symm⟩

lemma trans (h : SameFor pair s t) (k : SameFor pair t u) : SameFor pair s u :=
  ⟨h.admin.trans k.admin, h.observed.trans k.observed, h.staleness.trans k.staleness,
    h.tripped.trans k.tripped, h.maxDeviation.trans k.maxDeviation, h.logs.trans k.logs⟩

lemma observations (h : SameFor pair s t) : s.observations pair = t.observations pair := by
  rw [State.observations, State.observations, h.observed]

lemma isTripped (h : SameFor pair s t) :
    s.isCircuitBreakerTripped = t.isCircuitBreakerTripped := by
  rw [State.isCircuitBreakerTripped, State.isCircuitBreakerTripped, h.tripped]

lemma maxDeviationBps (h : SameFor pair s t) :
    s.maxSingleUpdateDevBps = t.maxSingleUpdateDevBps := by
  rw [State.maxSingleUpdateDevBps, State.maxSingleUpdateDevBps, h.maxDeviation]

lemma record (h : SameFor pair s t) (target : Pair) (observations : List Observation)
    (logs : List LogObservation) :
    SameFor pair (s.record target observations logs) (t.record target observations logs) := by
  refine ⟨h.admin, ?_, h.staleness, h.tripped, h.maxDeviation, ?_⟩
  · simp [State.record, Function.update_apply, h.observed]
  · simp [State.record, Function.update_apply, h.logs]

lemma record_other (hne : pair ≠ other) (observations : List Observation)
    (logs : List LogObservation) : SameFor pair (s.record other observations logs) s := by
  refine ⟨rfl, ?_, rfl, rfl, rfl, ?_⟩
  · simp [State.record, hne]
  · simp [State.record, hne]

end SameFor

section Blindness

variable {pair : Pair}

/-- What cannot tell two states apart that hold the same for a pair. -/
abbrev Blind {α : Type} (pair : Pair) (m : Tx State Error α) : Prop :=
  Tx.Twin (SameFor pair) m m

lemma requireAdmin_blind (env : Env) : Blind pair (requireAdmin env) :=
  .bind (.bind (.read fun _ _ h => h.admin) fun _ => .unwrap _) fun _ => .demand

lemma checkedPrice_blind (n : ℤ) : Blind pair (checkedPrice n) :=
  .bind .reject fun _ => .pure _

lemma log2Digit_blind (acc : ℕ × ℕ) (bit : ℕ) : Blind pair (log2Digit acc bit) := by
  refine .bind .reject fun _ => ?_
  dsimp only
  split
  · exact .pure _
  · exact .pure _

lemma log2Q64_blind (value : ℤ) : Blind pair (log2Q64 value) :=
  .bind .reject fun _ => .bind (.fold log2Digit_blind _ _) fun _ =>
    .bind (checkedPrice_blind _) fun _ => .bind (checkedPrice_blind _) fun _ =>
      checkedPrice_blind _

lemma nextLog_blind (cumulative : ℤ) (previous : Observation) (timestamp : ℕ) :
    Blind pair (nextLog cumulative previous timestamp) :=
  .bind (log2Q64_blind _) fun _ => .bind (checkedPrice_blind _) fun _ => checkedPrice_blind _

lemma rebuildLogs_blind (previous : Observation) (cumulative : ℤ) (rest : List Observation) :
    Blind pair (rebuildLogs previous cumulative rest) := by
  induction rest generalizing previous cumulative with
  | nil => exact .pure _
  | cons observation rest ih =>
    exact .bind .reject fun _ => .bind (nextLog_blind _ _ _) fun _ => .bind (ih _ _) fun _ =>
      .pure _

lemma readCumulativeLogs_blind (observations : List Observation) :
    Blind pair (readCumulativeLogs pair observations) := by
  refine .bind (.read fun _ _ h => h.logs) fun stored => ?_
  split
  · exact .pure _
  · cases observations with
    | nil => exact .pure _
    | cons first rest => exact .bind (rebuildLogs_blind _ _ _) fun _ => .pure _

lemma store_blind (target : Pair) (observations : List Observation) (logs : List LogObservation) :
    Blind pair (store target observations logs) :=
  .bind (.update fun _ _ h => h.record target observations logs) fun _ => .pure _

lemma observe_blind (env : Env) (price : ℤ) (timestamp : ℕ) :
    Blind pair (observe env pair price timestamp) := by
  refine .bind (requireAdmin_blind env) fun _ => .bind (.read fun _ _ h => h.isTripped) fun _ =>
    .bind .reject fun _ => .bind .reject fun _ => .bind .reject fun _ =>
    .bind (.read fun _ _ h => h.observations) fun observations =>
    .bind (readCumulativeLogs_blind observations) fun logs => ?_
  cases observations.getLast? with
  | none => exact store_blind _ _ _
  | some previous =>
    refine .bind .reject fun _ => .bind .reject fun _ =>
      .bind (.read fun _ _ h => h.maxDeviationBps) fun _ =>
      .bind (.bind .demand fun _ => .pure _) fun _ =>
      .bind (checkedPrice_blind _) fun _ => .bind .demand fun _ => ?_
    dsimp only
    split
    · exact .bind (.update fun _ _ h => ⟨h.admin, h.observed, h.staleness, rfl, h.maxDeviation,
        h.logs⟩) fun _ => .pure _
    · exact .bind .demand fun _ => .bind (nextLog_blind _ _ _) fun _ => store_blind _ _ _

lemma twap_blind (windowSeconds : ℕ) : Blind pair (twap pair windowSeconds) := by
  refine .bind .reject fun _ => .bind (.read fun _ _ h => h.observations) fun observations => ?_
  cases observations with
  | nil => exact .fail
  | cons first rest =>
    refine .bind .reject fun _ => .bind .reject fun _ => ?_
    split
    · exact .trap
    · exact checkedPrice_blind _

lemma consult_blind (env : Env) (windowSeconds : ℕ) :
    Blind pair (consult env pair windowSeconds) :=
  .bind (.read fun _ _ h => h.isTripped) fun _ => .bind .reject fun _ =>
    .bind (.read fun _ _ h => h.observations) fun _ => .bind (.unwrap _) fun _ =>
    .bind (.read fun _ _ h => by rw [State.getMaxStaleness, State.getMaxStaleness, h.staleness])
      fun _ => .bind .reject fun _ => twap_blind windowSeconds

/-- The calls a pair's results may depend on: those about the pair, and configuration. -/
def Call.concerns (pair : Pair) (call : Call) : Bool :=
  match call.op with
  | .observe target _ _ | .twap target _ | .consult target _ => decide (target = pair)
  | .initialise _ | .setMaxStaleness _ _ | .tripCircuitBreaker | .resetCircuitBreaker
  | .setMaxSingleUpdateDevBps _ => true

lemma invoke_blind {call : Call} (h : call.concerns pair = true) :
    Blind pair (call.op.invoke call.env) := by
  obtain ⟨env, op⟩ := call
  cases op with
  | initialise admin =>
    exact .bind (.bind .demand fun _ => .bind (.read fun _ _ h => h.admin) fun _ =>
      .bind .reject fun _ => .update fun _ _ h =>
        ⟨rfl, h.observed, h.staleness, h.tripped, h.maxDeviation, h.logs⟩) fun _ => .pure _
  | setMaxStaleness target seconds =>
    exact .bind (.bind (requireAdmin_blind env) fun _ => .update fun _ _ h =>
      ⟨h.admin, h.observed, by simp [Function.update_apply, h.staleness], h.tripped,
        h.maxDeviation, h.logs⟩) fun _ => .pure _
  | tripCircuitBreaker =>
    exact .bind (.bind (requireAdmin_blind env) fun _ => .update fun _ _ h =>
      ⟨h.admin, h.observed, h.staleness, rfl, h.maxDeviation, h.logs⟩) fun _ => .pure _
  | resetCircuitBreaker =>
    exact .bind (.bind (requireAdmin_blind env) fun _ => .update fun _ _ h =>
      ⟨h.admin, h.observed, h.staleness, rfl, h.maxDeviation, h.logs⟩) fun _ => .pure _
  | setMaxSingleUpdateDevBps bps =>
    exact .bind (.bind (requireAdmin_blind env) fun _ => .bind .reject fun _ =>
      .update fun _ _ h => ⟨h.admin, h.observed, h.staleness, h.tripped, rfl, h.logs⟩) fun _ =>
      .pure _
  | observe target price timestamp =>
    obtain rfl : target = pair := by simpa [Call.concerns] using h
    exact .bind (observe_blind env price timestamp) fun _ => .pure _
  | twap target windowSeconds =>
    obtain rfl : target = pair := by simpa [Call.concerns] using h
    exact .bind (twap_blind windowSeconds) fun _ => .pure _
  | consult target windowSeconds =>
    obtain rfl : target = pair := by simpa [Call.concerns] using h
    exact .bind (consult_blind env windowSeconds) fun _ => .pure _

end Blindness

section Runs

variable {pair : Pair} {s : State}

/-- An admissible observation that leaves the pair's last price by more than is allowed. -/
structure Trips (s : State) (env : Env) (pair : Pair) (price : ℤ) (timestamp : ℕ) : Prop extends
    Admissible s env price timestamp where
  beyond : ∃ previous, s.latestObservation pair = some previous ∧
    previous.timestamp + minIntervalSeconds ≤ timestamp ∧
      (s.maxSingleUpdateDevBps : ℤ) < deviationBps previous.price price

/-- No observation of another pair trips the breaker. -/
def Spares (pair : Pair) (s : State) (call : Call) : Prop :=
  ∀ other price timestamp, call.op = .observe other price timestamp → other ≠ pair →
    ¬ Trips s call.env other price timestamp

/-- What the calls that concern the pair get back, in order. -/
def answers (pair : Pair) (s : State) (calls : List Call) : List (Except (Failure Error) Answer) :=
  trace step (fun s call => if call.concerns pair = true then [call.answer s] else []) s calls

lemma answer_eq {call : Call} {t : State} (h : call.concerns pair = true) (hs : SameFor pair s t) :
    call.answer s = call.answer t := (invoke_blind h).result hs

/-- A call of no concern goes unnoticed unless it trips the breaker. -/
lemma step_unnoticed {call : Call} (h : call.concerns pair = false) (hp : Spares pair s call) :
    SameFor pair (step call s) s := by
  obtain ⟨env, op⟩ := call
  rcases step_cases ⟨env, op⟩ s with he | ⟨a, hok⟩
  · rw [he]
    exact .refl pair s
  · cases op with
    | observe other price timestamp =>
      have hne : other ≠ pair := by simpa [Call.concerns] using h
      obtain ⟨n, hok, -⟩ := answering_ok.mp hok
      obtain ⟨ha, logs, -, ho⟩ := observe_ok hok
      generalize step ⟨env, .observe other price timestamp⟩ s = t at ho
      cases ho with
      | first => exact .record_other hne.symm _ _
      | tripped previous last later beyond =>
        exact absurd ⟨ha, previous, last, later, beyond⟩ (hp other price timestamp rfl hne)
      | appended => exact .record_other hne.symm _ _
    | twap target windowSeconds =>
      obtain ⟨p, hok, -⟩ := answering_ok.mp hok
      rw [← twap_reads _ _ _ _ _ hok]
      exact .refl pair s
    | consult target windowSeconds =>
      obtain ⟨p, hok, -⟩ := answering_ok.mp hok
      rw [← consult_reads _ _ _ _ _ _ hok]
      exact .refl pair s
    | _ => simp [Call.concerns] at h

/-- The other pairs' observations can be left out of a run that none of them trips. -/
lemma answers_purge {calls : List Call} (hp : Along step (Spares pair) s calls) :
    answers pair s calls = answers pair s (calls.filter (·.concerns pair)) ∧
      SameFor pair (run step s calls) (run step s (calls.filter (·.concerns pair))) := by
  refine trace_purge (fun call s t hs hc => ?_) (fun call s t hs hc hp => ?_) (.refl pair s) hp
  · rw [if_pos hc, if_pos hc, answer_eq hc hs]
    exact ⟨rfl, (invoke_blind hc).commit hs⟩
  · exact ⟨by simp [hc], (step_unnoticed hc hp).trans hs⟩

/-- Two runs with the same configuration and the same calls on a pair give it the same answers, and
go on to do so, as long as no observation of another pair trips the breaker. -/
theorem pairs_independent (pair : Pair) (left right : List Call)
    (hsame : left.filter (·.concerns pair) = right.filter (·.concerns pair))
    (hleft : Along step (Spares pair) {} left) (hright : Along step (Spares pair) {} right) :
    answers pair {} left = answers pair {} right ∧
      ∀ call : Call, call.concerns pair = true →
        call.answer (after left) = call.answer (after right) := by
  obtain ⟨hl, hsl⟩ := answers_purge hleft
  obtain ⟨hr, hsr⟩ := answers_purge hright
  rw [hsame] at hl hsl
  refine ⟨hl.trans hr.symm, fun call hc => answer_eq hc ?_⟩
  exact hsl.trans hsr.symm

end Runs

section Examples

def otherPair : Pair := (⟨2⟩, ⟨1⟩)

def priced : List Call :=
  [⟨adminEnv 1000, .initialise ⟨3⟩⟩, ⟨adminEnv 1000, .observe samplePair 100 1000⟩]

def quiet : List Call := priced ++ [⟨adminEnv 1100, .observe samplePair 100 1100⟩]

/-- The other pair is first observed in between. -/
def interleaved : List Call :=
  priced ++ [⟨adminEnv 1050, .observe otherPair 7 1050⟩,
    ⟨adminEnv 1100, .observe samplePair 100 1100⟩]

/-- The other pair doubles in between. -/
def disturbed : List Call :=
  priced ++ [⟨adminEnv 1000, .observe otherPair 7 1000⟩,
    ⟨adminEnv 1060, .observe otherPair 14 1060⟩, ⟨adminEnv 1100, .observe samplePair 100 1100⟩]

lemma spares_of_first {pair : Pair} {s : State} {call : Call}
    (h : ∀ other price timestamp, call.op = .observe other price timestamp →
      other = pair ∨ s.latestObservation other = none) : Spares pair s call := by
  intro other price timestamp hop hne htrips
  obtain ⟨previous, hlast, -⟩ := htrips.beyond
  rcases h other price timestamp hop with he | he
  · exact hne he
  · rw [he] at hlast
    cases hlast

theorem pairs_independent_interleaved :
    answers samplePair {} quiet = answers samplePair {} interleaved ∧
      ∀ call : Call, call.concerns samplePair = true →
        call.answer (after quiet) = call.answer (after interleaved) := by
  refine pairs_independent samplePair quiet interleaved rfl ⟨?_, ?_, ?_, trivial⟩
    ⟨?_, ?_, ?_, ?_, trivial⟩
  all_goals refine spares_of_first fun other price timestamp hop => ?_
  all_goals cases hop
  all_goals first | exact .inl rfl | exact .inr rfl

/-- The other pair's jump freezes the pair that did not move. -/
theorem breaker_freezes_other_pairs :
    quiet.filter (·.concerns samplePair) = disturbed.filter (·.concerns samplePair) ∧
      answers samplePair {} quiet = [.ok .done, .ok (.count 1), .ok (.count 2)] ∧
      answers samplePair {} disturbed =
        [.ok .done, .ok (.count 1), .error (.err .circuitBreakerTripped)] :=
  ⟨rfl, rfl, rfl⟩

end Examples

end StellarTags.Oracle
