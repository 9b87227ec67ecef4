import StellarTags.Library.Runs
import StellarTags.Oracle.Operations

/-! The oracle's runs, and what an observation does when it is taken. -/

namespace StellarTags.Oracle

open Library.Transactions Library.Integers Library.Runs Soroban

inductive Op : Type
  | initialise (admin : Address)
  | setMaxStaleness (pair : Pair) (maxStalenessSeconds : ℕ)
  | tripCircuitBreaker
  | resetCircuitBreaker
  | setMaxSingleUpdateDevBps (maxDeviationBps : ℕ)
  | observe (pair : Pair) (price : ℤ) (timestamp : ℕ)
  | twap (pair : Pair) (windowSeconds : ℕ)
  | consult (pair : Pair) (windowSeconds : ℕ)
  deriving DecidableEq, Repr

inductive Answer : Type
  | done
  | count (n : ℕ)
  | price (p : ℤ)
  deriving DecidableEq, Repr

def answering {α : Type} (f : α → Answer) (m : Tx State Error α) : Tx State Error Answer := do
  let a ← m
  pure (f a)

def Op.invoke (env : Env) : Op → Tx State Error Answer
  | .initialise admin => answering (fun _ => .done) (initializeOracle env admin)
  | .setMaxStaleness pair maxStalenessSeconds =>
    answering (fun _ => .done) (Oracle.setMaxStaleness env pair maxStalenessSeconds)
  | .tripCircuitBreaker => answering (fun _ => .done) (Oracle.tripCircuitBreaker env)
  | .resetCircuitBreaker => answering (fun _ => .done) (Oracle.resetCircuitBreaker env)
  | .setMaxSingleUpdateDevBps maxDeviationBps =>
    answering (fun _ => .done) (Oracle.setMaxSingleUpdateDevBps env maxDeviationBps)
  | .observe pair price timestamp => answering .count (Oracle.observe env pair price timestamp)
  | .twap pair windowSeconds => answering .price (Oracle.twap pair windowSeconds)
  | .consult pair windowSeconds => answering .price (Oracle.consult env pair windowSeconds)

/-- One transaction: an entry point, with the ledger and the authorisations it runs under. -/
structure Call where
  env : Env
  op : Op

def step (call : Call) : State → State := Tx.commit (call.op.invoke call.env)

def Call.answer (call : Call) (s : State) : Except (Failure Error) Answer :=
  (call.op.invoke call.env s).map Prod.fst

def after (calls : List Call) : State := run step {} calls

/-- The calls below are about one unit of ⟨1⟩ in units of ⟨2⟩, and signed by the admin ⟨3⟩. -/
def samplePair : Pair := (⟨1⟩, ⟨2⟩)

def adminEnv (timestamp : ℕ) : Env := { timestamp, auth := fun a => decide (a = ⟨3⟩) }

lemma step_cases (call : Call) (s : State) :
    step call s = s ∨ ∃ a, call.op.invoke call.env s = .ok (a, step call s) :=
  Tx.commit_cases (call.op.invoke call.env) s

variable {s t : State} {env : Env}

@[simp] lemma answering_ok {α : Type} {f : α → Answer} {m : Tx State Error α} {r : Answer} :
    (answering f m) s = .ok (r, t) ↔ ∃ a, m s = .ok (a, t) ∧ r = f a := by
  simp [answering]

section Inversion

lemma requireAdmin_ok : (requireAdmin env) s = .ok ((), t) ↔
    (∃ admin, s.admin = some admin ∧ env.auth admin = true) ∧ t = s := by
  simp only [requireAdmin, readAdmin, requireAuth, Tx.bind_ok, Tx.read_ok, Tx.unwrap_ok,
    Tx.demand_ok]
  constructor
  · rintro ⟨admin, _, ⟨_, _, ⟨rfl, rfl⟩, ha, rfl⟩, hauth, rfl⟩
    exact ⟨⟨admin, ha, hauth⟩, rfl⟩
  · rintro ⟨⟨admin, ha, hauth⟩, rfl⟩
    exact ⟨admin, t, ⟨_, _, ⟨rfl, rfl⟩, ha, rfl⟩, hauth, rfl⟩

lemma requireAdmin_reads (env : Env) : Tx.Respects Eq (requireAdmin env) :=
  .bind (.bind (.read _) fun _ => .unwrap _ _) fun _ => .demand _

lemma log2Digit_reads (acc : ℕ × ℕ) (bit : ℕ) : Tx.Respects Eq (log2Digit acc bit) := by
  refine .bind (.reject _ _) fun _ => ?_
  dsimp only
  split <;> exact .pure _

lemma checkedPrice_reads (n : ℤ) : Tx.Respects Eq (checkedPrice n) :=
  .bind (.reject _ _) fun _ => .pure _

lemma log2Q64_reads (value : ℤ) : Tx.Respects Eq (log2Q64 value) :=
  .bind (.reject _ _) fun _ => .bind (.fold fun _ _ _ => log2Digit_reads _ _) fun _ =>
    .bind (checkedPrice_reads _) fun _ => .bind (checkedPrice_reads _) fun _ =>
      checkedPrice_reads _

lemma nextLog_reads (cumulative : ℤ) (previous : Observation) (timestamp : ℕ) :
    Tx.Respects Eq (nextLog cumulative previous timestamp) :=
  .bind (log2Q64_reads _) fun _ => .bind (checkedPrice_reads _) fun _ => checkedPrice_reads _

lemma rebuildLogs_reads (previous : Observation) (cumulative : ℤ) (rest : List Observation) :
    Tx.Respects Eq (rebuildLogs previous cumulative rest) := by
  induction rest generalizing previous cumulative with
  | nil => exact .pure _
  | cons observation rest ih =>
    exact .bind (.reject _ _) fun _ => .bind (nextLog_reads _ _ _) fun _ =>
      .bind (ih _ _) fun _ => .pure _

lemma readCumulativeLogs_reads (pair : Pair) (observations : List Observation) :
    Tx.Respects Eq (readCumulativeLogs pair observations) := by
  refine .bind (.read _) fun stored => ?_
  split
  · exact .pure _
  · cases observations with
    | nil => exact .pure _
    | cons first rest => exact .bind (rebuildLogs_reads _ _ _) fun _ => .pure _

lemma twap_reads (pair : Pair) (windowSeconds : ℕ) : Tx.Respects Eq (twap pair windowSeconds) := by
  refine .bind (.reject _ _) fun _ => .bind (.read _) fun observations => ?_
  cases observations with
  | nil => exact .fail _
  | cons first rest =>
    refine .bind (.reject _ _) fun _ => .bind (.reject _ _) fun _ => ?_
    split
    · exact .trap
    · exact checkedPrice_reads _

lemma consult_reads (env : Env) (pair : Pair) (windowSeconds : ℕ) :
    Tx.Respects Eq (consult env pair windowSeconds) :=
  .bind (.read _) fun _ => .bind (.reject _ _) fun _ => .bind (.read _) fun _ =>
    .bind (.unwrap _ _) fun _ => .bind (.read _) fun _ => .bind (.reject _ _) fun _ =>
    twap_reads pair windowSeconds

/-- The accumulator a new observation carries, given the one before it. -/
def Observation.advance (previous : Observation) (timestamp : ℕ) : U256 :=
  previous.cumulativePrice +
    castUnsigned previous.price * BitVec.ofNat 256 (timestamp - previous.timestamp)

def deviationBps (previous price : ℤ) : ℤ := (|price - previous| * bpsDivisor).tdiv previous

def lastLog (logs : List LogObservation) : ℤ :=
  (logs.getLast?.map (·.cumulativeLogPrice)).getD 0

/-- An observation's own checks, before it meets the history. -/
structure Admissible (s : State) (env : Env) (price : ℤ) (timestamp : ℕ) : Prop where
  admin : ∃ admin, s.admin = some admin ∧ env.auth admin = true
  untripped : s.isCircuitBreakerTripped = false
  positive : 0 < price
  bounded : price ≤ maxPrice
  past : timestamp ≤ env.timestamp

/-- What an observation that returns makes of the state: it opens the history, trips the breaker
or is appended. -/
inductive Observed (pair : Pair) (price : ℤ) (timestamp : ℕ) (s : State)
    (logs : List LogObservation) : ℕ → State → Prop
  | first (empty : s.observations pair = []) :
    Observed pair price timestamp s logs 1
      (s.record pair [⟨timestamp, price, 0⟩] (logs ++ [⟨timestamp, 0⟩]))
  | tripped (previous : Observation) (last : s.latestObservation pair = some previous)
      (later : previous.timestamp + minIntervalSeconds ≤ timestamp)
      (beyond : (s.maxSingleUpdateDevBps : ℤ) < deviationBps previous.price price) :
    Observed pair price timestamp s logs (s.observationCount pair)
      (s.trip previous.price price (deviationBps previous.price price))
  | appended (previous : Observation) (last : s.latestObservation pair = some previous)
      (later : previous.timestamp + minIntervalSeconds ≤ timestamp)
      (within : deviationBps previous.price price ≤ s.maxSingleUpdateDevBps) (log : ℤ)
      (next : nextLog (lastLog logs) previous timestamp s = .ok (log, s)) :
    Observed pair price timestamp s logs
      (prune (State.isFull (s.observations pair ++
        [⟨timestamp, price, previous.advance timestamp⟩])) (s.observations pair ++
        [⟨timestamp, price, previous.advance timestamp⟩])).length
      (s.record pair (s.observations pair ++ [⟨timestamp, price, previous.advance timestamp⟩])
        (logs ++ [⟨timestamp, log⟩]))

variable {pair : Pair} {price : ℤ} {timestamp n : ℕ}

lemma observe_ok (h : observe env pair price timestamp s = .ok (n, t)) :
    Admissible s env price timestamp ∧ ∃ logs,
      readCumulativeLogs pair (s.observations pair) s = .ok (logs, s) ∧
        Observed pair price timestamp s logs n t := by
  rw [observe, Tx.bind_unit_ok] at h
  obtain ⟨_, ha, h⟩ := h
  obtain ⟨ha, he⟩ := requireAdmin_ok.mp ha
  rw [he] at h
  simp only [Tx.read_bind, Tx.reject_bind_ok, not_or, not_lt, not_le, Bool.not_eq_true] at h
  obtain ⟨ht, ⟨hp, hm⟩, hl, h⟩ := h
  refine ⟨⟨ha, ht, hp, hm, hl⟩, ?_⟩
  obtain ⟨logs, u, hlogs, h⟩ := Tx.bind_ok.mp h
  obtain rfl := readCumulativeLogs_reads _ _ _ _ _ hlogs
  refine ⟨logs, hlogs, ?_⟩
  cases hlast : (s.observations pair).getLast? with
  | none =>
    have he : s.observations pair = [] := List.getLast?_eq_none_iff.mp hlast
    simp only [he, store, List.getLast?_nil, List.nil_append, Tx.update_bind, Tx.pure_ok] at h
    obtain ⟨rfl, rfl⟩ := h
    exact .first he
  | some previous =>
    simp only [hlast, Tx.reject_bind_ok, Tx.read_bind, checkedI128_bind_ok, checkedPrice_bind_ok,
      Tx.demand_bind_ok, not_le, not_lt] at h
    obtain ⟨hlt, hmin, -, -, -, h⟩ := h
    have hlater : previous.timestamp + minIntervalSeconds ≤ timestamp := by omega
    split at h
    · rename_i hbeyond
      simp only [Tx.update_bind, Tx.pure_ok] at h
      obtain ⟨rfl, rfl⟩ := h
      exact .tripped previous hlast hlater hbeyond
    · rename_i hwithin
      rw [Tx.demand_bind_ok] at h
      obtain ⟨-, h⟩ := h
      obtain ⟨log, u, hlog, h⟩ := Tx.bind_ok.mp h
      obtain rfl := nextLog_reads _ _ _ _ _ _ hlog
      simp only [store, Tx.update_bind, Tx.pure_ok] at h
      obtain ⟨rfl, rfl⟩ := h
      exact .appended previous hlast hlater (not_lt.mp hwithin) log hlog

end Inversion

end StellarTags.Oracle
