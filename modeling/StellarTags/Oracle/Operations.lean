import StellarTags.Oracle.State

/-! The oracle's entry points: administration, observations and averages. -/

namespace StellarTags.Oracle

open Library.Transactions Library.Integers Soroban

def readAdmin : Tx State Error Address := do
  let stored ← Tx.read State.admin
  Tx.unwrap stored .notInitialized

def requireAdmin (env : Env) : Tx State Error Unit := do
  let admin ← readAdmin
  requireAuth env admin

section Configuration

def initializeOracle (env : Env) (admin : Address) : Tx State Error Unit := do
  requireAuth env admin
  let stored ← Tx.read State.admin
  Tx.reject (stored.isSome) .alreadyInitialized
  Tx.update fun s => { s with admin := some admin }

def setMaxStaleness (env : Env) (pair : Pair) (maxStalenessSeconds : ℕ) : Tx State Error Unit := do
  requireAdmin env
  Tx.update fun s =>
    { s with staleness := Function.update s.staleness pair (some maxStalenessSeconds) }

def tripCircuitBreaker (env : Env) : Tx State Error Unit := do
  requireAdmin env
  Tx.update fun s => { s with circuitBreakerTripped := some true }

def resetCircuitBreaker (env : Env) : Tx State Error Unit := do
  requireAdmin env
  Tx.update fun s => { s with circuitBreakerTripped := some false }

def setMaxSingleUpdateDevBps (env : Env) (maxDeviationBps : ℕ) : Tx State Error Unit := do
  requireAdmin env
  Tx.reject (10000 < maxDeviationBps) .invalidConfig
  Tx.update fun s => { s with maxSingleUpdateDeviationBps := some maxDeviationBps }

end Configuration

section Logarithms

/-- One binary digit of the fractional part: square, and halve if that reaches two. -/
def log2Digit (acc : ℕ × ℕ) (bit : ℕ) : Tx State Error (ℕ × ℕ) := do
  let (normalized, fraction) := acc
  Tx.reject (maxU128 < normalized * normalized) .priceOverflow
  let squared := (normalized * normalized) >>> 63
  if 2 ^ 64 ≤ squared then
    pure (squared >>> 1, fraction ||| 2 ^ (63 - bit))
  else
    pure (squared, fraction)

/-- The binary logarithm in fixed point, with 64 fractional bits of which 32 are computed. -/
def log2Q64 (value : ℤ) : Tx State Error ℤ := do
  Tx.reject (value ≤ 0) .invalidPrice
  let value := value.toNat
  let highestBit := value.log2
  let normalized := if 63 ≤ highestBit then value >>> (highestBit - 63)
    else value <<< (63 - highestBit)
  let (_, fraction) ← Tx.fold log2Digit (normalized, 0) (List.range 32)
  let fractional ← checkedPrice fraction
  let whole ← checkedPrice (highestBit * q64)
  checkedPrice (whole + fractional)

/-- What the logarithms add up to over one more segment. -/
def nextLog (cumulative : ℤ) (previous : Observation) (timestamp : ℕ) : Tx State Error ℤ := do
  let log ← log2Q64 previous.price
  let increment ← checkedPrice (log * (timestamp - previous.timestamp : ℕ))
  checkedPrice (cumulative + increment)

def rebuildLogs (previous : Observation) (cumulative : ℤ) :
    List Observation → Tx State Error (List LogObservation)
  | [] => pure []
  | observation :: rest => do
    Tx.reject (observation.timestamp < previous.timestamp) .timestampNotMonotonic
    let cumulative ← nextLog cumulative previous observation.timestamp
    let logs ← rebuildLogs observation cumulative rest
    pure (⟨observation.timestamp, cumulative⟩ :: logs)

/-- The stored logarithms, or new ones where they do not go with the observations. -/
def readCumulativeLogs (pair : Pair) (observations : List Observation) :
    Tx State Error (List LogObservation) := do
  let stored ← Tx.read fun s => s.cumulativeLogs pair
  match stored.filter fun logs => logs.length = observations.length with
  | some logs => pure logs
  | none =>
    match observations with
    | [] => pure []
    | first :: rest => do
      let logs ← rebuildLogs first 0 rest
      pure (⟨first.timestamp, 0⟩ :: logs)

end Logarithms

section Observations

def prune {α : Type} (full : Bool) (entries : List α) : List α :=
  if full then entries.drop 1 else entries

namespace State

def isFull (observations : List Observation) : Bool :=
  decide (maxObservations < observations.length)

def record (s : State) (pair : Pair) (observations : List Observation)
    (logObservations : List LogObservation) : State :=
  { s with
    pair := Function.update s.pair pair (some (prune (isFull observations) observations))
    cumulativeLogs :=
      Function.update s.cumulativeLogs pair (some (prune (isFull observations) logObservations)) }

def trip (s : State) (previous price deviationBps : ℤ) : State :=
  { s with
    circuitBreakerTripped := some true
    history := .breakerTripped previous price deviationBps :: s.history }

end State

def store (pair : Pair) (observations : List Observation) (logObservations : List LogObservation) :
    Tx State Error ℕ := do
  Tx.update fun s => s.record pair observations logObservations
  pure (prune (State.isFull observations) observations).length

def observe (env : Env) (pair : Pair) (price : ℤ) (timestamp : ℕ) : Tx State Error ℕ := do
  requireAdmin env
  let tripped ← Tx.read State.isCircuitBreakerTripped
  Tx.reject (tripped = true) .circuitBreakerTripped
  Tx.reject (price ≤ 0 ∨ maxPrice < price) .invalidPrice
  Tx.reject (env.timestamp < timestamp) .timestampInFuture
  let observations ← Tx.read fun s => s.observations pair
  let logObservations ← readCumulativeLogs pair observations
  match observations.getLast? with
  | none =>
    store pair (observations ++ [⟨timestamp, price, 0⟩]) (logObservations ++ [⟨timestamp, 0⟩])
  | some previous => do
    Tx.reject (timestamp ≤ previous.timestamp) .timestampNotMonotonic
    Tx.reject (timestamp - previous.timestamp < minIntervalSeconds) .observationTooSoon
    let maxDeviationBps ← Tx.read State.maxSingleUpdateDevBps
    let deviation ← checkedI128 (price - previous.price)
    let scaled ← checkedPrice (|deviation| * bpsDivisor)
    Tx.demand (previous.price ≠ 0)
    let deviationBps := scaled.tdiv previous.price
    if (maxDeviationBps : ℤ) < deviationBps then do
      Tx.update fun s => s.trip previous.price price deviationBps
      pure observations.length
    else do
      let elapsed : U256 := BitVec.ofNat 256 (timestamp - previous.timestamp)
      let cumulativePrice := previous.cumulativePrice + castUnsigned previous.price * elapsed
      -- The entries are read with `unwrap`.
      Tx.demand (logObservations ≠ [])
      let cumulativeLog := (logObservations.getLast?.map (·.cumulativeLogPrice)).getD 0
      let cumulativeLogPrice ← nextLog cumulativeLog previous timestamp
      store pair (observations ++ [⟨timestamp, price, cumulativePrice⟩])
        (logObservations ++ [⟨timestamp, cumulativeLogPrice⟩])

end Observations

section Averages

/-- The index of the last observation at or before the target, from `index` on. -/
def findBase (target baseIndex index : ℕ) : List Observation → ℕ
  | [] => baseIndex
  | observation :: rest =>
    if target < observation.timestamp then baseIndex else findBase target index (index + 1) rest

/-- The accumulator at the target, interpolated within its segment. -/
def cumulativeAt (base : Observation) (target : ℕ) : U256 :=
  if base.timestamp = target then base.cumulativePrice
  else
    base.cumulativePrice +
      castUnsigned base.price * BitVec.ofNat 256 (target - base.timestamp)

def twap (pair : Pair) (windowSeconds : ℕ) : Tx State Error ℤ := do
  Tx.reject (windowSeconds = 0 ∨ maxWindowSeconds < windowSeconds) .invalidWindow
  let observations ← Tx.read fun s => s.observations pair
  match observations with
  | [] => Tx.fail .noObservations
  | first :: rest => do
    let latest := (first :: rest).getLast (List.cons_ne_nil first rest)
    Tx.reject (latest.timestamp < windowSeconds) .insufficientHistory
    let target := latest.timestamp - windowSeconds
    Tx.reject (target < first.timestamp) .insufficientHistory
    match (first :: rest)[findBase target 0 0 (first :: rest)]? with
    | none => Tx.trap
    | some base => do
      let accumulated := latest.cumulativePrice - cumulativeAt base target
      let avg := accumulated / BitVec.ofNat 256 windowSeconds
      checkedPrice avg.toNat

def consult (env : Env) (pair : Pair) (windowSeconds : ℕ) : Tx State Error ℤ := do
  let tripped ← Tx.read State.isCircuitBreakerTripped
  Tx.reject (tripped = true) .circuitBreakerTripped
  let observations ← Tx.read fun s => s.observations pair
  let latest ← Tx.unwrap observations.getLast? .noObservations
  let maxStaleness ← Tx.read fun s => s.getMaxStaleness pair
  Tx.reject (maxStaleness < env.timestamp - latest.timestamp) .priceStale
  twap pair windowSeconds

end Averages

end StellarTags.Oracle
