import StellarTags.Library.Integers
import StellarTags.Soroban.Values

/-! The price oracle's stored observations, its configuration and its environment. -/

namespace StellarTags.Oracle

open Library.Transactions Library.Integers Soroban

inductive Error : Type
  | alreadyInitialized
  | notInitialized
  | invalidPrice
  | timestampNotMonotonic
  | timestampInFuture
  | observationTooSoon
  | priceOverflow
  | invalidWindow
  | insufficientHistory
  | noObservations
  | priceStale
  | circuitBreakerTripped
  | invalidConfig
  | oracleUnavailable
  deriving DecidableEq, Repr

/-- The 256-bit words of the accumulators: their arithmetic wraps. -/
abbrev U256 := BitVec 256

structure Observation where
  timestamp : ℕ
  price : ℤ
  cumulativePrice : U256
  deriving DecidableEq, Repr

structure LogObservation where
  timestamp : ℕ
  cumulativeLogPrice : ℤ
  deriving DecidableEq, Repr

inductive Event : Type
  | breakerTripped (previous price deviationBps : ℤ)
  deriving DecidableEq, Repr

abbrev Pair := Address × Address

structure State where
  admin : Option Address := none
  pair : Pair → Option (List Observation) := fun _ => none
  staleness : Pair → Option ℕ := fun _ => none
  circuitBreakerTripped : Option Bool := none
  maxSingleUpdateDeviationBps : Option ℕ := none
  cumulativeLogs : Pair → Option (List LogObservation) := fun _ => none
  /-- The events so far, the newest first. -/
  history : List Event := []

structure Env where
  timestamp : ℕ := 0
  auth : Address → Bool := fun _ => false

def maxObservations : ℕ := 64
def minIntervalSeconds : ℕ := 60
def maxWindowSeconds : ℕ := 7 * 24 * 60 * 60
def defaultMaxStalenessSeconds : ℕ := 3600
def defaultMaxSingleUpdateDeviationBps : ℕ := 1000
def bpsDivisor : ℤ := 10000
def q64 : ℤ := 2 ^ 64
def maxPrice : ℤ := maxI128 / 1000000000
def maxU128 : ℕ := 2 ^ 128 - 1

def requireAuth (env : Env) (a : Address) : Tx State Error Unit := Tx.demand (env.auth a)

/-- The value of a checked operation, whose overflow is an error and not a trap. -/
def checkedPrice (n : ℤ) : Tx State Error ℤ := do
  Tx.reject (¬ FitsI128 n) .priceOverflow
  pure n

/-- The two's complement of a price, as an accumulator. -/
def castUnsigned (price : ℤ) : U256 := (BitVec.ofInt 128 price).setWidth 256

namespace State

variable (s : State) (pair : Pair)

def observations : List Observation := (s.pair pair).getD []

def isCircuitBreakerTripped : Bool := s.circuitBreakerTripped.getD false

def getMaxStaleness : ℕ := (s.staleness pair).getD defaultMaxStalenessSeconds

def maxSingleUpdateDevBps : ℕ :=
  s.maxSingleUpdateDeviationBps.getD defaultMaxSingleUpdateDeviationBps

def observationCount : ℕ := (s.observations pair).length

def latestObservation : Option Observation := (s.observations pair).getLast?

end State

variable {n k : ℤ} {s t : State}

@[simp] lemma checkedPrice_ok : (checkedPrice n) s = .ok (k, t) ↔
    FitsI128 n ∧ k = n ∧ t = s := by
  simp [checkedPrice]

@[simp] lemma checkedPrice_bind_ok {α : Type} {r : α} {g : ℤ → Tx State Error α} :
    (checkedPrice n >>= g) s = .ok (r, t) ↔ FitsI128 n ∧ g n s = .ok (r, t) := by
  simp [checkedPrice]

lemma castUnsigned_eq (h : 0 ≤ n) (hn : n ≤ maxI128) :
    castUnsigned n = BitVec.ofNat 256 n.toNat := by
  obtain ⟨m, rfl⟩ := Int.eq_ofNat_of_zero_le h
  have hm : m < 2 ^ 128 := by
    simp only [maxI128] at hn
    omega
  apply BitVec.eq_of_toNat_eq
  simp only [castUnsigned, BitVec.toNat_setWidth, BitVec.toNat_ofInt, BitVec.toNat_ofNat,
    Int.toNat_natCast]
  omega

end StellarTags.Oracle
