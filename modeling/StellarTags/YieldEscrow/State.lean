import StellarTags.Library.Integers
import StellarTags.Soroban.Values

/-! The yield escrow's storage, and the strategies and tokens it calls. -/

namespace StellarTags.YieldEscrow

open Library.Transactions Library.Integers Soroban

inductive Error : Type
  | alreadyInitialized
  | notInitialized
  | invalidAmount
  | invalidReleaseLedger
  | invalidInterestSplit
  | escrowExists
  | escrowNotFound
  | escrowNotActive
  | notYetReleasable
  | stillLocked
  | activeEscrowsRemain
  | invalidInterest
  | mathOverflow
  | invalidYieldRate
  | insufficientAccruedYield
  | timestampRegression
  | invalidStrategyCount
  | invalidWeights
  | duplicateStrategy
  | strategyNotFound
  | maxStrategiesExceeded
  | invalidThreshold
  | slippageExceeded
  | emergencyModeActive
  | emergencyModeNotActive
  | insufficientLiquidity
  deriving DecidableEq, Repr

structure StrategyAllocation where
  address : Address
  weightBps : ℕ
  deriving DecidableEq, Repr

structure YieldState where
  index : ℤ
  updatedAt : ℕ
  rateBps : ℕ
  totalPrincipal : ℤ
  deriving DecidableEq, Repr

structure Escrow where
  payer : Address
  beneficiary : Address
  token : Address
  principal : ℤ
  releaseLedger : ℕ
  beneficiaryInterestBps : ℕ
  rewardDebt : ℤ
  released : Bool
  cancelled : Bool
  deriving DecidableEq, Repr

def Escrow.isActive (e : Escrow) : Bool := !e.released && !e.cancelled

structure ReleaseOutcome where
  principal : ℤ
  interest : ℤ
  toBeneficiary : ℤ
  toPayer : ℤ
  deriving DecidableEq, Repr

inductive Event : Type
  | init (admin adapter : Address)
  | adapter (admin adapter : Address)
  | strats (admin : Address) (count : ℕ)
  | regStrat (admin strategy : Address)
  | thresh (admin : Address) (thresholdBps : ℕ)
  | rebal (token : Address) (totalBalance : ℤ) (strategies : ℕ)
  | created (escrowId : ℕ) (payer beneficiary token : Address) (amount : ℤ)
      (releaseLedger beneficiaryInterestBps : ℕ)
  | released (escrowId : ℕ) (principal interest toBeneficiary toPayer : ℤ)
  | cancelled (escrowId : ℕ) (principal interest refund : ℤ)
  | unwind (admin : Address) (recovered minRecoveredAmount : ℤ)
  | emWdr (escrowId : ℕ) (payer : Address) (payout : ℤ)
  deriving DecidableEq, Repr

structure State where
  initialized : Bool := false
  admin : Option Address := none
  adapter : Option Address := none
  strategies : Option (List StrategyAllocation) := none
  rebalanceThreshold : Option ℕ := none
  lastRebalance : Address → Option ℕ := fun _ => none
  activeEscrows : ℕ := 0
  escrow : ℕ → Option Escrow := fun _ => none
  yieldState : Address → Option YieldState := fun _ => none
  tokens : List Address := []
  emergencyVaultMode : Bool := false
  /-- The events so far, the newest first. -/
  history : List Event := []

structure Transfer where
  token : Address
  source : Address
  target : Address
  amount : ℤ
  deriving DecidableEq, Repr

/-- The contract's storage, the transfers it has had tokens make, the newest first, and the rest of
the world. A failed call undoes what it did to each. -/
structure Machine (W : Type) where
  store : State
  transfers : List Transfer
  world : W

/-- The contract's own address, and what the contracts it calls make of the world; `none` where the
call fails. None can call back: the host does not let a contract be entered twice. -/
structure Deployment (W : Type) where
  self : Address
  deposit : (strategy source token : Address) → ℤ → W → Option W
  withdraw : (strategy target token : Address) → ℤ → W → Option W
  harvest : (strategy target token : Address) → W → Option (I128 × W)
  yieldRateBps : (strategy token : Address) → W → Option (U32 × W)
  getBalance : (strategy token : Address) → W → Option (I128 × W)
  balance : (token account : Address) → W → Option (I128 × W)
  transfer : (token source target : Address) → ℤ → W → Option W

structure Env where
  timestamp : ℕ := 0
  sequence : ℕ := 0
  auth : Address → Bool := fun _ => false

def bpsDenominator : ℤ := 10000
def indexScale : ℤ := 1000000000000
def secondsPerYear : ℤ := 31536000
def maxYieldRateBps : ℕ := 100000
def defaultRebalanceThreshold : ℕ := 100
def maxStrategies : ℕ := 4

namespace State

variable (s : State)

/-- The portfolio; storage from before there were portfolios has only the one adapter. -/
def getStrategies : List StrategyAllocation :=
  match s.strategies with
  | some strategies => strategies
  | none =>
    match s.adapter with
    | some adapter => [⟨adapter, 10000⟩]
    | none => []

def getRebalanceThreshold : ℕ := s.rebalanceThreshold.getD defaultRebalanceThreshold

def publish (event : Event) : State := { s with history := event :: s.history }

def setEscrow (escrowId : ℕ) (record : Escrow) : State :=
  { s with escrow := Function.update s.escrow escrowId (some record) }

def setYieldState (token : Address) (state : YieldState) : State :=
  { s with yieldState := Function.update s.yieldState token (some state) }

def setPortfolio (strategies : List StrategyAllocation) : State :=
  { s with
    strategies := some strategies
    adapter := (strategies.head?.map StrategyAllocation.address).or s.adapter }

def recordToken (token : Address) : State :=
  if token ∈ s.tokens then s else { s with tokens := s.tokens ++ [token] }

end State

section Primitives

variable {W α : Type}

def view (f : State → α) : Tx (Machine W) Error α := Tx.read fun m => f m.store

def write (f : State → State) : Tx (Machine W) Error Unit :=
  Tx.update fun m => { m with store := f m.store }

/-- A call to another contract. -/
def ask (f : W → Option (α × W)) : Tx (Machine W) Error α := fun m =>
  match f m.world with
  | some (a, world) => .ok (a, { m with world := world })
  | none => .error .trap

def order (f : W → Option W) : Tx (Machine W) Error Unit :=
  ask fun world => (f world).map fun world => ((), world)

def requireAuth (env : Env) (a : Address) : Tx (Machine W) Error Unit := Tx.demand (env.auth a)

def publish (event : Event) : Tx (Machine W) Error Unit := write fun s => s.publish event

def checked (n : ℤ) : Tx (Machine W) Error ℤ := do
  Tx.reject (¬ FitsI128 n) .mathOverflow
  pure n

variable (d : Deployment W)

def getBalance (strategy token : Address) : Tx (Machine W) Error ℤ := do
  let balance ← ask (d.getBalance strategy token)
  pure balance.val

def yieldRateBps (strategy token : Address) : Tx (Machine W) Error ℕ := do
  let rate ← ask (d.yieldRateBps strategy token)
  pure rate.val

def harvest (strategy token : Address) : Tx (Machine W) Error ℤ := do
  let harvested ← ask (d.harvest strategy d.self token)
  pure harvested.val

def deposit (strategy token : Address) (amount : ℤ) : Tx (Machine W) Error Unit :=
  order (d.deposit strategy d.self token amount)

def withdraw (strategy token : Address) (amount : ℤ) : Tx (Machine W) Error Unit :=
  order (d.withdraw strategy d.self token amount)

def getVaultBalance (token : Address) : Tx (Machine W) Error ℤ := do
  let balance ← ask (d.balance token d.self)
  pure balance.val

def transfer (token source target : Address) (amount : ℤ) : Tx (Machine W) Error Unit := do
  order (d.transfer token source target amount)
  Tx.update fun m => { m with transfers := ⟨token, source, target, amount⟩ :: m.transfers }

end Primitives

end StellarTags.YieldEscrow
