import StellarTags.YieldEscrow.State

/-! The yield escrow's entry points: the portfolio, the life of an escrow, the emergency exit. -/

namespace StellarTags.YieldEscrow

open Library.Transactions Library.Integers Soroban

variable {W : Type} (d : Deployment W)

section Access

def requireInitialized : Tx (Machine W) Error Unit := do
  let initialized ← view State.initialized
  Tx.reject (initialized = false) .notInitialized

def requireAdmin (env : Env) : Tx (Machine W) Error Address := do
  let stored ← view State.admin
  let admin ← Tx.unwrap stored .notInitialized
  requireAuth env admin
  pure admin

def rejectEmergency : Tx (Machine W) Error Unit := do
  let emergency ← view State.emergencyVaultMode
  Tx.reject (emergency = true) .emergencyModeActive

/-- The administrator, outside emergencies. -/
def requireManager (env : Env) : Tx (Machine W) Error Address := do
  let admin ← requireAdmin env
  rejectEmergency
  pure admin

def addActive : Tx (Machine W) Error Unit := do
  let active ← view State.activeEscrows
  Tx.reject (maxU32 < active + 1) .mathOverflow
  write fun s => { s with activeEscrows := active + 1 }

def subActive : Tx (Machine W) Error Unit := do
  let active ← view State.activeEscrows
  Tx.reject (active < 1) .mathOverflow
  write fun s => { s with activeEscrows := active - 1 }

end Access

section Portfolio

def initializeEscrow (env : Env) (admin adapter : Address) : Tx (Machine W) Error Unit := do
  let initialized ← view State.initialized
  Tx.reject (initialized = true) .alreadyInitialized
  requireAuth env admin
  write fun s => { s with
    initialized := true
    admin := some admin
    adapter := some adapter
    strategies := some [⟨adapter, 10000⟩]
    activeEscrows := 0
    emergencyVaultMode := false
    tokens := [] }
  publish (.init admin adapter)

def setAdapter (env : Env) (adapter : Address) : Tx (Machine W) Error Unit := do
  let admin ← requireManager env
  let active ← view State.activeEscrows
  Tx.reject (active ≠ 0) .activeEscrowsRemain
  write fun s => s.setPortfolio [⟨adapter, 10000⟩]
  publish (.adapter admin adapter)

def totalWeight (total : ℕ) : List StrategyAllocation → Tx (Machine W) Error ℕ
  | [] => pure total
  | strategy :: rest => do
    Tx.reject (strategy.weightBps = 0) .invalidWeights
    Tx.reject (maxU32 < total + strategy.weightBps) .mathOverflow
    Tx.reject (strategy.address ∈ rest.map StrategyAllocation.address) .duplicateStrategy
    totalWeight (total + strategy.weightBps) rest

def validateStrategies (strategies : List StrategyAllocation) : Tx (Machine W) Error Unit := do
  Tx.reject (strategies.length = 0) .invalidStrategyCount
  Tx.reject (maxStrategies < strategies.length) .maxStrategiesExceeded
  let total ← totalWeight 0 strategies
  Tx.reject ((total : ℤ) ≠ bpsDenominator) .invalidWeights

def sameStrategyAddresses (current strategies : List StrategyAllocation) : Bool :=
  current.length == strategies.length &&
    current.all fun s => decide (s.address ∈ strategies.map StrategyAllocation.address)

def setStrategies (env : Env) (strategies : List StrategyAllocation) :
    Tx (Machine W) Error Unit := do
  let admin ← requireManager env
  let active ← view State.activeEscrows
  let current ← view State.getStrategies
  Tx.reject (active ≠ 0 ∧ sameStrategyAddresses current strategies = false) .activeEscrowsRemain
  validateStrategies strategies
  write fun s => s.setPortfolio strategies
  publish (.strats admin strategies.length)

def reweigh (strategy : Address) (weightBps : ℕ) (current : List StrategyAllocation) :
    List StrategyAllocation :=
  current.map fun s => if s.address = strategy then ⟨strategy, weightBps⟩ else s

def registerStrategy (env : Env) (strategy : Address) (weightBps : ℕ) :
    Tx (Machine W) Error Unit := do
  let admin ← requireManager env
  Tx.reject (weightBps = 0 ∨ bpsDenominator < weightBps) .invalidWeights
  let current ← view State.getStrategies
  let found := decide (strategy ∈ current.map StrategyAllocation.address)
  let active ← view State.activeEscrows
  Tx.reject (found = false ∧ active ≠ 0) .activeEscrowsRemain
  Tx.reject (found = false ∧ maxStrategies ≤ current.length) .maxStrategiesExceeded
  let strategies := if found then reweigh strategy weightBps current
    else reweigh strategy weightBps current ++ [⟨strategy, weightBps⟩]
  validateStrategies strategies
  write fun s => s.setPortfolio strategies
  publish (.regStrat admin strategy)

def setRebalanceThreshold (env : Env) (thresholdBps : ℕ) : Tx (Machine W) Error Unit := do
  let admin ← requireManager env
  Tx.reject (bpsDenominator < thresholdBps) .invalidThreshold
  write fun s => { s with rebalanceThreshold := some thresholdBps }
  publish (.thresh admin thresholdBps)

end Portfolio

section Allocation

def strategyBalances (token : Address) (strategies : List StrategyAllocation) :
    Tx (Machine W) Error (List ℤ × ℤ) :=
  Tx.fold (fun (found : List ℤ × ℤ) strategy => do
    let balance ← getBalance d strategy.address token
    let total ← checked (found.2 + balance)
    pure (found.1 ++ [balance], total)) ([], 0) strategies

/-- The amount in proportion to the parts of a whole, each share rounded, and all that is shared. -/
def allocate (amount whole : ℤ) (parts : List ℤ) : Tx (Machine W) Error (List ℤ × ℤ) :=
  Tx.fold (fun (shared : List ℤ × ℤ) part => do
    let product ← checked (amount * part)
    let allocated ← checked (shared.2 + product.tdiv whole)
    pure (shared.1 ++ [product.tdiv whole], allocated)) ([], 0) parts

/-- The first shares get one unit each of what rounding left over. -/
def topUp (remainder share : ℤ) (i : ℕ) : Tx (Machine W) Error ℤ :=
  if (i : ℤ) < remainder then checkedI128 (share + 1) else pure share

def weights (strategies : List StrategyAllocation) : List ℤ :=
  strategies.map fun s => (s.weightBps : ℤ)

def depositShares (token : Address) (remainder : ℤ) (shares : List ((StrategyAllocation × ℤ) × ℕ)) :
    Tx (Machine W) Error Unit :=
  Tx.forEach (fun share => do
    let amount ← topUp remainder share.1.2 share.2
    Tx.whenever (0 < amount) (deposit d share.1.1.address token amount)) shares

def finalTargets (remainder : ℤ) (targets : List ℤ) : Tx (Machine W) Error (List ℤ) :=
  Tx.fold (fun final share => do
    let target ← topUp remainder share.1 share.2
    pure (final ++ [target])) [] targets.zipIdx

end Allocation

section Rebalancing

/-- Whether a strategy's part of the total is off its weight by the threshold. -/
def drifted (threshold total : ℤ) : List (StrategyAllocation × ℤ) → Tx (Machine W) Error Bool
  | [] => pure false
  | (strategy, balance) :: rest => do
    let product ← checked (balance * bpsDenominator)
    let current := product.tdiv total
    let target : ℤ := strategy.weightBps
    let drift ← checkedI128 (if target ≤ current then current - target else target - current)
    if threshold ≤ drift then pure true else drifted threshold total rest

def checkRebalanceNeeded (token : Address) : Tx (Machine W) Error Bool := do
  requireInitialized
  let emergency ← view State.emergencyVaultMode
  let strategies ← view State.getStrategies
  if emergency = true ∨ strategies.length ≤ 1 then pure false
  else
    let threshold ← view State.getRebalanceThreshold
    let (balances, total) ← strategyBalances d token strategies
    if total ≤ 0 then pure false else drifted threshold total (strategies.zip balances)

def withdrawSurplus (token : Address) (positions : List (StrategyAllocation × ℤ × ℤ)) :
    Tx (Machine W) Error Unit :=
  Tx.forEach (fun position =>
    Tx.whenever (position.2.2 < position.2.1) do
      let excess ← checkedI128 (position.2.1 - position.2.2)
      withdraw d position.1.address token excess) positions

def depositDeficit (token : Address) (positions : List (StrategyAllocation × ℤ × ℤ)) :
    Tx (Machine W) Error Unit :=
  Tx.forEach (fun position =>
    Tx.whenever (position.2.1 < position.2.2) do
      let deficit ← checkedI128 (position.2.2 - position.2.1)
      deposit d position.1.address token deficit) positions

def rebalance (env : Env) (token : Address) : Tx (Machine W) Error Unit := do
  requireInitialized
  rejectEmergency
  let strategies ← view State.getStrategies
  Tx.whenever (1 < strategies.length) do
    let (balances, total) ← strategyBalances d token strategies
    Tx.whenever (0 < total) do
      let (targets, allocated) ← allocate total bpsDenominator (weights strategies)
      let remainder ← checkedI128 (total - allocated)
      let final ← finalTargets remainder targets
      let positions := strategies.zip (balances.zip final)
      withdrawSurplus d token positions
      depositDeficit d token positions
      write fun s => { s with
        lastRebalance := Function.update s.lastRebalance token (some env.sequence) }
      publish (.rebal token total strategies.length)

end Rebalancing

section Yield

def getWeightedYieldRate (token : Address) : Tx (Machine W) Error ℕ := do
  let strategies ← view State.getStrategies
  if strategies = [] then
    let stored ← view State.adapter
    let adapter ← Tx.unwrap stored .notInitialized
    yieldRateBps d adapter token
  else
    -- Rates and weights are small, so that the sum of 128 bits cannot overflow.
    let total ← Tx.fold (fun (total : ℕ) strategy => do
      let rate ← yieldRateBps d strategy.address token
      Tx.reject (maxYieldRateBps < rate) .invalidYieldRate
      Tx.reject (2 ^ 128 ≤ total + rate * strategy.weightBps) .mathOverflow
      pure (total + rate * strategy.weightBps)) 0 strategies
    pure (total / 10000 % 2 ^ 32)

/-- The rate, if it is one the index can grow by. -/
def currentYieldRate (token : Address) : Tx (Machine W) Error ℕ := do
  let rate ← getWeightedYieldRate d token
  Tx.reject (maxYieldRateBps < rate) .invalidYieldRate
  pure rate

def updateYieldState (env : Env) (token : Address) : Tx (Machine W) Error YieldState := do
  let stored ← view fun s => s.yieldState token
  let state := stored.getD ⟨0, env.timestamp, 0, 0⟩
  Tx.reject (env.timestamp < state.updatedAt) .timestampRegression
  let elapsed : ℕ := env.timestamp - state.updatedAt
  let yearly ← checked (indexScale * state.rateBps)
  let grown ← checked (yearly * elapsed)
  let index ← checked (state.index + grown.tdiv (secondsPerYear * bpsDenominator))
  let rate ← currentYieldRate d token
  let updated : YieldState := ⟨index, env.timestamp, rate, state.totalPrincipal⟩
  write fun s => s.setYieldState token updated
  pure updated

def getYieldState (env : Env) (token : Address) : Tx (Machine W) Error YieldState := do
  requireInitialized
  updateYieldState d env token

def positionYield (record : Escrow) (state : YieldState) : Tx (Machine W) Error ℤ := do
  let delta ← checked (state.index - record.rewardDebt)
  let product ← checked (record.principal * delta)
  pure (product.tdiv indexScale)

/-- In an emergency nothing accrues. -/
def nextYieldRate (token : Address) (isEmergency : Bool) : Tx (Machine W) Error ℕ :=
  if isEmergency then pure 0 else currentYieldRate d token

def removeActivePrincipalInternal (token : Address) (principal : ℤ) (isEmergency : Bool) :
    Tx (Machine W) Error Unit := do
  let stored ← view fun s => s.yieldState token
  let state ← Tx.unwrap stored .notInitialized
  let total ← checked (state.totalPrincipal - principal)
  let rate ← nextYieldRate d token isEmergency
  write fun s => s.setYieldState token { state with totalPrincipal := total, rateBps := rate }

def splitInterest (principal interest : ℤ) (beneficiaryBps : ℕ) : Tx (Machine W) Error (ℤ × ℤ) := do
  let product ← checked (interest * beneficiaryBps)
  let beneficiaryInterest := product.tdiv bpsDenominator
  let toBeneficiary ← checkedI128 (principal + beneficiaryInterest)
  let toPayer ← checkedI128 (interest - beneficiaryInterest)
  pure (toBeneficiary, toPayer)

end Yield

section Lifecycle

def createEscrow (env : Env) (escrowId : ℕ) (payer beneficiary token : Address) (amount : ℤ)
    (releaseLedger beneficiaryInterestBps : ℕ) : Tx (Machine W) Error Unit := do
  requireInitialized
  rejectEmergency
  Tx.reject (amount ≤ 0) .invalidAmount
  Tx.reject (releaseLedger ≤ env.sequence) .invalidReleaseLedger
  Tx.reject (bpsDenominator < beneficiaryInterestBps) .invalidInterestSplit
  requireAuth env payer
  let stored ← view fun s => s.escrow escrowId
  Tx.reject (stored.isSome = true) .escrowExists
  let strategies ← view State.getStrategies
  let yieldState ← updateYieldState d env token
  write fun s => s.recordToken token
  transfer d token payer d.self amount
  let (shares, allocated) ← allocate amount bpsDenominator (weights strategies)
  let remainder ← checkedI128 (amount - allocated)
  depositShares d token remainder (strategies.zip shares).zipIdx
  let total ← checked (yieldState.totalPrincipal + amount)
  -- The rate is asked again, with this position counted.
  let rate ← currentYieldRate d token
  write fun s => s.setYieldState token { yieldState with totalPrincipal := total, rateBps := rate }
  addActive
  write fun s => s.setEscrow escrowId
    { payer, beneficiary, token, principal := amount, releaseLedger, beneficiaryInterestBps
      rewardDebt := yieldState.index, released := false, cancelled := false }
  publish (.created escrowId payer beneficiary token amount releaseLedger beneficiaryInterestBps)

/-- Withdraw each strategy's share of a position, and harvest all of its interest. -/
def redeemShares (token : Address) (remainder : ℤ) (shares : List ((StrategyAllocation × ℤ) × ℕ)) :
    Tx (Machine W) Error ℤ :=
  Tx.fold (fun interest share => do
    let amount ← topUp remainder share.1.2 share.2
    Tx.whenever (0 < amount) (withdraw d share.1.1.address token amount)
    let harvested ← harvest d share.1.1.address token
    Tx.reject (harvested < 0) .invalidInterest
    checked (interest + harvested)) 0 shares

/-- A position is spread as the strategies' balances are, or as their weights if they have none. -/
def redemption (principal total : ℤ) (strategies : List StrategyAllocation) (balances : List ℤ) :
    Tx (Machine W) Error (List ℤ × ℤ) :=
  if 0 < total then allocate principal total balances
  else allocate principal bpsDenominator (weights strategies)

def redeemPosition (record : Escrow) : Tx (Machine W) Error (ℤ × ℤ) := do
  let strategies ← view State.getStrategies
  let (balances, total) ← strategyBalances d record.token strategies
  let (shares, allocated) ← redemption record.principal total strategies balances
  let remainder ← checkedI128 (record.principal - allocated)
  let interest ← redeemShares d record.token remainder (strategies.zip shares).zipIdx
  pure (record.principal, interest)

def activeEscrow (escrowId : ℕ) : Tx (Machine W) Error Escrow := do
  let stored ← view fun s => s.escrow escrowId
  let record ← Tx.unwrap stored .escrowNotFound
  Tx.reject (record.isActive = false) .escrowNotActive
  pure record

/-- A position's principal and interest, once both are in the vault. -/
def redeem (env : Env) (record : Escrow) : Tx (Machine W) Error (ℤ × ℤ) := do
  let yieldState ← updateYieldState d env record.token
  let (principal, harvested) ← redeemPosition d record
  let interest ← positionYield record yieldState
  Tx.reject (harvested < interest) .insufficientAccruedYield
  pure (principal, interest)

def payOut (token target : Address) (amount : ℤ) : Tx (Machine W) Error Unit :=
  Tx.whenever (0 < amount) (transfer d token d.self target amount)

/-- The vault's liquidity for the principal. -/
def liquidity (record : Escrow) : Tx (Machine W) Error ℤ := do
  let vault ← getVaultBalance d record.token
  pure (min vault record.principal)

/-- Store the settled record, and take the principal off the books. -/
def close (escrowId : ℕ) (record : Escrow) (principal : ℤ) : Tx (Machine W) Error Unit := do
  let isEmergency ← view State.emergencyVaultMode
  removeActivePrincipalInternal d record.token principal isEmergency
  write fun s => s.setEscrow escrowId record
  subActive

def release (env : Env) (escrowId : ℕ) : Tx (Machine W) Error ReleaseOutcome := do
  requireInitialized
  let record ← activeEscrow escrowId
  let isEmergency ← view State.emergencyVaultMode
  Tx.reject (isEmergency = false ∧ env.sequence < record.releaseLedger) .notYetReleasable
  if isEmergency then
    let payout ← liquidity d record
    payOut d record.token record.beneficiary payout
    close d escrowId { record with released := true } record.principal
    publish (.released escrowId payout 0 payout 0)
    pure ⟨payout, 0, payout, 0⟩
  else
    let (principal, interest) ← redeem d env record
    let (toBeneficiary, toPayer) ← splitInterest principal interest record.beneficiaryInterestBps
    payOut d record.token record.beneficiary toBeneficiary
    payOut d record.token record.payer toPayer
    close d escrowId { record with released := true } principal
    publish (.released escrowId principal interest toBeneficiary toPayer)
    pure ⟨principal, interest, toBeneficiary, toPayer⟩

def cancel (env : Env) (escrowId : ℕ) : Tx (Machine W) Error ReleaseOutcome := do
  requireInitialized
  let record ← activeEscrow escrowId
  let isEmergency ← view State.emergencyVaultMode
  Tx.reject (isEmergency = false ∧ record.releaseLedger ≤ env.sequence) .stillLocked
  requireAuth env record.payer
  if isEmergency then
    let refund ← liquidity d record
    payOut d record.token record.payer refund
    close d escrowId { record with cancelled := true } record.principal
    publish (.cancelled escrowId refund 0 refund)
    pure ⟨refund, 0, 0, refund⟩
  else
    let (principal, interest) ← redeem d env record
    let refund ← checkedI128 (principal + interest)
    payOut d record.token record.payer refund
    close d escrowId { record with cancelled := true } principal
    publish (.cancelled escrowId principal interest refund)
    pure ⟨principal, interest, 0, refund⟩

end Lifecycle

section Emergency

def unwindTokenFromStrategies (token : Address) (strategies : List StrategyAllocation) :
    Tx (Machine W) Error ℤ := do
  let before ← getVaultBalance d token
  Tx.forEach (fun strategy => do
    let balance ← getBalance d strategy.address token
    Tx.whenever (0 < balance) (withdraw d strategy.address token balance)
    Tx.void (harvest d strategy.address token)) strategies
  let after ← getVaultBalance d token
  checked (after - before)

/-- No yield accrues on the token from now on. -/
def State.halt (env : Env) (s : State) (token : Address) : State :=
  match s.yieldState token with
  | some state => s.setYieldState token { state with rateBps := 0, updatedAt := env.timestamp }
  | none => s

/-- The administrator, with a bound on what may be lost. -/
def requireUnwinder (env : Env) (minRecoveredAmount : ℤ) : Tx (Machine W) Error Address := do
  requireInitialized
  let admin ← requireAdmin env
  Tx.reject (minRecoveredAmount < 0) .invalidAmount
  rejectEmergency
  pure admin

def emergencyUnwindStrategy (env : Env) (minRecoveredAmount : ℤ) : Tx (Machine W) Error ℤ := do
  let admin ← requireUnwinder env minRecoveredAmount
  let strategies ← view State.getStrategies
  let tokens ← view State.tokens
  let total ← Tx.fold (fun total token => do
    let recovered ← unwindTokenFromStrategies d token strategies
    checked (total + recovered)) 0 tokens
  Tx.reject (total < minRecoveredAmount) .slippageExceeded
  write fun s => { s with emergencyVaultMode := true }
  write fun s => tokens.foldl (State.halt env) s
  publish (.unwind admin total minRecoveredAmount)
  pure total

def emergencyUnwindToken (env : Env) (token : Address) (minRecoveredAmount : ℤ) :
    Tx (Machine W) Error ℤ := do
  let admin ← requireUnwinder env minRecoveredAmount
  write fun s => s.recordToken token
  let strategies ← view State.getStrategies
  let recovered ← unwindTokenFromStrategies d token strategies
  Tx.reject (recovered < minRecoveredAmount) .slippageExceeded
  write fun s => { s with emergencyVaultMode := true }
  write fun s => s.halt env token
  publish (.unwind admin recovered minRecoveredAmount)
  pure recovered

def emergencyWithdrawPrincipal (env : Env) (escrowId : ℕ) : Tx (Machine W) Error ℤ := do
  requireInitialized
  let emergency ← view State.emergencyVaultMode
  Tx.reject (emergency = false) .emergencyModeNotActive
  let record ← activeEscrow escrowId
  requireAuth env record.payer
  let payout ← liquidity d record
  Tx.reject (payout ≤ 0) .insufficientLiquidity
  transfer d record.token d.self record.payer payout
  close d escrowId { record with cancelled := true } record.principal
  publish (.emWdr escrowId record.payer payout)
  pure payout

def emergencyWithdraw (env : Env) (escrowId : ℕ) : Tx (Machine W) Error ℤ :=
  emergencyWithdrawPrincipal d env escrowId

end Emergency

end StellarTags.YieldEscrow
