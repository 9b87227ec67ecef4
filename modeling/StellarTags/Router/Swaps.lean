import StellarTags.Router.Payments

/-! Payments settled through DEX contracts: raw, registered, split, batched and multi-hop. -/

namespace StellarTags.Router

open Library.Transactions Library.Integers Library.Tokens Soroban

def validateSwapPath (tokenIn tokenOut : Address) (path : List Address) (minAmountOut : ℤ) :
    Routing Unit := do
  Tx.reject (path = []) .invalidSwapPath
  Tx.reject (path.head? ≠ some tokenIn) .invalidSwapPath
  Tx.reject (path.getLast? ≠ some tokenOut) .invalidSwapPath
  Tx.reject (minAmountOut ≤ 0) .invalidSwapParams

def slippageFloor (expectedAmountOut maxSlippageBps : ℤ) : Routing ℤ := do
  let product ← checkedI128 (expectedAmountOut * maxSlippageBps)
  let floor ← checkedI128 (expectedAmountOut - product.tdiv bpsDivisor)
  pure (if floor < 1 then 1 else floor)

/-- A DEX adapter's `swap`; a call that fails is reported as `SwapFailed`. -/
def invokeDexSwap (h : Host) (env : Env) (dex : Address) : Routing (Address × ℤ) := do
  let reply ← invoke h env dex
  let reply ← Tx.unwrap reply .swapFailed
  pure reply.output

/-- A DEX adapter's `quote`, for a price that nothing is paid at. -/
def invokeDexQuote (h : Host) (env : Env) (dex : Address) : Routing ℤ := do
  let reply ← invoke h env dex
  let reply ← Tx.unwrap reply .swapFailed
  pure reply.quoted

/-- A DEX router's `swap_exact_tokens_for_tokens`: the amounts it reports. -/
def swapExactTokensForTokens (h : Host) (env : Env) (dex : Address) : Routing (List ℤ) := do
  let reply ← invokeContract h env dex
  pure reply.amounts

/-- Pay the fee out of the proceeds and forward the rest, or hold it as the sender's refund. -/
def payOut (h : Host) (env : Env) (sender recipient token platformTreasury : Address)
    (amountOut effectiveFeeBps feeCap : ℤ) : Routing ℤ := do
  let split ← calculateFee amountOut effectiveFeeBps feeCap
  Tx.whenever (0 < split.1)
    (Router.token h env (.transfer token h.self platformTreasury split.1))
  Tx.whenever (0 < split.2) do
    let delivered ← tryToken h env (.transfer token h.self recipient split.2)
    Tx.whenever (delivered = false) (creditRefundBalance sender token split.2)
  pure split.2

/-- The checks of a raw swap, down to the sender's authorisation. -/
def validateSwapRaw (h : Host) (cfg : Settings) (env : Env)
    (sender recipient tokenIn tokenOut : Address) (amountIn : ℤ) (path : List Address)
    (minAmountOut : ℤ) : Routing Unit := do
  requireOpen cfg
  Tx.reject (sender = recipient) .invalidRecipient
  Tx.reject (cfg.blacklist recipient = true) .blacklisted
  validateSwapPath tokenIn tokenOut path minAmountOut
  Tx.reject (amountIn ≤ 0 ∨ cfg.maxAmountOrDefault < amountIn ∨ amountIn < cfg.minLimitOrZero)
    .limitExceeded
  verifyKycForAmount cfg env sender amountIn
  requireAuth h env sender

/-- The two amounts the DEX reports are taken at its word. -/
def routePaymentWithSwapRaw (h : Host) (cfg : Settings) (env : Env)
    (sender recipient dexRouter tokenIn tokenOut : Address) (amountIn : ℤ) (path : List Address)
    (minAmountOut : ℤ) : Routing Unit := do
  validateSwapRaw h cfg env sender recipient tokenIn tokenOut amountIn path minAmountOut
  let fees ← cfg.loadFeeConfig
  token h env (.transfer tokenIn sender dexRouter amountIn)
  let swapResult ← swapExactTokensForTokens h env dexRouter
  match swapResult with
  | [amountReceived, unusedInput] => do
    Tx.reject (amountReceived < minAmountOut ∨ amountReceived ≤ 0 ∨ unusedInput < 0)
      .slippageExceeded
    Tx.whenever (0 < unusedInput)
      (token h env (.transfer tokenIn h.self sender unusedInput))
    processSinglePayment h env sender recipient tokenOut amountReceived fees.1 fees.2.1 fees.2.2
  | _ => Tx.fail .invalidSwapPath

def checkSlippage (cfg : Settings) (swap : SwapPayment) (amountOut : ℤ) : Routing Unit := do
  Tx.reject (amountOut < swap.minAmountOut) .slippageExceeded
  Tx.whenever (0 < swap.expectedAmountOut) do
    let maxSlippageBps ← cfg.pairMaxSlippageBps swap.sellToken swap.buyToken
    let floor ← slippageFloor swap.expectedAmountOut maxSlippageBps
    Tx.reject (amountOut < floor) .slippageExceeded

def validateSwap (cfg : Settings) (env : Env) (swap : SwapPayment) : Routing Unit := do
  Tx.reject (swap.sellToken = swap.buyToken) .invalidSwapParams
  Tx.reject (swap.minAmountOut ≤ 0) .invalidSwapParams
  Tx.reject (swap.deadline ≠ 0 ∧ swap.deadline < env.timestamp) .swapDeadlineExpired
  Tx.reject (cfg.isDexRegisteredInternal swap.dex = false) .dexNotRegistered
  Tx.reject (swap.sender = swap.recipient) .invalidRecipient
  Tx.reject (cfg.blacklist swap.recipient = true) .blacklisted
  Tx.reject (swap.amountIn ≤ 0 ∨ cfg.maxAmountOrDefault < swap.amountIn) .limitExceeded
  Tx.reject (swap.amountIn < cfg.minLimitOrZero) .limitExceeded

def processSingleSwapPayment (h : Host) (cfg : Settings) (env : Env) (swap : SwapPayment)
    (platformTreasury : Address) (feeBps feeCap : ℤ) : Routing ℤ := do
  requireAuth h env swap.sender
  requireSwapsNotPaused cfg
  validateSwap cfg env swap
  let userVolume ← accrueUserRecord env swap.sender swap.amountIn
  let balance ← balanceOf swap.sellToken swap.sender
  Tx.reject (balance < swap.amountIn) .insufficientBalance
  let buyBalanceBefore ← balanceOf swap.buyToken h.self
  token h env (.transfer swap.sellToken swap.sender h.self swap.amountIn)
  token h env (.transfer swap.sellToken h.self swap.dex swap.amountIn)
  let output ← invokeDexSwap h env swap.dex
  Tx.reject (output.1 ≠ swap.buyToken) Error.assetMismatch
  -- The balance delta is authoritative, not what the DEX reports.
  let buyBalanceAfter ← balanceOf swap.buyToken h.self
  let amountOut ← checkedI128 (buyBalanceAfter - buyBalanceBefore)
  checkSlippage cfg swap amountOut
  payOut h env swap.sender swap.recipient swap.buyToken platformTreasury amountOut
    (effectiveFeeBps userVolume feeBps) feeCap

def routePaymentWithSwap (h : Host) (cfg : Settings) (env : Env) (payment : SwapPayment) :
    Routing ℤ :=
  withGuard do
    Tx.reject (cfg.isFrozenInternal = true) .contractFrozen
    requireSwapsNotPaused cfg
    let fees ← cfg.loadFeeConfig
    processSingleSwapPayment h cfg env payment fees.1 fees.2.1 fees.2.2

def routePaymentsWithSwap (h : Host) (cfg : Settings) (env : Env) (payments : List SwapPayment) :
    Routing ℤ :=
  withGuard do
    Tx.reject (cfg.isFrozenInternal = true) .contractFrozen
    requireSwapsNotPaused cfg
    let fees ← cfg.loadFeeConfig
    Tx.fold (fun totalDelivered payment => do
      let delivered ← processSingleSwapPayment h cfg env payment fees.1 fees.2.1 fees.2.2
      checkedI128 (totalDelivered + delivered)) 0 payments

def addSplitWeight (cfg : Settings) (totalWeight : ℕ) (split : SplitRoute) : Routing ℕ := do
  Tx.reject (split.weightBps = 0 ∨ split.minAmountOut ≤ 0) .invalidSwapParams
  Tx.reject (cfg.isDexRegisteredInternal split.dexAddress = false) .dexNotRegistered
  Tx.reject (maxU32 < totalWeight + split.weightBps) .invalidSwapParams
  pure (totalWeight + split.weightBps)

structure SplitProgress where
  totalOut : ℤ := 0
  allocatedIn : ℤ := 0

/-- The last split takes what the others left. -/
def splitShare (amountIn allocatedIn : ℤ) (item : SplitRoute × Bool) : Routing ℤ :=
  if item.2 = true then checkedI128 (amountIn - allocatedIn)
  else do
    let product ← checkedI128 (amountIn * item.1.weightBps)
    pure (product.tdiv totalWeightBps)

def swapSplit (h : Host) (env : Env) (sellToken buyToken : Address) (amountIn : ℤ)
    (progress : SplitProgress) (item : SplitRoute × Bool) : Routing SplitProgress := do
  let split := item.1
  let splitAmountIn ← splitShare amountIn progress.allocatedIn item
  let allocatedIn ← checkedI128 (progress.allocatedIn + splitAmountIn)
  Tx.reject (splitAmountIn ≤ 0) .invalidSwapParams
  let buyBalanceBefore ← balanceOf buyToken h.self
  token h env (.transfer sellToken h.self split.dexAddress splitAmountIn)
  let _ ← invokeDexSwap h env split.dexAddress
  let buyBalanceAfter ← balanceOf buyToken h.self
  let splitOut ← checkedI128 (buyBalanceAfter - buyBalanceBefore)
  Tx.reject (splitOut < split.minAmountOut) .slippageExceeded
  Tx.reject (¬ FitsI128 (progress.totalOut + splitOut)) .limitExceeded
  pure ⟨progress.totalOut + splitOut, allocatedIn⟩

/-- Each split with a mark on the last one, which takes what the others leave. -/
def markLast : List SplitRoute → List (SplitRoute × Bool)
  | [] => []
  | [split] => [(split, true)]
  | split :: splits => (split, false) :: markLast splits

def processSplitPaymentWithSwap (h : Host) (cfg : Settings) (env : Env)
    (sender recipient sellToken buyToken : Address) (amountIn : ℤ) (splits : List SplitRoute)
    (platformTreasury : Address) (feeBps feeCap : ℤ) : Routing ℤ := do
  requireAuth h env sender
  Tx.reject (sellToken = buyToken) .invalidSwapParams
  Tx.reject (splits = []) .invalidSwapParams
  let totalWeight ← Tx.fold (addSplitWeight cfg) 0 splits
  Tx.reject (totalWeight ≠ totalWeightBps) .invalidSwapParams
  Tx.reject (sender = recipient) .invalidRecipient
  Tx.reject (cfg.blacklist recipient = true) .blacklisted
  Tx.reject (amountIn ≤ 0 ∨ cfg.maxAmountOrDefault < amountIn) .limitExceeded
  Tx.reject (amountIn < cfg.minLimitOrZero) .limitExceeded
  let userVolume ← accrueUserRecord env sender amountIn
  let balance ← balanceOf sellToken sender
  Tx.reject (balance < amountIn) .insufficientBalance
  token h env (.transfer sellToken sender h.self amountIn)
  let progress ← Tx.fold (swapSplit h env sellToken buyToken amountIn) {} (markLast splits)
  payOut h env sender recipient buyToken platformTreasury progress.totalOut
    (effectiveFeeBps userVolume feeBps) feeCap

def routeSplitPaymentWithSwap (h : Host) (cfg : Settings) (env : Env)
    (sender recipient sellToken buyToken : Address) (amountIn : ℤ) (splits : List SplitRoute) :
    Routing ℤ :=
  withGuard do
    Tx.reject (cfg.isFrozenInternal = true) .contractFrozen
    requireSwapsNotPaused cfg
    let fees ← cfg.loadFeeConfig
    processSplitPaymentWithSwap h cfg env sender recipient sellToken buyToken amountIn splits
      fees.1 fees.2.1 fees.2.2

structure Hop where
  tokenIn : Address
  tokenOut : Address
  floor : ℤ

def hopsOf (path : List Address) (floors : List ℤ) : List Hop :=
  ((path.zip path.tail).zip floors).map fun leg => ⟨leg.1.1, leg.1.2, leg.2⟩

/-- Both reported amounts are checked against the router's own balances. -/
def swapHop (h : Host) (env : Env) (sender dex : Address) (currentAmount : ℤ) (hop : Hop) :
    Routing ℤ := do
  let inputBefore ← balanceOf hop.tokenIn h.self
  let outputBefore ← balanceOf hop.tokenOut h.self
  token h env (.transfer hop.tokenIn h.self dex currentAmount)
  let result ← swapExactTokensForTokens h env dex
  match result with
  | [reportedOut, reportedUnused] => do
    let inputAfter ← balanceOf hop.tokenIn h.self
    let outputAfter ← balanceOf hop.tokenOut h.self
    let actualUnused ← checkedI128 (inputAfter - (inputBefore - currentAmount))
    let actualOut ← checkedI128 (outputAfter - outputBefore)
    Tx.reject (reportedUnused < 0 ∨ currentAmount < reportedUnused ∨
      actualUnused ≠ reportedUnused ∨ reportedOut ≠ actualOut ∨ actualOut < hop.floor ∨
      actualOut ≤ 0) .slippageExceeded
    Tx.whenever (0 < actualUnused)
      (token h env (.transfer hop.tokenIn h.self sender actualUnused))
    pure actualOut
  | _ => Tx.fail .invalidSwapPath

def routeMultihopSwap (h : Host) (cfg : Settings) (env : Env) (sender recipient dex : Address)
    (amountIn : ℤ) (path : List Address) (floors : List ℤ) : Routing ℤ :=
  withGuard do
    requireOpen cfg
    Tx.reject (sender = recipient) .invalidRecipient
    Tx.reject (cfg.blacklist recipient = true) .blacklisted
    let hopCount := path.length - 1
    Tx.reject (hopCount < 2 ∨ 4 < hopCount ∨ floors.length ≠ hopCount) .invalidSwapPath
    Tx.reject (¬ path.Nodup) .cyclicSwapPath
    Tx.reject (∃ floor ∈ floors, floor ≤ 0) .invalidSwapParams
    Tx.reject (cfg.isDexRegisteredInternal dex = false) .dexNotRegistered
    Tx.reject (amountIn ≤ 0 ∨ cfg.maxAmountOrDefault < amountIn ∨ amountIn < cfg.minLimitOrZero)
      .limitExceeded
    verifyKycForAmount cfg env sender amountIn
    requireAuth h env sender
    checkRateLimit cfg env sender
    let fees ← cfg.loadFeeConfig
    let userVolume ← accrueUserRecord env sender amountIn
    let firstToken ← Tx.unwrap path.head? .invalidSwapPath
    let balance ← balanceOf firstToken sender
    Tx.reject (balance < amountIn) .insufficientBalance
    token h env (.transfer firstToken sender h.self amountIn)
    let currentAmount ← Tx.fold (swapHop h env sender dex) amountIn (hopsOf path floors)
    let finalToken ← Tx.unwrap path.getLast? .invalidSwapPath
    let remainder ← payOut h env sender recipient finalToken fees.1 currentAmount
      (effectiveFeeBps userVolume fees.2.1) fees.2.2
    bumpHeartbeat cfg env
    pure remainder

structure SwapQuote where
  amountOut : ℤ
  minAmountOut : ℤ
  maxSlippageBps : ℤ
  deriving DecidableEq, Repr

def quoteSwap (h : Host) (cfg : Settings) (env : Env) (dex sellToken buyToken : Address) :
    Routing SwapQuote := do
  Tx.reject (cfg.isDexRegisteredInternal dex = false) .dexNotRegistered
  let amountOut ← invokeDexQuote h env dex
  Tx.reject (amountOut ≤ 0) .invalidSwapParams
  let maxSlippageBps ← cfg.pairMaxSlippageBps sellToken buyToken
  let minAmountOut ← slippageFloor amountOut maxSlippageBps
  pure ⟨amountOut, minAmountOut, maxSlippageBps⟩

end StellarTags.Router
