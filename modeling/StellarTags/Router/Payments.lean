import StellarTags.Router.Accounting

/-! Direct payments, signed payments, maker quotes and the refunds of failed deliveries. -/

namespace StellarTags.Router

open Library.Transactions Library.Integers Library.Tokens Soroban

def buildMetaMessage (h : Host) (sender : Address) (signerPubkey : PublicKey)
    (recipient tokenAddress : Address) (amount : ℤ) (nonce deadline : ℕ) : Bytes :=
  let payload :=
    h.xdr (.address h.self) ++ h.xdr (.address sender) ++ h.keyBytes signerPubkey ++
      h.xdr (.address recipient) ++ h.xdr (.address tokenAddress) ++ h.xdr (.i128 amount) ++
      h.xdr (.u64 nonce) ++ h.xdr (.u64 deadline)
  h.hashBytes (h.sha256 payload)

def Quote.toVal (q : Quote) : Val :=
  .struct .quote [.i128 q.amountIn, .i128 q.amountOut, .u64 q.expiresAt, .address q.maker,
    .text q.quoteId, .address q.tokenIn, .address q.tokenOut]

def buildQuoteMessage (h : Host) (sender recipient : Address) (quote : Quote)
    (makerPubkey : PublicKey) : Bytes :=
  let payload :=
    h.xdr (.address h.self) ++ h.xdr (.address sender) ++ h.xdr (.address recipient) ++
      h.xdr quote.toVal ++ h.keyBytes makerPubkey
  h.hashBytes (h.sha256 payload)

/-- Deliver the remainder, or hold it in the router as the sender's refund. -/
def deliver (h : Host) (env : Env) (sender token : Address) (remainder : ℤ)
    (toRecipient toRouter : TokenCall Address Address) : Routing Unit :=
  Tx.whenever (0 < remainder) do
    let delivered ← tryToken h env toRecipient
    Tx.whenever (delivered = false) do
      let held ← tryToken h env toRouter
      Tx.reject (held = false) .limitExceeded
      creditRefundBalance sender token remainder

def processSinglePayment (h : Host) (env : Env) (sender recipient tokenAddress : Address)
    (amount : ℤ) (platformTreasury : Address) (feeBps feeCap : ℤ) : Routing Unit := do
  let userVolume ← accrueUserRecord env sender amount
  let bps := effectiveFeeBps userVolume feeBps
  let balance ← balanceOf tokenAddress sender
  Tx.reject (balance < amount) .insufficientBalance
  let feeAmount := capFee ((saturateI128 (amount * bps)).tdiv bpsDivisor) feeCap amount
  let remainder ← checkedI128 (amount - feeAmount)
  Tx.whenever (0 < feeAmount) do
    let paid ← tryToken h env (.transfer tokenAddress sender platformTreasury feeAmount)
    Tx.reject (paid = false) .limitExceeded
  deliver h env sender tokenAddress remainder
    (.transfer tokenAddress sender recipient remainder)
    (.transfer tokenAddress sender h.self remainder)

def processSinglePaymentNoAuth (h : Host) (cfg : Settings) (env : Env)
    (sender recipient tokenAddress : Address) (amount : ℤ) (platformTreasury : Address)
    (feeBps feeCap : ℤ) : Routing Unit := do
  Tx.reject (sender = recipient) .invalidRecipient
  Tx.reject (cfg.blacklist recipient = true) .blacklisted
  Tx.reject (amount ≤ 0 ∨ cfg.maxAmountOrDefault < amount) .limitExceeded
  Tx.reject (amount < cfg.minLimitOrZero) .limitExceeded
  verifyKycForAmount cfg env sender amount
  let userVolume ← accrueUserRecord env sender amount
  let bps := effectiveFeeBps userVolume feeBps
  let balance ← balanceOf tokenAddress sender
  Tx.reject (balance < amount) .insufficientBalance
  let allowance ← Tx.read fun t => t.tokens.allowance tokenAddress sender h.self
  Tx.reject (allowance < amount) .insufficientBalance
  -- `checked_mul(..).unwrap_or(amount)`
  let feeProduct := if FitsI128 (amount * bps) then amount * bps else amount
  let feeAmount := capFee (feeProduct.tdiv bpsDivisor) feeCap amount
  let remainder ← checkedI128 (amount - feeAmount)
  Tx.whenever (0 < feeAmount) do
    let paid ← tryToken h env
      (.transferFrom tokenAddress h.self sender platformTreasury feeAmount)
    Tx.reject (paid = false) .limitExceeded
  deliver h env sender tokenAddress remainder
    (.transferFrom tokenAddress h.self sender recipient remainder)
    (.transferFrom tokenAddress h.self sender h.self remainder)

def requireOpen (cfg : Settings) : Routing Unit := do
  Tx.reject (cfg.isFrozenInternal = true) .contractFrozen
  requireNotFullyHalted cfg

/-- The checks of one payment that need no authorisation. -/
def validatePayment (cfg : Settings) (env : Env) (sender recipient : Address) (amount : ℤ) :
    Routing Unit := do
  Tx.reject (sender = recipient) .invalidRecipient
  Tx.reject (cfg.blacklist recipient = true) .blacklisted
  Tx.reject (amount ≤ 0 ∨ cfg.maxAmountOrDefault < amount) .limitExceeded
  Tx.reject (amount < cfg.minLimitOrZero) .limitExceeded
  verifyKycForAmount cfg env sender amount

def routePayment (h : Host) (cfg : Settings) (env : Env) (payment : Payment) : Routing Unit :=
  withGuard do
    requireOpen cfg
    validatePayment cfg env payment.sender payment.recipient payment.amount
    requireAuth h env payment.sender
    checkRateLimit cfg env payment.sender
    let fees ← cfg.loadFeeConfig
    processSinglePayment h env payment.sender payment.recipient payment.tokenAddress
      payment.amount fees.1 fees.2.1 fees.2.2
    bumpHeartbeat cfg env

/-- Each distinct sender is asked for its authorisation once. -/
def admitPayment (h : Host) (cfg : Settings) (env : Env) (seenSenders : List Address)
    (payment : Payment) : Routing (List Address) := do
  validatePayment cfg env payment.sender payment.recipient payment.amount
  checkRateLimit cfg env payment.sender
  if payment.sender ∈ seenSenders then pure seenSenders
  else do
    requireAuth h env payment.sender
    pure (seenSenders ++ [payment.sender])

def routePayments (h : Host) (cfg : Settings) (env : Env) (payments : List Payment) :
    Routing Unit :=
  withGuard do
    requireOpen cfg
    let _ ← Tx.fold (admitPayment h cfg env) [] payments
    let fees ← cfg.loadFeeConfig
    bumpHeartbeat cfg env
    Tx.forEach (fun payment =>
      processSinglePayment h env payment.sender payment.recipient payment.tokenAddress
        payment.amount fees.1 fees.2.1 fees.2.2) payments
    bumpHeartbeat cfg env

def routePaymentMeta (h : Host) (cfg : Settings) (env : Env) (payment : Payment)
    (signerPubkey : PublicKey) (nonce deadline : ℕ) (signature : Signature) : Routing Unit :=
  withGuard do
    requireOpen cfg
    let fees ← cfg.loadFeeConfig
    Tx.reject (deadline < env.timestamp) .deadlineExpired
    let stored ← Tx.read fun t => t.metaNonceOf payment.sender
    Tx.reject (stored ≠ nonce) .invalidNonce
    let message := buildMetaMessage h payment.sender signerPubkey payment.recipient
      payment.tokenAddress payment.amount nonce deadline
    Tx.demand (h.ed25519Verify signerPubkey message signature = true)
    let next ← addU64 nonce 1
    Tx.update fun t =>
      { t with metaNonce := Function.update t.metaNonce payment.sender (some next) }
    processSinglePaymentNoAuth h cfg env payment.sender payment.recipient payment.tokenAddress
      payment.amount fees.1 fees.2.1 fees.2.2

def routePaymentWithQuote (h : Host) (cfg : Settings) (env : Env) (sender recipient : Address)
    (quote : Quote) (makerPubkey : PublicKey) (signature : Signature) : Routing ℤ :=
  withGuard do
    requireOpen cfg
    Tx.reject (sender = recipient) .invalidRecipient
    Tx.reject (cfg.blacklist recipient = true) .blacklisted
    Tx.reject (quote.tokenIn = quote.tokenOut ∨ quote.amountIn ≤ 0 ∨ quote.amountOut ≤ 0 ∨
      quote.quoteId = "") .invalidSwapParams
    Tx.reject (quote.expiresAt < env.timestamp) Error.quoteExpired
    let used ← Tx.read fun t => t.usedQuote quote.maker quote.quoteId
    Tx.reject (used = true) Error.quoteAlreadyUsed
    Tx.reject (cfg.maxAmountOrDefault < quote.amountIn ∨ quote.amountIn < cfg.minLimitOrZero)
      .limitExceeded
    verifyKycForAmount cfg env sender quote.amountIn
    let _ ← cfg.loadFeeConfig
    let message := buildQuoteMessage h sender recipient quote makerPubkey
    Tx.demand (h.ed25519Verify makerPubkey message signature = true)
    requireAuth h env sender
    requireAuth h env quote.maker
    checkRateLimit cfg env sender
    let inputBalance ← balanceOf quote.tokenIn sender
    let outputBalance ← balanceOf quote.tokenOut quote.maker
    Tx.reject (inputBalance < quote.amountIn ∨ outputBalance < quote.amountOut)
      .insufficientBalance
    let _ ← accrueUserRecord env sender quote.amountIn
    Tx.update fun t => t.markQuote quote.maker quote.quoteId
    token h env (.transfer quote.tokenIn sender quote.maker quote.amountIn)
    token h env (.transfer quote.tokenOut quote.maker recipient quote.amountOut)
    bumpHeartbeat cfg env
    pure quote.amountOut

def withdrawRefund (h : Host) (env : Env) (user tokenAddress : Address) (amount : ℤ) :
    Routing Unit := do
  requireAuth h env user
  Tx.reject (amount ≤ 0) .noRefundAvailable
  let currentBalance ← Tx.read fun t => t.refund user tokenAddress
  Tx.reject (currentBalance < amount) .noRefundAvailable
  let newBalance := currentBalance - amount
  Tx.update fun t => (t.setRefundBalance user tokenAddress
    (if 0 < newBalance then some newBalance else none)).publish
      (.withdrawn user tokenAddress amount)
  token h env (.transfer tokenAddress h.self user amount)

def claimAllRefunds (h : Host) (env : Env) (user tokenAddress : Address) : Routing ℤ := do
  requireAuth h env user
  let currentBalance ← Tx.read fun t => t.refund user tokenAddress
  Tx.reject (currentBalance ≤ 0) .noRefundAvailable
  withdrawRefund h env user tokenAddress currentBalance
  pure currentBalance

end StellarTags.Router
