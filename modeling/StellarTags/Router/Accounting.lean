import StellarTags.Router.Access

/-! Sender records, limits, fees, refund credits and the calls into token contracts. -/

namespace StellarTags.Router

open Library.Transactions Library.Integers Library.Tokens Soroban

/-- Payments read the settings of the ledger they run in and write only the traffic. -/
abbrev Routing := Tx Traffic Error

namespace Settings

def maxAmountOrDefault (cfg : Settings) : ℤ := cfg.maxAmount.getD maxAmountDefault

def minLimitOrZero (cfg : Settings) : ℤ := cfg.minLimit.getD 0

def rateLimitRaw (cfg : Settings) : ℕ := cfg.rateLimitConfig.getD defaultRateLimit

def maxSlippageBpsOrDefault (cfg : Settings) : ℤ := cfg.maxSlippageBps.getD defaultMaxSlippageBps

def loadFeeConfig {σ : Type} (cfg : Settings) : Tx σ Error (Address × ℤ × ℤ) := do
  let platformTreasury ← Tx.unwrap cfg.platformTreasury .notInitialized
  let feeBps ← Tx.unwrap cfg.feeBps .notInitialized
  let feeCap ← Tx.unwrap cfg.feeCap .notInitialized
  pure (platformTreasury, feeBps, feeCap)

def pairMaxSlippageBps {σ : Type} (cfg : Settings) (tokenIn tokenOut : Address) :
    Tx σ Error ℤ :=
  match cfg.pairSlippage tokenIn tokenOut with
  | some bps =>
    if 0 ≤ bps ∧ bps ≤ maxPairSlippageBps then pure bps else Tx.fail .invalidSlippageConfig
  | none => pure cfg.maxSlippageBpsOrDefault

end Settings

namespace Traffic

def setRefundBalance (t : Traffic) (user token : Address) (balance : Option ℤ) : Traffic :=
  { t with refundBalance := fun u k =>
      if u = user ∧ k = token then balance else t.refundBalance u k }

def publish (t : Traffic) (event : TrafficEvent) : Traffic := { t with journal := event :: t.journal }

def refund (t : Traffic) (user token : Address) : ℤ := (t.refundBalance user token).getD 0

def setUserRecord (t : Traffic) (user : Address) (record : UserRecord) : Traffic :=
  { t with userRecord := Function.update t.userRecord user (some record) }

def dropLegacyRecord (t : Traffic) (user : Address) : Traffic :=
  { t with
    userSpending := Function.update t.userSpending user none
    userVolume := Function.update t.userVolume user none }

def loadLegacyRecord (t : Traffic) (sender : Address) (currentTime : ℕ) : UserRecord × Bool :=
  let legacySpending := t.userSpending sender
  let legacyVolume := (t.userVolume sender).getD 0
  let spending := legacySpending.getD (currentTime, 0)
  (⟨spending.1, spending.2, legacyVolume, 0⟩,
    legacySpending.isSome || decide (legacyVolume ≠ 0))

def loadUserRecord (t : Traffic) (sender : Address) (currentTime : ℕ) : UserRecord × Bool :=
  match t.userRecord sender with
  | some record => (record, false)
  | none => t.loadLegacyRecord sender currentTime

def rateLimitUsed (t : Traffic) (env : Env) (sender : Address) : ℕ :=
  match t.rateLimitCounter sender with
  | some (window, count) => if window = env.sequence then count else 0
  | none => 0

def metaNonceOf (t : Traffic) (user : Address) : ℕ := (t.metaNonce user).getD 0

def markQuote (t : Traffic) (maker : Address) (quoteId : String) : Traffic :=
  { t with usedQuote := fun m i => if m = maker ∧ i = quoteId then true else t.usedQuote m i }

end Traffic

def accrueUserRecord (env : Env) (sender : Address) (amount : ℤ) : Routing ℤ := do
  let loaded ← Tx.read fun t => t.loadUserRecord sender env.timestamp
  let elapsed ← subU64 env.timestamp loaded.1.lastResetTime
  let record : UserRecord :=
    if secondsIn24h ≤ elapsed then
      { loaded.1 with lastResetTime := env.timestamp, accumulatedAmount := 0 }
    else loaded.1
  let newAccumulated := record.accumulatedAmount + amount
  Tx.reject (¬ FitsI128 newAccumulated) .limitExceeded
  Tx.reject (dailyMaxLimit < newAccumulated) .limitExceeded
  let newVolume := saturateI128 (record.volume + amount)
  Tx.update fun t => t.setUserRecord sender
    { record with accumulatedAmount := newAccumulated, volume := newVolume }
  Tx.whenever (loaded.2 = true) (Tx.update fun t => t.dropLegacyRecord sender)
  pure record.volume

def checkRateLimit (cfg : Settings) (env : Env) (sender : Address) : Routing Unit :=
  Tx.whenever (¬ (cfg.rateLimitRaw = 0 ∨ cfg.rateLimitWhitelist sender = true)) do
    let used ← Tx.read fun t => t.rateLimitUsed env sender
    Tx.reject (cfg.rateLimitRaw ≤ used) .rateLimited
    Tx.update fun t =>
      { t with rateLimitCounter :=
          Function.update t.rateLimitCounter sender (some (env.sequence, used + 1)) }

def verifyKycForAmount (cfg : Settings) (env : Env) (sender : Address) (amount : ℤ) :
    Routing Unit :=
  match cfg.kycThreshold with
  | none => pure ()
  | some threshold =>
    Tx.whenever (threshold < amount) do
      let oracle ← Tx.unwrap cfg.kycOracle .kycRequired
      match env.isVerified oracle sender with
      | none => Tx.trap
      | some verified => Tx.reject (verified = false) .kycRequired

def effectiveFeeBps (userVolume feeBps : ℤ) : ℤ :=
  if volumeThreshold < userVolume then feeBps.tdiv 2 else feeBps

def capFee (feeAmount feeCap amount : ℤ) : ℤ :=
  let feeAmount := if feeCap < feeAmount then feeCap else feeAmount
  if amount < feeAmount then amount else feeAmount

def calculateFee {σ : Type} (amount effectiveFeeBps feeCap : ℤ) : Tx σ Error (ℤ × ℤ) := do
  let product ← checkedI128 (amount * effectiveFeeBps)
  let feeAmount := capFee (product.tdiv bpsDivisor) feeCap amount
  let remainder ← checkedI128 (amount - feeAmount)
  pure (feeAmount, remainder)

def creditRefundBalance (user token : Address) (amount : ℤ) : Routing Unit := do
  let currentBalance ← Tx.read fun t => t.refund user token
  let newBalance ← checkedI128 (currentBalance + amount)
  Tx.update fun t =>
    (t.setRefundBalance user token (some newBalance)).publish (.credited user token amount)

def bumpHeartbeat (cfg : Settings) (env : Env) : Routing Unit :=
  Tx.whenever (cfg.backupAdmin.isSome) do
    Tx.update fun t => { t with lastHeartbeat := some env.timestamp }

/-- `ReentrancyGuard` is taken at the start and dropped on every return. -/
def withGuard {α : Type} (body : Routing α) : Routing α := do
  let held ← Tx.read Traffic.reentrancyGuard
  Tx.reject (held = true) .reentrantCall
  Tx.update fun t => { t with reentrancyGuard := true }
  let result ← body
  Tx.update fun t => { t with reentrancyGuard := false }
  pure result

def balanceOf (token account : Address) : Routing ℤ :=
  Tx.read fun t => t.tokens.balance token account

def nextReply (env : Env) : Routing Reply := do
  let reply ← Tx.read fun t => env.reply t.calls
  Tx.update fun t => { t with calls := t.calls + 1 }
  pure reply

/-- The router consents to the token calls it makes itself, anyone else by an authorisation. -/
def consents (h : Host) (env : Env) (call : TokenCall Address Address) : Bool :=
  match call.principal with
  | some a => decide (a = h.self) || env.authorises h a
  | none => false

/-- `try_transfer` and `try_transfer_from`: a refused call is reported and changes nothing. -/
def tryToken (h : Host) (env : Env) (call : TokenCall Address Address) : Routing Bool := do
  let reply ← nextReply env
  let ledger ← Tx.read Traffic.tokens
  match ledger.apply call with
  | some ledger =>
    if reply.accepts = true ∧ consents h env call = true then do
      Tx.update fun t => ({ t with tokens := ledger } : Traffic).publish (.moved call)
      pure true
    else pure false
  | none => pure false

def token (h : Host) (env : Env) (call : TokenCall Address Address) : Routing Unit := do
  let done ← tryToken h env call
  Tx.demand (done = true)

/-- A call into an outside contract, which may move what is not the router's. -/
def invoke (h : Host) (env : Env) (contract : Address) : Routing (Option Reply) := do
  let reply ← nextReply env
  -- The host lets nobody call back into the router.
  if reply.returns = true ∧ contract ≠ h.self then do
    Tx.update fun t =>
      ({ t with tokens := t.tokens.others h.self reply.calls } : Traffic).publish
        (.invoked contract)
    pure (some reply)
  else pure none

def invokeContract (h : Host) (env : Env) (contract : Address) : Routing Reply := do
  let reply ← invoke h env contract
  match reply with
  | some reply => pure reply
  | none => Tx.trap

end StellarTags.Router
