import StellarTags.Proxy.State

/-! The proxy's entry points: administration, session keys, forwarding and signed calls. -/

namespace StellarTags.Proxy

open Library.Transactions Library.Integers Library.Tokens Soroban

def initializeProxy (d : Deployment) (env : Env) (admin logicContract : Address) :
    Tx State Error Unit := do
  let stored ← Tx.read State.admin
  Tx.reject (stored.isSome) .alreadyInitialized
  requireAuth d env admin
  Tx.update fun s => { s with admin := some admin, logicContract := some logicContract }

def assertAdmin (d : Deployment) (env : Env) (caller : Address) : Tx State Error Unit := do
  let stored ← Tx.read State.admin
  let stored ← Tx.unwrap stored .notInitialized
  Tx.reject (stored ≠ caller) .unauthorized
  requireAuth d env caller

def loadLogicContract : Tx State Error Address := do
  let logic ← Tx.read State.logicContract
  Tx.unwrap logic .notInitialized

def upgradeLogic (d : Deployment) (env : Env) (admin newLogicContract : Address) :
    Tx State Error Unit := do
  assertAdmin d env admin
  let current ← loadLogicContract
  Tx.reject (current = newLogicContract) .sameLogicAddress
  Tx.update fun s => { s with logicContract := some newLogicContract }

def transferAdmin (d : Deployment) (env : Env) (admin newAdmin : Address) : Tx State Error Unit := do
  assertAdmin d env admin
  Tx.update fun s => { s with admin := some newAdmin }

def State.setSession (s : State) (sessionKey : Address) (allowance : SessionAllowance) : State :=
  { s with session := Function.update s.session sessionKey (some allowance) }

def authorizeSessionKey (d : Deployment) (env : Env) (sessionKey : Address) (spendingLimit : ℤ)
    (validUntil : ℕ) : Tx State Error Unit := do
  requireAuth d env sessionKey
  Tx.reject (spendingLimit ≤ 0 ∨ validUntil ≤ env.timestamp) .invalidSessionAllowance
  Tx.update fun s => s.setSession sessionKey ⟨spendingLimit, validUntil⟩

section Sessions

def Val.toAddress : Val → Option Address
  | .address a => some a
  | _ => none

def Val.toI128 : Val → Option ℤ
  | .i128 n => some n
  | _ => none

def Val.toVec : Val → Option (List Val)
  | .vec items => some items
  | _ => none

def addressArg (args : List Val) (index : ℕ) : Option Address := args[index]?.bind Val.toAddress

def amountArg (args : List Val) (index : ℕ) : Option ℤ := args[index]?.bind Val.toI128

/-- The sender, recipient and amount of a payment, as a call to the logic contract gives them. -/
structure Transfer where
  sender : Address
  recipient : Address
  amount : ℤ
  deriving DecidableEq, Repr

/-- The fields of a `Payment`, in the order of their names. -/
def Val.toPayment : Val → Option Transfer
  | .struct .payment [.i128 amount, .address recipient, .address sender, .address _] =>
    some ⟨sender, recipient, amount⟩
  | _ => none

def Val.toSwapPayment : Val → Option Transfer
  | .struct .swapPayment [.i128 amountIn, .address _, .u64 _, .address _, .i128 _, .i128 _,
      .address recipient, .address _, .address sender] => some ⟨sender, recipient, amountIn⟩
  | _ => none

def vecArg (decode : Val → Option Transfer) (args : List Val) : Option (List Transfer) :=
  (args[0]?.bind Val.toVec).bind fun items => items.mapM decode

/-- What a call would charge to session keys: the senders and amounts it names. -/
def sessionSpends (func : Func) (args : List Val) : Option (List (Address × ℤ)) :=
  let positional (index : ℕ) := do
    let sender ← addressArg args 0
    let amount ← amountArg args index
    pure [(sender, amount)]
  match func with
  | .routePayment => positional 3
  | .routePayments =>
    (vecArg Val.toPayment args).map (List.map fun payment => (payment.sender, payment.amount))
  | .routePaymentMeta => positional 4
  | .routePaymentWithSwapRaw => positional 5
  | .routePaymentWithSwap =>
    (args[0]?.bind Val.toSwapPayment).map fun payment => [(payment.sender, payment.amount)]
  | .routePaymentsWithSwap =>
    (vecArg Val.toSwapPayment args).map (List.map fun payment => (payment.sender, payment.amount))
  | .withdrawRefund => positional 2
  | .routePaymentWithQuote | .routeSplitPaymentWithSwap | .routeMultihopSwap | .other _ => some []

def chargeIfSession (env : Env) (spend : Address × ℤ) : Tx State Error Unit := do
  let stored ← Tx.read fun s => s.session spend.1
  match stored with
  | none => pure ()
  | some allowance => do
    Tx.reject (allowance.validUntil ≤ env.timestamp) .sessionExpired
    Tx.reject (spend.2 ≤ 0 ∨ allowance.remaining < spend.2) .sessionAllowanceExceeded
    Tx.update fun s =>
      s.setSession spend.1 { allowance with remaining := allowance.remaining - spend.2 }

def chargeSessionAllowance (env : Env) (func : Func) (args : List Val) : Tx State Error Unit := do
  let spends ← Tx.unwrap (sessionSpends func args) .unsupportedSessionCall
  Tx.forEach (chargeIfSession env) spends

end Sessions

/-- The logic contract is called as a stranger: it may do anything to the tokens it can. -/
def invokeLogic (d : Deployment) (env : Env) (logic : Address) (func : Func) (args : List Val) :
    Tx State Error Unit := do
  -- The host lets nobody call back into the proxy.
  Tx.demand (logic ≠ d.self)
  let tokens ← Tx.read State.tokens
  match env.logic logic func args tokens with
  | some tokens => Tx.update fun s => { s with tokens }
  | none => Tx.trap

def forward (d : Deployment) (env : Env) (func : Func) (args : List Val) : Tx State Error Unit := do
  let logic ← loadLogicContract
  chargeSessionAllowance env func args
  invokeLogic d env logic func args

def State.publish (s : State) (event : Event) : State := { s with history := event :: s.history }

/-- A production build traps where a test build returns `InvalidSignature`. -/
def checkSignature (d : Deployment) (signerPubkey : PublicKey) (message : Bytes)
    (signature : Signature) : Tx State Error Unit :=
  if d.testutils then
    Tx.reject (d.ed25519Verify signerPubkey message signature = false) .invalidSignature
  else Tx.demand (d.ed25519Verify signerPubkey message signature = true)

def verifyPaymentIntentInternal (d : Deployment) (env : Env) (signerPubkey : PublicKey)
    (intent : PaymentIntent) (signature : Signature) : Tx State Error Unit := do
  Tx.reject (intent.deadline < env.timestamp) .deadlineExpired
  let currentNonce ← Tx.read fun s => s.getNonce intent.fromAddress
  Tx.reject (intent.nonce ≠ currentNonce) .invalidNonce
  checkSignature d signerPubkey (intentDigest d intent) signature

def executePaymentIntent (d : Deployment) (env : Env) (signerPubkey : PublicKey)
    (intent : PaymentIntent) (signature : Signature) : Tx State Error Unit := do
  verifyPaymentIntentInternal d env signerPubkey intent signature
  Tx.reject (maxU64 < intent.nonce + 1) .invalidNonce
  Tx.update fun s =>
    { s with nonce := Function.update s.nonce intent.fromAddress (some (intent.nonce + 1)) }
  Tx.update fun s => s.publish (.paymentIntentExecuted intent)

def forwardWithMeta (d : Deployment) (env : Env) (signerPubkey : PublicKey)
    (intent : PaymentIntent) (signature : Signature) (func : Func) (args : List Val) :
    Tx State Error Unit := do
  executePaymentIntent d env signerPubkey intent signature
  forward d env func args

/-- The proxy spends the sender's allowance; `index` counts the invocation's transfers. -/
def transferFrom (d : Deployment) (env : Env) (index : ℕ) (token source target : Address)
    (amount : ℤ) : Tx State Error Unit := do
  let tokens ← Tx.read State.tokens
  match tokens.apply (.transferFrom token d.self source target amount) with
  | some tokens => do
    Tx.demand (env.accepts index = true)
    Tx.update fun s => { s with tokens }
  | none => Tx.trap

def executeMetaPayment (d : Deployment) (env : Env) (payload : MetaPayment)
    (signerPubkey : PublicKey) (signature : Signature) : Tx State Error Unit := do
  Tx.reject (0 < payload.deadline ∧ payload.deadline < env.timestamp) .deadlineExpired
  Tx.reject (payload.amount ≤ 0) .invalidAmount
  Tx.reject (payload.fee < 0) .invalidFee
  Tx.reject (¬ FitsI128 (payload.amount + payload.fee)) .mathOverflow
  let totalNeeded := payload.amount + payload.fee
  let storedNonce ← Tx.read fun s => s.getMetaNonce payload.sender
  Tx.reject (payload.nonce ≠ storedNonce) .invalidNonce
  let message := buildMetaMessage d payload signerPubkey
  Tx.demand (d.ed25519Verify signerPubkey message signature = true)
  let userBalance ← Tx.read fun s => s.tokens.balance payload.tokenAddress payload.sender
  Tx.reject (userBalance < totalNeeded) .insufficientBalance
  let userAllowance ← Tx.read fun s => s.tokens.allowance payload.tokenAddress payload.sender d.self
  Tx.reject (userAllowance < totalNeeded) .insufficientAllowance
  let next ← addU64 payload.nonce 1
  Tx.update fun s => { s with metaNonce := Function.update s.metaNonce payload.sender (some next) }
  Tx.whenever (0 < payload.fee)
    (transferFrom d env 0 payload.tokenAddress payload.sender payload.feeRecipient payload.fee)
  transferFrom d env 1 payload.tokenAddress payload.sender payload.recipient payload.amount
  Tx.update fun s => s.publish (.metaPayment payload)

def routePaymentMeta (d : Deployment) (env : Env) (payload : MetaPayment)
    (signerPubkey : PublicKey) (signature : Signature) : Tx State Error Unit :=
  executeMetaPayment d env payload signerPubkey signature

def executeSingleMetaTx (d : Deployment) (env : Env) (call : MetaTxCall) : Tx State Error Unit :=
  executePaymentIntent d env call.signerPubkey call.intent call.signature

/-- One item of a batch. It returns its errors before it writes anything. -/
def executeTolerant (d : Deployment) (env : Env) (results : List Bool) (call : MetaTxCall) :
    Tx State Error (List Bool) := do
  let outcome ← Tx.attempt (executeSingleMetaTx d env call)
  match outcome with
  | .ok () => pure (results ++ [true])
  | .error error => do
    Tx.update fun s => s.publish (.metaTxFailed call.intent.fromAddress error)
    pure (results ++ [false])

def executeBatchTolerant (d : Deployment) (env : Env) (calls : List MetaTxCall) :
    Tx State Error (List Bool) :=
  Tx.fold (executeTolerant d env) [] calls

end StellarTags.Proxy
