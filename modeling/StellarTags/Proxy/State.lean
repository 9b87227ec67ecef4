import StellarTags.Library.Integers
import StellarTags.Library.Tokens
import StellarTags.Soroban.Values

/-! The payment proxy's stored data, the messages its callers sign and its environment. -/

namespace StellarTags.Proxy

open Library.Transactions Library.Tokens Soroban

inductive Error : Type
  | alreadyInitialized
  | notInitialized
  | unauthorized
  | sameLogicAddress
  | invalidNonce
  | deadlineExpired
  | invalidAmount
  | invalidFee
  | mathOverflow
  | insufficientBalance
  | insufficientAllowance
  | invalidSignature
  | invalidSessionAllowance
  | sessionExpired
  | sessionAllowanceExceeded
  | unsupportedSessionCall
  deriving DecidableEq, Repr

structure DomainSeparator where
  contractId : Address
  networkId : Hash
  version : String
  deriving DecidableEq, Repr

structure PaymentIntent where
  fromAddress : Address
  toAddress : Address
  amount : ℤ
  nonce : ℕ
  fee : ℤ
  deadline : ℕ
  deriving DecidableEq, Repr

structure MetaTxCall where
  signerPubkey : PublicKey
  intent : PaymentIntent
  signature : Signature
  deriving DecidableEq, Repr

structure MetaPayment where
  nonce : ℕ
  deadline : ℕ
  sender : Address
  recipient : Address
  tokenAddress : Address
  amount : ℤ
  fee : ℤ
  feeRecipient : Address
  deriving DecidableEq, Repr

structure SessionAllowance where
  remaining : ℤ
  validUntil : ℕ
  deriving DecidableEq, Repr

inductive Func : Type
  | routePayment
  | routePayments
  | routePaymentMeta
  | routePaymentWithQuote
  | routePaymentWithSwapRaw
  | routePaymentWithSwap
  | routePaymentsWithSwap
  | routeSplitPaymentWithSwap
  | routeMultihopSwap
  | withdrawRefund
  | other (symbol : String)
  deriving DecidableEq, Repr

inductive Event : Type
  | metaPayment (payload : MetaPayment)
  | paymentIntentExecuted (intent : PaymentIntent)
  | metaTxFailed (account : Address) (error : Error)
  deriving DecidableEq, Repr

structure State where
  admin : Option Address := none
  logicContract : Option Address := none
  session : Address → Option SessionAllowance := fun _ => none
  metaNonce : Address → Option ℕ := fun _ => none
  nonce : Address → Option ℕ := fun _ => none
  tokens : Ledger Address Address
  /-- The events so far, the newest first. -/
  history : List Event := []

def State.fresh (tokens : Ledger Address Address) : State := { tokens }

/-- The proxy's host, and the build it runs: test builds report a bad signature as an error. -/
structure Deployment extends Host where
  testutils : Bool := false

/-- One invocation's ledger, its authorisations and the answers of the contracts it calls. -/
structure Env where
  timestamp : ℕ := 0
  auth : Address → Bool := fun _ => false
  /-- Whether the token accepts the invocation's first transfer, and its second. -/
  accepts : ℕ → Bool := fun _ => false
  /-- What the logic contract makes of the tokens; `none` when its call fails. -/
  logic : Address → Func → List Val → Ledger Address Address → Option (Ledger Address Address) :=
    fun _ _ _ _ => none

def contractVersion : String := "0.1.0"

def Env.authorises (env : Env) (d : Deployment) (a : Address) : Bool :=
  env.auth a && decide (a ≠ d.self)

def requireAuth (d : Deployment) (env : Env) (a : Address) : Tx State Error Unit :=
  Tx.demand (env.authorises d a)

section Messages

def DomainSeparator.toVal (d : Deployment) (domain : DomainSeparator) : Val :=
  .struct .domainSeparator
    [.address domain.contractId, .bytes (d.hashBytes domain.networkId), .text domain.version]

def PaymentIntent.toVal (intent : PaymentIntent) : Val :=
  .struct .paymentIntent [.i128 intent.amount, .u64 intent.deadline, .i128 intent.fee,
    .address intent.fromAddress, .u64 intent.nonce, .address intent.toAddress]

def MetaPayment.toVal (payload : MetaPayment) : Val :=
  .struct .metaPayment [.i128 payload.amount, .u64 payload.deadline, .i128 payload.fee,
    .address payload.feeRecipient, .u64 payload.nonce, .address payload.recipient,
    .address payload.sender, .address payload.tokenAddress]

def getDomainSeparator (d : Deployment) : DomainSeparator := ⟨d.self, d.networkId, contractVersion⟩

def computeTypedDataHashInternal (d : Deployment) (domain : DomainSeparator)
    (intent : PaymentIntent) : Hash :=
  let domainHash := d.sha256 (d.xdr (domain.toVal d))
  let intentHash := d.sha256 (d.xdr intent.toVal)
  d.sha256 ([0x19, 0x01] ++ d.hashBytes domainHash ++ d.hashBytes intentHash)

/-- The bytes an intent's signature is checked against. -/
def intentDigest (d : Deployment) (intent : PaymentIntent) : Bytes :=
  d.hashBytes (computeTypedDataHashInternal d (getDomainSeparator d) intent)

def buildMetaMessage (d : Deployment) (payload : MetaPayment) (signerPubkey : PublicKey) : Bytes :=
  d.hashBytes (d.sha256
    (d.xdr (.address d.self) ++ d.xdr payload.toVal ++ d.keyBytes signerPubkey))

end Messages

namespace State

def getNonce (s : State) (account : Address) : ℕ := (s.nonce account).getD 0

def getMetaNonce (s : State) (user : Address) : ℕ := (s.metaNonce user).getD 0

end State

end StellarTags.Proxy
