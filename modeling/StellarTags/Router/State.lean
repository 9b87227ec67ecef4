import StellarTags.Library.Integers
import StellarTags.Library.Tokens
import StellarTags.Soroban.Values

/-! The payment router's stored data, its errors and the environment of an invocation. -/

namespace StellarTags.Router

open Library.Transactions Library.Tokens Soroban

inductive Error : Type
  | unauthorized
  | insufficientBalance
  | limitExceeded
  | alreadyInitialized
  | notInitialized
  | paused
  | invalidRecipient
  | blacklisted
  | noRefundAvailable
  | timelockNotReady
  | timelockNotFound
  | contractFrozen
  | dexNotRegistered
  | swapFailed
  | slippageExceeded
  | swapDeadlineExpired
  | invalidSwapParams
  | invalidRole
  | invalidProposal
  | governanceNotConfigured
  | invalidKycThreshold
  | yieldProtocolNotConfigured
  | invalidYieldAmount
  | oracleNotConfigured
  | oracleCallFailed
  | oraclePriceStale
  | oraclePriceInvalid
  | deadlineExpired
  | invalidNonce
  | kycRequired
  | invalidSwapPath
  | notMultisigSigner
  | insufficientApprovals
  | multisigNotInitialized
  | alreadyApproved
  | reentrantCall
  | noBackupAdmin
  | dmsNotReady
  | invalidDmsConfig
  | rateLimited
  | roleNotFound
  | cyclicSwapPath
  | invalidSlippageConfig
  | invalidThreshold
  | duplicateSigner
  deriving DecidableEq, Repr

namespace Error

abbrev quoteExpired : Error := swapDeadlineExpired
abbrev quoteAlreadyUsed : Error := invalidNonce
abbrev assetMismatch : Error := invalidSwapPath

end Error

inductive PauseLevel : Type
  | none
  | swapsOnly
  | fullHalt
  deriving DecidableEq, Repr

inductive Role : Type
  | superAdmin
  | treasuryManager
  | complianceOfficer
  | feeManager
  | pauser
  | securityOfficer
  | upgradeManager
  deriving DecidableEq, Repr

inductive ActionType : Type
  | setPlatformTreasury (newTreasury : Address)
  | setFeeConfig (feeBps feeCap : ℤ)
  | setFeeBps (newFeeBps : ℤ)
  | setGovernance (gov : Address)
  | setMinLimit (minLimit : ℤ)
  | transferAdmin (newAdmin : Address)
  | upgrade (newWasmHash : Hash)
  | setBackupAdmin (backup : Address) (timeoutSeconds : ℕ)
  | registerDex (dex : Address)
  | deregisterDex (dex : Address)
  | setMaxSlippageBps (maxSlippageBps : ℤ)
  | setPairMaxSlippageBps (tokenIn tokenOut : Address) (bps : ℤ)
  | setMultisigConfig (signers : List Address) (threshold : ℕ)
  deriving DecidableEq, Repr

structure TimelockEntry where
  queuedAt : ℕ
  action : ActionType
  deriving DecidableEq, Repr

structure Payment where
  sender : Address
  recipient : Address
  tokenAddress : Address
  amount : ℤ
  deriving DecidableEq, Repr

structure SwapPayment where
  sender : Address
  recipient : Address
  sellToken : Address
  buyToken : Address
  amountIn : ℤ
  minAmountOut : ℤ
  expectedAmountOut : ℤ
  deadline : ℕ
  dex : Address
  deriving DecidableEq, Repr

structure SplitRoute where
  dexAddress : Address
  weightBps : ℕ
  minAmountOut : ℤ
  deriving DecidableEq, Repr

structure Quote where
  quoteId : String
  maker : Address
  tokenIn : Address
  tokenOut : Address
  amountIn : ℤ
  amountOut : ℤ
  expiresAt : ℕ
  deriving DecidableEq, Repr

/-- The fields packed into a sender's 72-byte record. -/
structure UserRecord where
  lastResetTime : ℕ
  accumulatedAmount : ℤ
  volume : ℤ
  flags : BitVec 256
  deriving DecidableEq, Repr

structure PriceData where
  price : ℤ
  decimals : ℕ
  timestamp : ℕ
  deriving DecidableEq, Repr

structure FeeProposal where
  proposer : Address
  feeBps : ℤ
  feeCap : ℤ
  createdAt : ℕ
  votingEndsAt : ℕ
  yesVotes : ℤ
  noVotes : ℤ
  quorum : ℤ
  executed : Bool
  deriving DecidableEq, Repr

inductive ArchiveRecordType : Type
  | userVolume
  | userSpending
  | refundBalance
  deriving DecidableEq, Repr

structure ArchiveLeaf where
  recordType : ArchiveRecordType
  primaryKey : Address
  secondaryKey : Address
  deriving DecidableEq, Repr

structure ArchiveMetadata where
  committedAt : ℕ
  recordCount : ℕ
  description : String
  deriving DecidableEq, Repr

/-- The entries that decide who may administer the contract. -/
structure Access where
  admin : Option Address := none
  role : Role → Option Address := fun _ => none
  userRole : Address → Role → Bool := fun _ _ => false
  /-- The addresses stored as admin so far, the newest first. -/
  adminHistory : List Address := []

/-- The entries that only configuration and administration write. -/
structure Settings where
  governance : Option Address := none
  platformTreasury : Option Address := none
  feeBps : Option ℤ := none
  feeCap : Option ℤ := none
  minLimit : Option ℤ := none
  maxAmount : Option ℤ := none
  paused : Option Bool := none
  pauseLevel : Option PauseLevel := none
  frozen : Option Bool := none
  blacklist : Address → Bool := fun _ => false
  kycOracle : Option Address := none
  kycThreshold : Option ℤ := none
  backupAdmin : Option Address := none
  dmsTimeout : Option ℕ := none
  heartbeatOperator : Option Address := none
  rateLimitConfig : Option ℕ := none
  rateLimitWhitelist : Address → Bool := fun _ => false
  oracleAddress : Option Address := none
  stalenessThreshold : Option ℕ := none
  fallbackPrice : Address → Address → Option PriceData := fun _ _ => none
  governanceToken : Option Address := none
  governanceQuorum : Option ℤ := none
  governanceNonce : Option ℕ := none
  governanceProposal : ℕ → Option FeeProposal := fun _ => none
  archiveEpoch : Option ℕ := none
  archiveRoot : ℕ → Option Hash := fun _ => none
  archiveMeta : ℕ → Option ArchiveMetadata := fun _ => none
  yieldProtocol : Option Address := none
  yieldPrincipal : Address → Option ℤ := fun _ => none
  registeredDex : Address → Bool := fun _ => false
  maxSlippageBps : Option ℤ := none
  pairSlippage : Address → Address → Option ℤ := fun _ _ => none

structure Timelock where
  nonce : Option ℕ := none
  entry : ℕ → Option TimelockEntry := fun _ => none

inductive GroupEvent : Type
  | upgradeApproved (signer : Address) (newWasmHash : Hash)
  | upgradeRevoked (signer : Address) (newWasmHash : Hash)
  | upgradeCancelled (newWasmHash : Hash)
  | installed (newWasmHash : Hash)
  | configApproved (signer : Address) (signers : List Address) (threshold : ℕ)
  | configured (signers : List Address) (threshold : ℕ)
  deriving DecidableEq, Repr

structure Multisig where
  signers : Option (List Address) := none
  threshold : Option ℕ := none
  upgradeApproval : Hash → Option (List Address) := fun _ => none
  configApproval : Hash → Option (List Address) := fun _ => none
  /-- The events so far, the newest first. -/
  history : List GroupEvent := []

/-- What the router and the token contracts publish about its payments. -/
inductive TrafficEvent : Type
  /-- A token call of the router's that went through. -/
  | moved (call : TokenCall Address Address)
  | invoked (contract : Address)
  | credited (user token : Address) (amount : ℤ)
  | withdrawn (user token : Address) (amount : ℤ)
  | pruned (user token : Address) (amount : ℤ)
  deriving DecidableEq, Repr

/-- The entries that payments write, with the token contracts they move funds in. -/
structure Traffic where
  tokens : Ledger Address Address
  /-- Outside calls made so far: each one gets its own answer from the environment. -/
  calls : ℕ := 0
  refundBalance : Address → Address → Option ℤ := fun _ _ => none
  userRecord : Address → Option UserRecord := fun _ => none
  userSpending : Address → Option (ℕ × ℤ) := fun _ => none
  userVolume : Address → Option ℤ := fun _ => none
  rateLimitCounter : Address → Option (ℕ × ℕ) := fun _ => none
  metaNonce : Address → Option ℕ := fun _ => none
  usedQuote : Address → String → Bool := fun _ _ => false
  lastHeartbeat : Option ℕ := none
  reentrancyGuard : Bool := false
  /-- The events so far, the newest first. -/
  journal : List TrafficEvent := []

structure State where
  access : Access := {}
  settings : Settings := {}
  timelock : Timelock := {}
  multisig : Multisig := {}
  traffic : Traffic

def State.fresh (tokens : Ledger Address Address) : State := { traffic := { tokens } }

/-- How an outside contract answers a call, and the token calls it makes meanwhile. -/
structure Reply where
  calls : List (TokenCall Address Address) := []
  returns : Bool := false
  /-- What `swap` reports: the output token and amount. -/
  output : Address × ℤ := (⟨0⟩, 0)
  /-- What `quote` reports. -/
  quoted : ℤ := 0
  /-- What `swap_exact_tokens_for_tokens` reports: the amounts received and unused. -/
  amounts : List ℤ := []
  /-- Whether a token contract accepts a transfer. -/
  accepts : Bool := false

/-- One invocation's ledger, its authorisations and the answers of the contracts it calls. -/
structure Env where
  timestamp : ℕ := 0
  sequence : ℕ := 0
  auth : Address → Bool := fun _ => false
  uploaded : Hash → Bool := fun _ => false
  /-- What a KYC oracle says of an account; `none` when its call traps. -/
  isVerified : Address → Address → Option Bool := fun _ _ => none
  reply : ℕ → Reply := fun _ => {}

def bpsDivisor : ℤ := 10000
def maxAmountDefault : ℤ := 1000000000000000
def xlmDecimals : ℤ := 10000000
def dailyMaxLimit : ℤ := 1000000 * xlmDecimals
def volumeThreshold : ℤ := 10000 * xlmDecimals
def secondsIn24h : ℕ := 24 * 3600
def minDmsTimeout : ℕ := 7 * 24 * 3600
def defaultRateLimit : ℕ := 10
def maxRateLimit : ℕ := 1000000
def defaultMaxSlippageBps : ℤ := 1000
def maxSlippageBpsLimit : ℤ := 10000
def maxPairSlippageBps : ℤ := 500
def totalWeightBps : ℕ := 10000

/-- The router has no `__check_auth`, and the host lets no call re-enter it: only the calls it
makes itself carry its authorisation. -/
def Env.authorises (env : Env) (h : Host) (a : Address) : Bool := env.auth a && decide (a ≠ h.self)

def requireAuth {σ : Type} (h : Host) (env : Env) (a : Address) : Tx σ Error Unit :=
  Tx.demand (env.authorises h a)

end StellarTags.Router
