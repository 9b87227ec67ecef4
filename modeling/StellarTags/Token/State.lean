import StellarTags.Library.PositionalNumerals
import StellarTags.Library.Integers
import StellarTags.Soroban.Values

/-! The pausable token's storage, its packed allowances and the messages its permits sign. -/

namespace StellarTags.Token

open Library.Transactions Library.Integers Library.BigEndian Soroban

inductive Error : Type
  | alreadyInitialized
  | notInitialized
  | unauthorized
  | paused
  | accountFrozen
  | insufficientBalance
  | insufficientAllowance
  | invalidAmount
  | invalidExpiration
  | permitExpired
  | invalidSignature
  | invalidNonce
  | permitDeadlineTooFar
  | insufficientTransferable
  | notRegisteredLiquidator
  | allowanceExpired
  | complianceCheckFailed
  | supplyCapExceeded
  | batchSizeExceeded
  | batchLengthMismatch
  deriving DecidableEq, Repr

structure Allowance where
  amount : ℤ
  expirationLedger : ℕ
  deriving DecidableEq, Repr

inductive Event : Type
  | init (admin : Address) (symbol : String)
  | setAdmin (newAdmin : Address)
  | paused (admin : Address) (sequence : ℕ)
  | unpaused (admin : Address) (sequence : ℕ)
  | frozen (admin account : Address) (sequence : ℕ)
  | unfrozen (admin account : Address) (sequence : ℕ)
  | frozenUntil (admin account : Address) (untilTimestamp : ℕ)
  | setHook (admin hook : Address)
  | deleteHook (admin : Address)
  | setCap (admin : Address) (newMaxSupply : ℤ)
  | transfer (source target : Address) (amount : ℤ)
  | approve (owner spender : Address) (amount : ℤ) (expirationLedger : ℕ)
  | mint (target : Address) (amount : ℤ)
  | batchMint (admin : Address) (total : ℤ)
  | burn (owner : Address) (amount : ℤ)
  deriving DecidableEq, Repr

structure State where
  admin : Option Address := none
  initialized : Bool := false
  paused : Option Bool := none
  name : Option String := none
  symbol : Option String := none
  decimals : Option ℕ := none
  totalSupply : Option ℤ := none
  maxSupply : Option ℤ := none
  complianceHook : Option Address := none
  balance : Address → Option ℤ := fun _ => none
  frozen : Address → Option Bool := fun _ => none
  frozenUntil : Address → Option ℕ := fun _ => none
  collateralLocked : Address → Option ℤ := fun _ => none
  partitionFrozen : Address → Option Bool := fun _ => none
  /-- The packed allowances, by owner and spender. -/
  allowance : Address × Address → Option Bytes := fun _ => none
  permitNonce : Address → Option ℕ := fun _ => none
  /-- The events so far, the newest first. -/
  history : List Event := []

/-- The token's host, with the strkey of every address. -/
structure Deployment extends Host where
  addressString : Address → Bytes

structure Env where
  timestamp : ℕ := 0
  sequence : ℕ := 0
  auth : Address → Bool := fun _ => false
  /-- Whether the hook finds the transfer compliant; a failed call does not. -/
  validateTransfer : (hook source target : Address) → ℤ → Bool := fun _ _ _ _ => false

def maxPermitLifetimeSeconds : ℕ := 30 * 24 * 60 * 60
def defaultMaxSupply : ℤ := 10000000000000000
def maxBatchSize : ℕ := 30

def requireAuth (env : Env) (a : Address) : Tx State Error Unit := Tx.demand (env.auth a)

section Packing

def packAllowance (amount : ℤ) (expirationLedger : ℕ) : Bytes :=
  toBytesSigned 16 amount ++ toBytes 4 expirationLedger

def unpackAllowance (packed : Bytes) : Allowance :=
  ⟨ofBytesSigned 16 (packed.take 16), ofBytes (packed.drop 16)⟩

/-- Allowances that the fields' widths can hold. -/
structure Allowance.Fits (a : Allowance) : Prop where
  amount : FitsI128 a.amount
  expirationLedger : a.expirationLedger ≤ maxU32

lemma length_packAllowance (amount : ℤ) (expirationLedger : ℕ) :
    (packAllowance amount expirationLedger).length = 20 := by
  simp [packAllowance]

lemma unpack_pack {a : Allowance} (h : a.Fits) :
    unpackAllowance (packAllowance a.amount a.expirationLedger) = a := by
  obtain ⟨⟨hl, hu⟩, he⟩ := h
  have htake : (packAllowance a.amount a.expirationLedger).take 16 = toBytesSigned 16 a.amount := by
    simp [packAllowance]
  have hdrop : (packAllowance a.amount a.expirationLedger).drop 16 =
      toBytes 4 a.expirationLedger := by
    simp [packAllowance]
  have hamount : ofBytesSigned 16 (toBytesSigned 16 a.amount) = a.amount := by
    apply ofBytesSigned_toBytesSigned
    · simp only [minI128] at hl
      omega
    · simp only [maxI128] at hu
      omega
  have hledger : ofBytes (toBytes 4 a.expirationLedger) = a.expirationLedger := by
    apply ofBytes_toBytes
    simp only [maxU32] at he
    omega
  rw [unpackAllowance, htake, hdrop, hamount, hledger]

end Packing

section Permits

structure PermitDomain where
  name : String
  version : ℕ
  networkId : Bytes
  contract : Address
  deriving DecidableEq, Repr

structure PermitPayload where
  domainSeparator : Bytes
  owner : Address
  spender : Address
  value : ℤ
  nonce : ℕ
  deadline : ℕ
  deriving DecidableEq, Repr

def PermitDomain.toVal (domain : PermitDomain) : Val :=
  .struct .permitDomain [.address domain.contract, .text domain.name, .bytes domain.networkId,
    .u32 domain.version]

def PermitPayload.toVal (payload : PermitPayload) : Val :=
  .struct .permitPayload [.u64 payload.deadline, .bytes payload.domainSeparator,
    .u64 payload.nonce, .address payload.owner, .address payload.spender, .i128 payload.value]

/-- The host's key and signature behind byte strings of their fixed lengths. -/
def publicKey (key : Bytes) : PublicKey := ⟨ofBytes key⟩

def signatureOf (bytes : Bytes) : Signature := ⟨ofBytes bytes⟩

end Permits

namespace State

variable (s : State) (env : Env)

def getTotalSupply : ℤ := s.totalSupply.getD 0

def getMaxSupply : ℤ := s.maxSupply.getD defaultMaxSupply

def getPermitNonce (owner : Address) : ℕ := (s.permitNonce owner).getD 0

def getFrozenUntil (account : Address) : ℕ := (s.frozenUntil account).getD 0

def getName : String := s.name.getD ""

def getSymbol : String := s.symbol.getD ""

def getDecimals : ℕ := s.decimals.getD 0

def isPaused : Bool := s.paused.getD false

def isFrozen (account : Address) : Bool :=
  (s.frozen account).getD false ||
    match s.frozenUntil account with
    | some frozenUntil => decide (env.timestamp < frozenUntil)
    | none => false

def isPartitionFrozen (account : Address) : Bool := (s.partitionFrozen account).getD false

def readCollateralLocked (account : Address) : ℤ := (s.collateralLocked account).getD 0

def readBalance (account : Address) : ℤ := (s.balance account).getD 0

/-- The allowance as stored, lapsed or not. -/
def storedAllowance (key : Address × Address) : Allowance :=
  match s.allowance key with
  | some packed => unpackAllowance packed
  | none => ⟨0, 0⟩

def publish (event : Event) : State := { s with history := event :: s.history }

def setBalance (account : Address) (n : ℤ) : State :=
  { s with balance := Function.update s.balance account (some n) }

def credited (account : Address) (amount : ℤ) : State :=
  s.setBalance account (s.readBalance account + amount)

def debited (account : Address) (amount : ℤ) : State :=
  s.setBalance account (s.readBalance account - amount)

def setTotalSupply (supply : ℤ) : State := { s with totalSupply := some supply }

def setAllowance (key : Address × Address) (entry : Option Bytes) : State :=
  { s with allowance := Function.update s.allowance key entry }

def putAllowance (key : Address × Address) (value : Allowance) : State :=
  if value.amount = 0 then s.setAllowance key none
  else s.setAllowance key (some (packAllowance value.amount value.expirationLedger))

def setPermitNonce (owner : Address) (nonce : ℕ) : State :=
  { s with permitNonce := Function.update s.permitNonce owner (some nonce) }

end State

end StellarTags.Token
