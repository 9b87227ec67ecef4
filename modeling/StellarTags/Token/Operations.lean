import StellarTags.Token.State
import StellarTags.Token.Strkey

/-! The token's entry points: administration, freezes, transfers, allowances, permits, supply. -/

namespace StellarTags.Token

open Library.Transactions Library.Integers Soroban

def requireAdminAuth (env : Env) : Tx State Error Address := do
  let stored ← Tx.read State.admin
  let admin ← Tx.unwrap stored .notInitialized
  requireAuth env admin
  pure admin

def publish (event : Event) : Tx State Error Unit := Tx.update fun s => s.publish event

section Administration

def State.started (s : State) (admin : Address) (name symbol : String) (decimals : ℕ) : State :=
  { s with
    initialized := true
    admin := some admin
    name := some name
    symbol := some symbol
    decimals := some decimals
    totalSupply := some 0
    maxSupply := some defaultMaxSupply
    paused := some false }

def initializeToken (env : Env) (admin : Address) (name symbol : String) (decimals : ℕ) :
    Tx State Error Unit := do
  let initialized ← Tx.read State.initialized
  Tx.reject (initialized = true) .alreadyInitialized
  requireAuth env admin
  Tx.update fun s => s.started admin name symbol decimals
  publish (.init admin symbol)

def setAdmin (env : Env) (newAdmin : Address) : Tx State Error Unit := do
  let _ ← requireAdminAuth env
  let frozen ← Tx.read fun s => s.isFrozen env newAdmin
  Tx.reject (frozen = true) .accountFrozen
  Tx.update fun s => { s with admin := some newAdmin }
  publish (.setAdmin newAdmin)

def setPaused (env : Env) (paused : Bool) : Tx State Error Unit := do
  let admin ← requireAdminAuth env
  Tx.update fun s => { s with paused := some paused }
  publish (if paused then .paused admin env.sequence else .unpaused admin env.sequence)

def pause (env : Env) : Tx State Error Unit := setPaused env true

def unpause (env : Env) : Tx State Error Unit := setPaused env false

def setComplianceHook (env : Env) (hook : Address) : Tx State Error Unit := do
  let admin ← requireAdminAuth env
  Tx.update fun s => { s with complianceHook := some hook }
  publish (.setHook admin hook)

def registerComplianceHook (env : Env) (hook : Address) : Tx State Error Unit :=
  setComplianceHook env hook

def removeComplianceHook (env : Env) : Tx State Error Unit := do
  let admin ← requireAdminAuth env
  Tx.update fun s => { s with complianceHook := none }
  publish (.deleteHook admin)

def deregisterComplianceHook (env : Env) : Tx State Error Unit := removeComplianceHook env

def setMaxSupply (env : Env) (newMaxSupply : ℤ) : Tx State Error Unit := do
  let admin ← requireAdminAuth env
  Tx.reject (newMaxSupply < 0) .invalidAmount
  let totalSupply ← Tx.read State.getTotalSupply
  Tx.reject (newMaxSupply < totalSupply) .supplyCapExceeded
  Tx.update fun s => { s with maxSupply := some newMaxSupply }
  publish (.setCap admin newMaxSupply)

end Administration

section Freezes

namespace State

variable (s : State) (account : Address)

def freeze : State := { s with frozen := Function.update s.frozen account (some true) }

def freezeUntil (untilTimestamp : ℕ) : State :=
  { s with frozenUntil := Function.update s.frozenUntil account (some untilTimestamp) }

def liftUntil : State := { s with frozenUntil := Function.update s.frozenUntil account none }

def lift : State :=
  { s with
    frozen := Function.update s.frozen account none
    frozenUntil := Function.update s.frozenUntil account none }

end State

def setFrozen (env : Env) (account : Address) (frozen : Bool) : Tx State Error Unit := do
  let admin ← requireAdminAuth env
  Tx.update fun s => if frozen then s.freeze account else s.lift account
  publish (if frozen then .frozen admin account env.sequence
    else .unfrozen admin account env.sequence)

def freeze (env : Env) (account : Address) : Tx State Error Unit := setFrozen env account true

def unfreeze (env : Env) (account : Address) : Tx State Error Unit := setFrozen env account false

def freezeAccountUntil (env : Env) (account : Address) (untilTimestamp : ℕ) :
    Tx State Error Unit := do
  let admin ← requireAdminAuth env
  if untilTimestamp ≤ env.timestamp then do
    Tx.update fun s => s.liftUntil account
    publish (.unfrozen admin account env.sequence)
  else do
    Tx.update fun s => s.freezeUntil account untilTimestamp
    publish (.frozenUntil admin account untilTimestamp)

def cancelFreeze (env : Env) (account : Address) : Tx State Error Unit := do
  let admin ← requireAdminAuth env
  Tx.update fun s => s.lift account
  publish (.unfrozen admin account env.sequence)

def cancelFreezeUntil (env : Env) (account : Address) : Tx State Error Unit := do
  let admin ← requireAdminAuth env
  Tx.update fun s => s.liftUntil account
  publish (.unfrozen admin account env.sequence)

end Freezes

section Checks

def assertMovable (env : Env) (account : Address) : Tx State Error Unit := do
  let paused ← Tx.read State.isPaused
  Tx.reject (paused = true) .paused
  let frozen ← Tx.read fun s => s.isFrozen env account
  Tx.reject (frozen = true) .accountFrozen

def assertSettled (env : Env) (source target : Address) : Tx State Error Unit := do
  assertMovable env source
  assertMovable env target

def assertTransferable (account : Address) (amount : ℤ) : Tx State Error Unit := do
  let partitionFrozen ← Tx.read fun s => s.isPartitionFrozen account
  Tx.reject (partitionFrozen = true) .accountFrozen
  let balance ← Tx.read fun s => s.readBalance account
  let locked ← Tx.read fun s => s.readCollateralLocked account
  let transferable ← checkedI128 (balance - locked)
  Tx.reject (transferable < amount) .insufficientTransferable

def transferAllowed (env : Env) (source target : Address) : Tx State Error Bool := do
  let settled ← Tx.attempt (assertSettled env source target)
  let partitionFrozen ← Tx.read fun s => s.isPartitionFrozen source
  pure (settled.toBool && !partitionFrozen)

def validateCompliance (env : Env) (source target : Address) (amount : ℤ) :
    Tx State Error Unit := do
  let hook ← Tx.read State.complianceHook
  match hook with
  | some hook =>
    Tx.reject (env.validateTransfer hook source target amount = false) .complianceCheckFailed
  | none => pure ()

end Checks

section Balances

def credit (account : Address) (amount : ℤ) : Tx State Error Unit := do
  let current ← Tx.read fun s => s.readBalance account
  let next ← checkedI128 (current + amount)
  Tx.update fun s => s.setBalance account next

def debit (account : Address) (amount : ℤ) : Tx State Error Unit := do
  let current ← Tx.read fun s => s.readBalance account
  Tx.reject (current < amount) .insufficientBalance
  let next ← checkedI128 (current - amount)
  Tx.update fun s => s.setBalance account next

def transferChecked (env : Env) (source target : Address) (amount : ℤ) : Tx State Error Unit := do
  Tx.reject (amount < 0) .invalidAmount
  assertSettled env source target
  requireAuth env source
  validateCompliance env source target amount
  debit source amount
  credit target amount
  publish (.transfer source target amount)

/-- Its panics carry the errors of the checked form. -/
def transfer (env : Env) (source target : Address) (amount : ℤ) : Tx State Error Unit :=
  transferChecked env source target amount

end Balances

section Allowances

/-- The entry has an amount whose last ledger is past. -/
def Allowance.Lapsed (a : Allowance) (env : Env) : Prop :=
  0 < a.amount ∧ a.expirationLedger < env.sequence

instance (a : Allowance) (env : Env) : Decidable (a.Lapsed env) :=
  inferInstanceAs (Decidable (_ ∧ _))

/-- A lapsed entry reads as nothing, and is removed. -/
def readAllowance (env : Env) (key : Address × Address) : Tx State Error Allowance := do
  let stored ← Tx.read fun s => s.storedAllowance key
  if stored.Lapsed env then do
    Tx.update fun s => s.setAllowance key none
    pure { stored with amount := 0 }
  else pure stored

def writeAllowance (key : Address × Address) (value : Allowance) : Tx State Error Unit :=
  Tx.update fun s => s.putAllowance key value

def allowance (env : Env) (owner spender : Address) : Tx State Error ℤ := do
  let current ← readAllowance env (owner, spender)
  pure current.amount

def approve (env : Env) (owner spender : Address) (amount : ℤ) (expirationLedger : ℕ) :
    Tx State Error Unit := do
  Tx.reject (amount < 0) .invalidAmount
  Tx.reject (0 < amount ∧ expirationLedger < env.sequence) .invalidExpiration
  assertMovable env owner
  let partitionFrozen ← Tx.read fun s => s.isPartitionFrozen owner
  Tx.reject (partitionFrozen = true) .accountFrozen
  requireAuth env owner
  writeAllowance (owner, spender) ⟨amount, expirationLedger⟩
  publish (.approve owner spender amount expirationLedger)

/-- What is left of the allowance goes back with the ledger it came with. -/
def spendAllowance (key : Address × Address) (current : Allowance) (amount : ℤ) :
    Tx State Error Unit := do
  let left ← checkedI128 (current.amount - amount)
  writeAllowance key { current with amount := left }

def transferFromChecked (env : Env) (spender source target : Address) (amount : ℤ) :
    Tx State Error Unit := do
  Tx.reject (amount < 0) .invalidAmount
  assertSettled env source target
  assertMovable env spender
  requireAuth env spender
  let current ← readAllowance env (source, spender)
  Tx.reject (current.amount < amount) .insufficientAllowance
  validateCompliance env source target amount
  spendAllowance (source, spender) current amount
  debit source amount
  credit target amount
  publish (.transfer source target amount)

def transferFrom (env : Env) (spender source target : Address) (amount : ℤ) :
    Tx State Error Unit :=
  transferFromChecked env spender source target amount

end Allowances

section Supply

/-- Take what was debited out of the supply as well. -/
def shrinkSupply (amount : ℤ) : Tx State Error Unit := do
  let supply ← Tx.read State.getTotalSupply
  let next ← checkedI128 (supply - amount)
  Tx.update fun s => s.setTotalSupply next

def burn (env : Env) (owner : Address) (amount : ℤ) : Tx State Error Unit := do
  Tx.reject (amount < 0) .invalidAmount
  assertMovable env owner
  assertTransferable owner amount
  requireAuth env owner
  debit owner amount
  shrinkSupply amount
  publish (.burn owner amount)

def burnFrom (env : Env) (spender owner : Address) (amount : ℤ) : Tx State Error Unit := do
  Tx.reject (amount < 0) .invalidAmount
  assertMovable env owner
  assertTransferable owner amount
  assertMovable env spender
  requireAuth env spender
  let current ← readAllowance env (owner, spender)
  Tx.reject (0 < current.expirationLedger ∧ current.expirationLedger < env.sequence)
    .allowanceExpired
  Tx.reject (current.amount < amount) .insufficientAllowance
  spendAllowance (owner, spender) current amount
  debit owner amount
  shrinkSupply amount
  publish (.burn owner amount)

/-- The supply once the amount is minted, if the cap lets it. -/
def grownSupply (amount : ℤ) : Tx State Error ℤ := do
  let supply ← Tx.read State.getTotalSupply
  let maxSupply ← Tx.read State.getMaxSupply
  Tx.reject (¬ FitsI128 (supply + amount)) .supplyCapExceeded
  Tx.reject (maxSupply < supply + amount) .supplyCapExceeded
  pure (supply + amount)

def mint (env : Env) (target : Address) (amount : ℤ) : Tx State Error Unit := do
  let _ ← requireAdminAuth env
  Tx.reject (amount ≤ 0) .invalidAmount
  assertMovable env target
  let newSupply ← grownSupply amount
  credit target amount
  Tx.update fun s => s.setTotalSupply newSupply
  publish (.mint target amount)

/-- Check one item of a batch and add it to the total. -/
def checkMint (env : Env) (total : ℤ) (item : Address × ℤ) : Tx State Error ℤ := do
  Tx.reject (item.2 ≤ 0) .invalidAmount
  assertMovable env item.1
  Tx.reject (¬ FitsI128 (total + item.2)) .supplyCapExceeded
  pure (total + item.2)

def creditMint (item : Address × ℤ) : Tx State Error Unit := do
  credit item.1 item.2
  publish (.mint item.1 item.2)

def batchMint (env : Env) (recipients : List Address) (amounts : List ℤ) :
    Tx State Error Unit := do
  let admin ← requireAdminAuth env
  Tx.reject (recipients = []) .invalidAmount
  Tx.reject (maxBatchSize < recipients.length) .batchSizeExceeded
  Tx.reject (recipients.length ≠ amounts.length) .batchLengthMismatch
  let items := recipients.zip amounts
  let total ← Tx.fold (checkMint env) 0 items
  let newSupply ← grownSupply total
  Tx.forEach creditMint items
  Tx.update fun s => s.setTotalSupply newSupply
  publish (.batchMint admin total)

end Supply

section Permits

def permitDomainSeparator (d : Deployment) (name : String) : Bytes :=
  d.hashBytes (d.sha256 (d.xdr
    (PermitDomain.toVal ⟨name, 1, d.hashBytes d.networkId, d.self⟩)))

def permitDigestInternal (d : Deployment) (name : String) (owner spender : Address) (value : ℤ)
    (nonce deadline : ℕ) : Bytes :=
  d.hashBytes (d.sha256 (d.xdr
    (PermitPayload.toVal ⟨permitDomainSeparator d name, owner, spender, value, nonce, deadline⟩)))

def permit (d : Deployment) (env : Env) (owner spender : Address) (value : ℤ) (deadline : ℕ)
    (signature : Bytes) : Tx State Error Unit := do
  let initialized ← Tx.read State.initialized
  Tx.reject (initialized = false) .notInitialized
  Tx.reject (value < 0) .invalidAmount
  Tx.reject (deadline < env.timestamp) .permitExpired
  Tx.reject (saturateU64 (env.timestamp + maxPermitLifetimeSeconds) < deadline)
    .permitDeadlineTooFar
  assertMovable env owner
  let partitionFrozen ← Tx.read fun s => s.isPartitionFrozen owner
  Tx.reject (partitionFrozen = true) .accountFrozen
  let nonce ← Tx.read fun s => s.getPermitNonce owner
  Tx.reject (maxU64 < nonce + 1) .invalidNonce
  Tx.reject (signature.length ≠ 64) .invalidSignature
  let key ← Tx.unwrap (accountPublicKey (d.addressString owner)) .invalidSignature
  let name ← Tx.read State.getName
  let digest := permitDigestInternal d name owner spender value nonce deadline
  -- A bad signature traps; nothing has been written yet.
  Tx.demand (d.ed25519Verify (publicKey key) digest (signatureOf signature) = true)
  writeAllowance (owner, spender) ⟨value, maxU32⟩
  Tx.update fun s => s.setPermitNonce owner (nonce + 1)
  publish (.approve owner spender value maxU32)

end Permits

end StellarTags.Token
