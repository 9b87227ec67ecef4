import Mathlib.Algebra.Ring.Nat
import Mathlib.Data.List.Dedup
import StellarTags.Library.Approvals

/-! The accounts that Horizon reports, and the check of keys against their thresholds. -/

namespace StellarTags.Registration

open Library.WeightedApproval

structure Signer where
  key : String
  weight : ℕ
  deriving DecidableEq, Repr

structure Thresholds where
  low_threshold : ℕ
  med_threshold : ℕ
  high_threshold : ℕ
  deriving DecidableEq, Repr

structure Account where
  accountId : String
  signers : List Signer
  thresholds : Thresholds
  deriving DecidableEq, Repr

structure HorizonError where
  status : Option ℕ
  message : String
  deriving DecidableEq, Repr

/-- What `loadAccount` answers. -/
abbrev Horizon := String → Except HorizonError Account

structure ServiceError where
  message : String
  statusCode : Option ℕ := none
  deriving DecidableEq, Repr

inductive OperationType
  | payment
  | management
  | high
  deriving DecidableEq, Repr

structure SignatureDetail where
  publicKey : String
  weight : ℕ
  isValid : Bool
  deriving DecidableEq, Repr

structure SignatureWeight where
  totalWeight : ℕ
  signatureDetails : List SignatureDetail
  deriving DecidableEq, Repr

structure Verification where
  success : Bool
  accountId : String
  operationType : OperationType
  requiredThreshold : ℕ
  totalWeight : ℕ
  signatureCount : ℕ
  uniqueSignerCount : ℕ
  signatures : List SignatureDetail
  thresholds : Thresholds
  signerCount : ℕ
  errorMessage : Option String
  deriving DecidableEq, Repr

def fetchAccountSigners (loadAccount : Horizon) (accountId : String) : Except String Account :=
  match loadAccount accountId with
  | .ok account => .ok account
  | .error error =>
    if error.status = some 404 then .error s!"Account not found on Horizon: {accountId}"
    else .error s!"Failed to fetch account signers: {error.message}"

def signerMap (accountSigners : List Signer) : String → ℕ :=
  accountSigners.foldl (fun map signer => Function.update map signer.key signer.weight) fun _ => 0

def addSignature (signerMap : String → ℕ) (sum : SignatureWeight) (pubKey : String) :
    SignatureWeight where
  totalWeight :=
    if 0 < signerMap pubKey then sum.totalWeight + signerMap pubKey else sum.totalWeight
  signatureDetails :=
    sum.signatureDetails ++ [⟨pubKey, signerMap pubKey, decide (0 < signerMap pubKey)⟩]

def calculateSignatureWeight (signaturePublicKeys : List String) (accountSigners : List Signer) :
    SignatureWeight :=
  signaturePublicKeys.foldl (addSignature (signerMap accountSigners)) ⟨0, []⟩

def getApplicableThreshold (operationType : OperationType) (thresholds : Thresholds) : ℕ :=
  match operationType with
  | .management => thresholds.med_threshold
  | .high => thresholds.high_threshold
  | .payment => thresholds.low_threshold

def uniqueKeys (keys : List String) : List String := keys.reverse.dedup.reverse

def verifyMultiSignerThreshold (loadAccount : Horizon) (accountId : String)
    (signaturePublicKeys : List String) (operationType : OperationType) :
    Except String Verification := do
  if accountId = "" then throw "Invalid account ID provided"
  if signaturePublicKeys = [] then throw "At least one signature is required for verification"
  let uniqueSignatures := uniqueKeys signaturePublicKeys
  let accountDetails ← fetchAccountSigners loadAccount accountId
  let requiredThreshold := getApplicableThreshold operationType accountDetails.thresholds
  let sum := calculateSignatureWeight uniqueSignatures accountDetails.signers
  let meetsThreshold := decide (requiredThreshold ≤ sum.totalWeight)
  return {
    success := meetsThreshold
    accountId := accountId
    operationType := operationType
    requiredThreshold := requiredThreshold
    totalWeight := sum.totalWeight
    signatureCount := uniqueSignatures.length
    uniqueSignerCount := (sum.signatureDetails.filter (·.isValid)).length
    signatures := sum.signatureDetails
    thresholds := accountDetails.thresholds
    signerCount := accountDetails.signers.length
    errorMessage := if meetsThreshold then none else
      some s!"Insufficient signing weight. Required: {requiredThreshold}, Provided: {sum.totalWeight}" }

/-- How the services ask for one signature; what the verification throws has no status code. -/
def checkSignature (loadAccount : Horizon) (address signature fallback : String) :
    Except ServiceError Unit :=
  match verifyMultiSignerThreshold loadAccount address [signature] .management with
  | .error message => .error { message := message }
  | .ok verification =>
    if verification.success then .ok ()
    else .error { message := verification.errorMessage.getD fallback, statusCode := some 401 }

/-- The text itself, read as a public key, has the weight of the medium threshold. -/
def HeavyKey (loadAccount : Horizon) (address key : String) : Prop :=
  key ≠ "" ∧ ∃ account, loadAccount address = .ok account ∧
    account.thresholds.med_threshold ≤ signerMap account.signers key

variable {accountId : String} {keys : List String}

lemma foldl_addSignature_totalWeight (weight : String → ℕ) (keys : List String)
    (sum : SignatureWeight) :
    (keys.foldl (addSignature weight) sum).totalWeight =
      sum.totalWeight + (keys.map weight).sum := by
  induction keys generalizing sum with
  | nil => simp
  | cons key keys ih =>
    rw [List.foldl_cons, ih, List.map_cons, List.sum_cons, ← add_assoc]
    congr 1
    simp only [addSignature]
    split
    · rfl
    · omega

lemma totalWeight_uniqueKeys (keys : List String) (signers : List Signer) :
    (calculateSignatureWeight (uniqueKeys keys) signers).totalWeight =
      ∑ key ∈ keys.toFinset, signerMap signers key := by
  have hnodup : (uniqueKeys keys).Nodup := List.nodup_reverse.mpr (List.nodup_dedup _)
  have hset : (uniqueKeys keys).toFinset = keys.toFinset := by
    ext key
    simp [uniqueKeys]
  rw [calculateSignatureWeight, foldl_addSignature_totalWeight, zero_add, ← hset,
    List.sum_toFinset _ hnodup]

/-- The check takes a key that is presented for a signature of its owner. -/
theorem verifyMultiSignerThreshold_success (loadAccount : Horizon)
    (operationType : OperationType) (hid : accountId ≠ "") (hkeys : keys ≠ []) :
    (∃ verification,
      verifyMultiSignerThreshold loadAccount accountId keys operationType = .ok verification ∧
        verification.success = true) ↔
    ∃ account, loadAccount accountId = .ok account ∧
      Approved (signerMap account.signers) (getApplicableThreshold operationType account.thresholds)
        {key | key ∈ keys} := by
  have happroved (account : Account) (threshold : ℕ) :
      Approved (signerMap account.signers) threshold {key | key ∈ keys} ↔
        threshold ≤ ∑ key ∈ keys.toFinset, signerMap account.signers key := by
    rw [← approved_coe, List.coe_toFinset]
  cases hload : loadAccount accountId with
  | error error =>
    simp only [verifyMultiSignerThreshold, fetchAccountSigners, hload, hid, hkeys]
    by_cases hstatus : error.status = some 404 <;> simp [hstatus, bind, Except.bind]
  | ok account =>
    simp [verifyMultiSignerThreshold, fetchAccountSigners, hload, hid, hkeys, bind, Except.bind,
      totalWeight_uniqueKeys, pure, Except.pure, happroved]

lemma checkSignature_ok {loadAccount : Horizon} {address signature : String} (fallback : String)
    (hsignature : signature ≠ "") :
    checkSignature loadAccount address signature fallback = .ok () ↔
      address ≠ "" ∧ HeavyKey loadAccount address signature := by
  by_cases haddress : address = ""
  · simp [checkSignature, verifyMultiSignerThreshold, haddress, throw, throwThe,
      MonadExceptOf.throw, bind, Except.bind]
  have hverify := verifyMultiSignerThreshold_success loadAccount .management haddress
    (List.cons_ne_nil signature [])
  simp only [List.mem_singleton, Set.ofPred_eq_eq_singleton, approved_singleton,
    getApplicableThreshold] at hverify
  rw [HeavyKey, ← hverify]
  simp only [haddress, hsignature, ne_eq, not_false_eq_true, true_and, checkSignature]
  cases verifyMultiSignerThreshold loadAccount address [signature] .management with
  | error message => simp
  | ok verification => cases hsuccess : verification.success <;> simp [hsuccess]

end StellarTags.Registration
