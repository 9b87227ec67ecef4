import StellarTags.Platform.Encoding
import StellarTags.Registration.MultiSigner

/-! How the owner of a username is authenticated. -/

namespace StellarTags.Registration

open Library.BigEndian Platform

structure DatabaseError where
  code : String
  message : String
  deriving DecidableEq, Repr

structure UserRecord where
  username : String
  address : String
  deriving DecidableEq, Repr

structure Primitives where
  toLowerCase : String → String
  isValidEd25519PublicKey : String → Bool
  fromBase64 : String → Bytes
  sha256 : Bytes → Digest
  /-- A key, a digest and a signature. -/
  verify : String → Digest → Bytes → Except String Bool

/-- The registry with its fallback and Horizon, as a request finds them. -/
structure Services extends Primitives where
  findFirst : String → Except DatabaseError (Option UserRecord)
  poolGet : String → Except DatabaseError (Option UserRecord)
  loadAccount : Horizon

inductive SignatureValue
  | buffer (bytes : Bytes)
  | text (s : String)
  | other

/-- A field that is no text is none. -/
structure AuthenticationRequest where
  username : Option String
  signature : Option String
  signerAddress : Option String := none
  operation : String := "webhook"
  allowPublicKeySignature : Bool := true

def httpError (message : String) (statusCode : ℕ) : ServiceError :=
  { message := message, statusCode := some statusCode }

def DEFAULT_FEDERATION_DOMAIN : String := "localhost"

def normalizeNameTag (value : String) : String :=
  let trimmed := trim value
  if trimmed = "" then ""
  else if '*' ∈ trimmed.toList then trimmed
  else trimmed ++ "*" ++ DEFAULT_FEDERATION_DOMAIN

/-- Letters of either case are the same. -/
def mentions (text word : String) : Bool :=
  decide (word.toList.map Char.toLower <:+: text.toList.map Char.toLower)

def shouldFallbackToLocalRegistry (error : DatabaseError) : Bool :=
  error.code.startsWith "P10" ||
  decide (error.code ∈ ["P2021", "P2023", "P2028", "P2001"]) ||
  ["DATABASE_URL", "connect", "relation", "table", "timeout"].any (mentions error.message)

def findUserRecord (services : Services) (username : String) :
    Except ServiceError (Option UserRecord) :=
  match services.findFirst username with
  | .ok record => .ok record
  | .error error =>
    if shouldFallbackToLocalRegistry error then
      match services.poolGet username with
      | .ok record => .ok record
      | .error error => .error { message := error.message }
    else .error { message := error.message }

def signedPayload (message : String) : Bytes :=
  utf8 "Stellar Signed Message:\n" ++ utf8 message

def signatureBuffer (primitives : Primitives) : SignatureValue → Except ServiceError Bytes
  | .buffer bytes => .ok bytes
  | .text s => .ok (primitives.fromBase64 s)
  | .other => .error { message := "Invalid message signature format." }

def verifyFreighterSignedMessage (primitives : Primitives) (message : String)
    (signature : SignatureValue) (signerAddress publicKey : String) : Except ServiceError String :=
  let claimedSigner := if signerAddress = "" then publicKey else signerAddress
  if ¬ primitives.isValidEd25519PublicKey claimedSigner then
    .error (httpError "Invalid signer address format." 400)
  else
    match signatureBuffer primitives signature with
    | .error error => .error error
    | .ok bytes =>
      match primitives.verify claimedSigner (primitives.sha256 (signedPayload message)) bytes with
      | .error message => .error { message := message }
      | .ok false => .error (httpError "Signature verification failed." 401)
      | .ok true =>
        if claimedSigner ≠ publicKey then
          .error (httpError "Signer address does not match the registered account." 401)
        else .ok claimedSigner

namespace AuthenticationRequest

variable (primitives : Primitives) (request : AuthenticationRequest)

def presentedUsername : String := trim (request.username.getD "")

def presentedSignature : String := trim (request.signature.getD "")

def presentedSigner : String := trim (request.signerAddress.getD "")

def normalizedUsername : String :=
  primitives.toLowerCase (normalizeNameTag request.presentedUsername)

def message : String := request.operation ++ ":" ++ request.normalizedUsername primitives

/-- The path that looks only at whose key the signature is. -/
def ByPublicKey : Prop :=
  request.allowPublicKeySignature = true ∧
    primitives.isValidEd25519PublicKey request.presentedSignature = true ∧
    request.presentedSigner = ""

instance : Decidable (request.ByPublicKey primitives) :=
  inferInstanceAs (Decidable (_ ∧ _ ∧ _))

end AuthenticationRequest

def authenticateUsernameOwner (services : Services) (request : AuthenticationRequest) :
    Except ServiceError UserRecord :=
  if request.presentedUsername = "" then
    .error (httpError "Missing required field: username." 400)
  else if request.presentedSignature = "" then
    .error (httpError "Missing required field: signature." 400)
  else
    match findUserRecord services (request.normalizedUsername services.toPrimitives) with
    | .error error => .error error
    | .ok none => .error (httpError "Username not registered." 404)
    | .ok (some userRecord) =>
      if request.ByPublicKey services.toPrimitives then do
        checkSignature services.loadAccount userRecord.address request.presentedSignature
          "Signature verification failed"
        return userRecord
      else do
        let _ ← verifyFreighterSignedMessage services.toPrimitives
          (request.message services.toPrimitives) (.text request.presentedSignature)
          request.presentedSigner userRecord.address
        return userRecord

section Soundness

/-- The key has signed the message of the request. -/
def SignedBy (primitives : Primitives) (request : AuthenticationRequest) (key : String) : Prop :=
  primitives.verify key (primitives.sha256 (signedPayload (request.message primitives)))
    (primitives.fromBase64 request.presentedSignature) = .ok true

/-- What stands behind a request that is let through. -/
def Vouched (services : Services) (request : AuthenticationRequest) (address : String) : Prop :=
  if request.ByPublicKey services.toPrimitives then
    HeavyKey services.loadAccount address request.presentedSignature
  else SignedBy services.toPrimitives request address

/-- Nobody makes a signature that is valid for two digests, and no public key is a signature. -/
structure Primitives.Unforgeable (primitives : Primitives) (signature : String) : Prop where
  digest_unique : ∀ {key key' : String} {digest digest' : Digest},
    primitives.verify key digest (primitives.fromBase64 signature) = .ok true →
    primitives.verify key' digest' (primitives.fromBase64 signature) = .ok true → digest = digest'
  publicKey : primitives.isValidEd25519PublicKey signature = true → ∀ key digest,
    primitives.verify key digest (primitives.fromBase64 signature) ≠ .ok true

end Soundness

variable {primitives : Primitives} {services services' : Services}
  {request request' : AuthenticationRequest} {record record' : UserRecord}

lemma verifyFreighterSignedMessage_ok {message signature signerAddress publicKey signer : String}
    (h : verifyFreighterSignedMessage primitives message (.text signature) signerAddress publicKey =
      .ok signer) :
    primitives.verify publicKey (primitives.sha256 (signedPayload message))
      (primitives.fromBase64 signature) = .ok true := by
  simp only [verifyFreighterSignedMessage, signatureBuffer] at h
  generalize (if signerAddress = "" then publicKey else signerAddress) = claimedSigner at h
  by_cases hvalid : primitives.isValidEd25519PublicKey claimedSigner = true
  · rw [if_neg (not_not.mpr hvalid)] at h
    split at h
    · cases h
    · cases h
    · rename_i hverify
      by_cases hsame : claimedSigner = publicKey
      · rwa [hsame] at hverify
      · rw [if_pos hsame] at h
        cases h
  · rw [if_pos hvalid] at h
    cases h

lemma authenticateUsernameOwner_ok (h : authenticateUsernameOwner services request = .ok record) :
    findUserRecord services (request.normalizedUsername services.toPrimitives) = .ok (some record) ∧
      Vouched services request record.address := by
  by_cases husername : request.presentedUsername = ""
  · simp [authenticateUsernameOwner, husername] at h
  by_cases hsignature : request.presentedSignature = ""
  · simp [authenticateUsernameOwner, husername, hsignature] at h
  simp only [authenticateUsernameOwner, husername, hsignature, if_false] at h
  split at h
  · cases h
  · cases h
  · rename_i userRecord hfind
    by_cases hkey : request.ByPublicKey services.toPrimitives
    · rw [if_pos hkey] at h
      cases hcheck : checkSignature services.loadAccount userRecord.address
          request.presentedSignature "Signature verification failed" with
      | error => simp [hcheck, bind, Except.bind] at h
      | ok =>
        obtain rfl : userRecord = record := by
          simpa [hcheck, bind, Except.bind, pure, Except.pure] using h
        rw [Vouched, if_pos hkey]
        exact ⟨hfind, ((checkSignature_ok _ hsignature).mp hcheck).2⟩
    · rw [if_neg hkey] at h
      cases hverify : verifyFreighterSignedMessage services.toPrimitives
          (request.message services.toPrimitives) (.text request.presentedSignature)
          request.presentedSigner userRecord.address with
      | error => simp [hverify, bind, Except.bind] at h
      | ok =>
        obtain rfl : userRecord = record := by
          simpa [hverify, bind, Except.bind, pure, Except.pure] using h
        rw [Vouched, if_neg hkey]
        exact ⟨hfind, verifyFreighterSignedMessage_ok hverify⟩

/-- Only the first colon of a message is not in its operation. -/
lemma message_inj (hcolon : ':' ∉ request.operation.toList) (hcolon' : ':' ∉ request'.operation.toList)
    (h : request.message primitives = request'.message primitives) :
    request.operation = request'.operation ∧
      request.normalizedUsername primitives = request'.normalizedUsername primitives := by
  have hsplit : request.operation.toList ++ ':' :: (request.normalizedUsername primitives).toList =
      request'.operation.toList ++ ':' :: (request'.normalizedUsername primitives).toList := by
    simpa [AuthenticationRequest.message] using congrArg String.toList h
  have hbefore {operation : List Char} (hcolon : ':' ∉ operation) (username : List Char) :
      (operation ++ ':' :: username).takeWhile (· ≠ ':') = operation := by
    have hne : ∀ c ∈ operation, (decide (c ≠ ':')) = true :=
      fun c hc => decide_eq_true fun heq => hcolon (heq ▸ hc)
    rw [List.takeWhile_append_of_pos hne, List.takeWhile_cons_of_neg (by simp), List.append_nil]
  have hoperation : request.operation.toList = request'.operation.toList := by
    rw [← hbefore hcolon (request.normalizedUsername primitives).toList, hsplit,
      hbefore hcolon']
  rw [hoperation, List.append_cancel_left_eq, List.cons.injEq] at hsplit
  exact ⟨String.toList_inj.mp hoperation, String.toList_inj.mp hsplit.2⟩

lemma signedPayload_injective : Function.Injective signedPayload := fun _ _ h =>
  utf8_injective (List.append_cancel_left h)

/-- A signed message stands for its own operation and username only, whatever becomes of the
registry and the accounts. -/
lemma not_replayed (hsame : services'.toPrimitives = services.toPrimitives)
    (h : authenticateUsernameOwner services request = .ok record)
    (h' : authenticateUsernameOwner services' request' = .ok record')
    (hsigned : ¬ request.ByPublicKey services.toPrimitives)
    (hvalue : request'.presentedSignature = request.presentedSignature)
    (hforge : services.Unforgeable request.presentedSignature)
    (hcollision : CollisionFree services.sha256
      [signedPayload (request.message services.toPrimitives),
        signedPayload (request'.message services.toPrimitives)])
    (hcolon : ':' ∉ request.operation.toList) (hcolon' : ':' ∉ request'.operation.toList) :
    request.operation = request'.operation ∧
      request.normalizedUsername services.toPrimitives =
        request'.normalizedUsername services.toPrimitives := by
  have hverify := (authenticateUsernameOwner_ok h).2
  have hverify' := (authenticateUsernameOwner_ok h').2
  rw [Vouched, if_neg hsigned, SignedBy] at hverify
  rw [Vouched, hsame] at hverify'
  -- what has been verified once is not taken for a key
  have hsigned' : ¬ request'.ByPublicKey services.toPrimitives := fun hkey =>
    hforge.publicKey (hvalue ▸ hkey.2.1) _ _ hverify
  rw [if_neg hsigned', SignedBy, hvalue] at hverify'
  have hdigest := hforge.digest_unique hverify hverify'
  have hpayload := hcollision _ (by simp) _ (by simp) hdigest
  exact message_inj hcolon hcolon' (signedPayload_injective hpayload)

/-- What is not let through by its public key alone is signed by the registered account, and the
signature is good for nothing else. -/
theorem authenticateUsernameOwner_sound
    (h : authenticateUsernameOwner services request = .ok record) :
    (findUserRecord services (request.normalizedUsername services.toPrimitives) =
        .ok (some record) ∧
      Vouched services request record.address) ∧
    ∀ {services' : Services} {request' : AuthenticationRequest} {record' : UserRecord},
      services'.toPrimitives = services.toPrimitives →
      authenticateUsernameOwner services' request' = .ok record' →
      ¬ request.ByPublicKey services.toPrimitives →
      request'.presentedSignature = request.presentedSignature →
      services.Unforgeable request.presentedSignature →
      CollisionFree services.sha256
        [signedPayload (request.message services.toPrimitives),
          signedPayload (request'.message services.toPrimitives)] →
      ':' ∉ request.operation.toList → ':' ∉ request'.operation.toList →
      request.operation = request'.operation ∧
        request.normalizedUsername services.toPrimitives =
          request'.normalizedUsername services.toPrimitives :=
  ⟨authenticateUsernameOwner_ok h, fun hsame h' => not_replayed hsame h h'⟩

section Samples

def sampleServices (signed : String) : Services where
  toLowerCase := id
  isValidEd25519PublicKey key := decide (key = "GOWNER")
  fromBase64 s := if s = "SIGNED" then (sampleSha256 (signedPayload signed)).bytes else []
  sha256 := sampleSha256
  verify key digest bytes := .ok (decide (key = "GOWNER" ∧ bytes = digest.bytes))
  findFirst username := .ok (some ⟨username, "GOWNER"⟩)
  poolGet _ := .ok none
  loadAccount accountId := .ok ⟨accountId, [⟨accountId, 1⟩], ⟨1, 1, 1⟩⟩

def sampleRequest (operation username signature : String) : AuthenticationRequest :=
  { username := some username, signature := some signature, operation := operation }

lemma sampleServices_signed {signed operation username normalized : String}
    (husername : trim username ≠ "") (hnormalized : normalizeNameTag (trim username) = normalized)
    (hmessage : operation ++ ":" ++ normalized = signed) :
    authenticateUsernameOwner (sampleServices signed) (sampleRequest operation username "SIGNED") =
      .ok ⟨normalized, "GOWNER"⟩ := by
  subst hnormalized hmessage
  have hsignature : trim "SIGNED" = "SIGNED" := by decide
  have hsigner : trim "" = "" := by decide
  simp [authenticateUsernameOwner, AuthenticationRequest.ByPublicKey,
    AuthenticationRequest.presentedUsername, AuthenticationRequest.presentedSigner,
    AuthenticationRequest.presentedSignature, sampleRequest, husername,
    AuthenticationRequest.normalizedUsername, AuthenticationRequest.message, sampleServices,
    hsignature, hsigner, findUserRecord, verifyFreighterSignedMessage, signatureBuffer]

lemma sampleServices_unforgeable (signed : String) :
    (sampleServices signed).Unforgeable "SIGNED" where
  digest_unique := by
    intro key key' digest digest' h h'
    simp only [sampleServices, Except.ok.injEq, decide_eq_true_eq] at h h'
    exact Digest.ext (h.2.symm.trans h'.2)
  publicKey := by
    intro h
    simp [sampleServices] at h

/-- A signature for deleting a username, under either way of writing the username. -/
theorem authenticateUsernameOwner_sound_sample :
    let services := sampleServices "unregister:bob*localhost"
    (sampleRequest "unregister" "bob" "SIGNED").normalizedUsername services.toPrimitives =
      (sampleRequest "unregister" "bob*localhost " "SIGNED").normalizedUsername
        services.toPrimitives := by
  intro services
  have hmessage : (sampleRequest "unregister" "bob" "SIGNED").message services.toPrimitives =
      "unregister:bob*localhost" := by decide
  have hmessage' : (sampleRequest "unregister" "bob*localhost " "SIGNED").message
      services.toPrimitives = "unregister:bob*localhost" := by decide
  have haccepted : authenticateUsernameOwner services (sampleRequest "unregister" "bob" "SIGNED") =
      .ok ⟨"bob*localhost", "GOWNER"⟩ := sampleServices_signed (by decide) rfl rfl
  have haccepted' : authenticateUsernameOwner services
      (sampleRequest "unregister" "bob*localhost " "SIGNED") = .ok ⟨"bob*localhost", "GOWNER"⟩ :=
    sampleServices_signed (by decide) rfl rfl
  refine ((authenticateUsernameOwner_sound haccepted).2 rfl haccepted' ?_ rfl
    (sampleServices_unforgeable _) ?_ (by decide) (by decide)).2
  · intro hkey
    exact absurd hkey.2.1 (by decide)
  · rw [hmessage, hmessage']
    intro a ha b hb _
    simp only [List.mem_cons, List.not_mem_nil, or_false, or_self] at ha hb
    rw [ha, hb]

/-- A signer's public key is let through for every operation although no signature is valid; and
with a colon in an operation, one signature is taken for two usernames. -/
theorem publicKey_accepted :
    let services : Services := { sampleServices "" with verify := fun _ _ _ => .ok false }
    let colons := sampleServices "account:close:bob*localhost"
    (authenticateUsernameOwner services (sampleRequest "webhook" "bob" "GOWNER") =
        .ok ⟨"bob*localhost", "GOWNER"⟩ ∧
      authenticateUsernameOwner services (sampleRequest "activity" "bob" "GOWNER") =
        .ok ⟨"bob*localhost", "GOWNER"⟩ ∧
      ∀ key, ¬ SignedBy services.toPrimitives (sampleRequest "webhook" "bob" "GOWNER") key) ∧
    authenticateUsernameOwner colons (sampleRequest "account" "close:bob" "SIGNED") =
        .ok ⟨"close:bob*localhost", "GOWNER"⟩ ∧
      authenticateUsernameOwner colons (sampleRequest "account:close" "bob" "SIGNED") =
        .ok ⟨"bob*localhost", "GOWNER"⟩ := by
  refine ⟨⟨rfl, rfl, fun key h => ?_⟩, ?_, ?_⟩
  · simp [SignedBy] at h
  · exact sampleServices_signed (by decide) rfl rfl
  · exact sampleServices_signed (by decide) rfl rfl

end Samples

end StellarTags.Registration
