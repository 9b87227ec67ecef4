import StellarTags.Library.Runs
import StellarTags.Library.Tables

/-! Registrations and logins with WebAuthn, await by await. -/

namespace StellarTags.WebAuthn

open Library Library.Runs

section System

inductive ChallengeType
  | registration
  | authentication
  deriving DecidableEq, Repr

structure Challenge where
  id : ℕ
  challenge : String
  userId : Option String
  type : ChallengeType
  expiresAt : ℕ
  used : Bool := false
  usedAt : Option ℕ := none
  deriving DecidableEq, Repr

structure Credential where
  id : ℕ
  userId : String
  credentialId : String
  publicKey : String
  counter : ℕ
  deviceType : String
  friendlyName : Option String
  lastUsedAt : ℕ
  revokedAt : Option ℕ := none
  deriving DecidableEq, Repr

/-- What an authenticator answers, with whatever else the library looks at. -/
structure Response (B : Type) where
  challenge : String
  id : String
  body : B

structure RegistrationInfo where
  credentialID : String
  credentialPublicKey : String
  counter : ℕ

/-- The library that verifies responses, and how ids are read and written again. A login is accepted
with a counter above the one that was stored, or with both zero. -/
structure Host (B : Type) where
  base64url : String → String
  verifyRegistrationResponse : Response B → (expectedChallenge : String) → Option RegistrationInfo
  verifyAuthenticationResponse : Response B → (expectedChallenge : String) → Credential → Option ℕ
  advances : ∀ response expectedChallenge credential newCounter,
    verifyAuthenticationResponse response expectedChallenge credential = some newCounter →
      credential.counter < newCounter ∨ credential.counter = 0 ∧ newCounter = 0

structure RegistrationOptions where
  deviceType : Option String := none
  friendlyName : Option String := none

inductive Answer
  | registered (credentialId deviceType : String) (friendlyName : Option String)
  | authenticated (userId credentialId deviceType : String)
  | failed (message : String)
  deriving DecidableEq, Repr

/-- Where a call awaits: the challenge, the credential, the library, a write of the credential, the
write of the challenge. -/
inductive Phase (B : Type)
  | idle
  | seeking (userId : String) (response : Response B) (options : RegistrationOptions)
  | attesting (userId : String) (response : Response B) (options : RegistrationOptions)
      (challenge : Challenge)
  | storing (userId : String) (info : RegistrationInfo) (options : RegistrationOptions)
      (challenge : Challenge)
  | looking (response : Response B)
  | fetching (response : Response B) (challenge : Challenge)
  | asserting (response : Response B) (challenge : Challenge) (credential : Credential)
  | counting (newCounter : ℕ) (challenge : Challenge) (credential : Credential)
  | marking (challenge : Challenge) (answer : Answer)
  | answered (answer : Answer)

/-- The rows have the numbers that were next when they were created. -/
structure World (B : Type) where
  challenges : List Challenge := []
  credentials : List Credential := []
  nextChallenge : ℕ := 0
  nextCredential : ℕ := 0
  calls : ℕ → Phase B := fun _ => .idle

inductive Move (B : Type)
  | issue (challenge : String) (userId : Option String) (type : ChallengeType) (expiresAt : ℕ)
  | verifyRegistration (i : ℕ) (userId : String) (response : Response B)
      (options : RegistrationOptions)
  | verifyAuthentication (i : ℕ) (response : Response B)
  | resume (i : ℕ) (now : ℕ)
  | fail (i : ℕ) (message : String)
  | revoke (id : ℕ) (now : ℕ)
  | cleanup (now : ℕ)

variable {B : Type}

namespace World

variable (w : World B)

def setCall (i : ℕ) (phase : Phase B) : World B :=
  { w with calls := Function.update w.calls i phase }

def issue (challenge : String) (userId : Option String) (type : ChallengeType) (expiresAt : ℕ) :
    World B :=
  if challenge ∈ w.challenges.map Challenge.challenge then w
  else { w with
    challenges := w.challenges ++ [{
      id := w.nextChallenge
      challenge := challenge
      userId := userId
      type := type
      expiresAt := expiresAt }]
    nextChallenge := w.nextChallenge + 1 }

def findChallenge (now : ℕ) (type : ChallengeType) (challenge : String) (matchesUser : Option String → Bool) :
    Option Challenge :=
  w.challenges.find? fun row => row.challenge = challenge ∧ row.type = type ∧ row.used = false ∧
    now < row.expiresAt ∧ matchesUser row.userId = true

def findCredential (credentialId : String) : Option Credential :=
  w.credentials.find? fun row => row.credentialId = credentialId ∧ row.revokedAt = none

/-- The row of a credential that is not there yet, under its id. -/
def createCredential (now : ℕ) (userId : String) (info : RegistrationInfo)
    (options : RegistrationOptions) : Option (Credential × World B) :=
  if info.credentialID ∈ w.credentials.map Credential.credentialId then none
  else
    let credential : Credential := {
      id := w.nextCredential
      userId := userId
      credentialId := info.credentialID
      publicKey := info.credentialPublicKey
      counter := info.counter
      deviceType := options.deviceType.getD "unknown"
      friendlyName := options.friendlyName
      lastUsedAt := now }
    some (credential, { w with
      credentials := w.credentials ++ [credential]
      nextCredential := w.nextCredential + 1 })

def updateCredential (id : ℕ) (change : Credential → Credential) : World B :=
  { w with credentials := (Tables.updateMany (fun row => decide (row.id = id)) change w.credentials).2 }

def count (id newCounter now : ℕ) : World B :=
  w.updateCredential id fun row => { row with counter := newCounter, lastUsedAt := now }

def revoke (id now : ℕ) : World B :=
  w.updateCredential id fun row => { row with revokedAt := some now }

def mark (id now : ℕ) : World B :=
  { w with challenges := (Tables.updateMany (fun row => decide (row.id = id))
      (fun row => { row with used := true, usedAt := some now }) w.challenges).2 }

def cleanup (now : ℕ) : World B :=
  { w with challenges := w.challenges.filter fun row => ¬ row.expiresAt < now }

end World

variable (host : Host B)

/-- An await of a call ends. A row that is not there any more is not updated. -/
def World.resume (w : World B) (i now : ℕ) : World B :=
  match w.calls i with
  | .idle | .answered _ => w
  | .seeking userId response options =>
    match w.findChallenge now .registration response.challenge (· = some userId) with
    | none => w.setCall i (.answered (.failed "Invalid or expired challenge"))
    | some challenge => w.setCall i (.attesting userId response options challenge)
  | .attesting userId response options challenge =>
    match host.verifyRegistrationResponse response challenge.challenge with
    | none => w.setCall i (.answered (.failed "Registration verification failed"))
    | some info => w.setCall i (.storing userId info options challenge)
  | .storing userId info options challenge =>
    match w.createCredential now userId info options with
    | none => w.setCall i (.answered (.failed "Unique constraint failed"))
    | some (credential, next) =>
      next.setCall i (.marking challenge
        (.registered credential.credentialId credential.deviceType credential.friendlyName))
  | .looking response =>
    match w.findChallenge now .authentication response.challenge fun _ => true with
    | none => w.setCall i (.answered (.failed "Invalid or expired challenge"))
    | some challenge => w.setCall i (.fetching response challenge)
  | .fetching response challenge =>
    match w.findCredential (host.base64url response.id) with
    | none => w.setCall i (.answered (.failed "Credential not found or revoked"))
    | some credential => w.setCall i (.asserting response challenge credential)
  | .asserting response challenge credential =>
    match host.verifyAuthenticationResponse response challenge.challenge credential with
    | none => w.setCall i (.answered (.failed "Authentication verification failed"))
    | some newCounter => w.setCall i (.counting newCounter challenge credential)
  | .counting newCounter challenge credential =>
    match Tables.lookup Credential.id credential.id w.credentials with
    | none => w.setCall i (.answered (.failed "Record to update not found"))
    | some _ =>
      (w.count credential.id newCounter now).setCall i (.marking challenge
        (.authenticated credential.userId credential.credentialId credential.deviceType))
  | .marking challenge answer =>
    match Tables.lookup Challenge.id challenge.id w.challenges with
    | none => w.setCall i (.answered (.failed "Record to update not found"))
    | some _ => (w.mark challenge.id now).setCall i (.answered answer)

def World.fail (w : World B) (i : ℕ) (message : String) : World B :=
  match w.calls i with
  | .idle | .answered _ => w
  | _ => w.setCall i (.answered (.failed message))

def step (move : Move B) (w : World B) : World B :=
  match move with
  | .issue challenge userId type expiresAt => w.issue challenge userId type expiresAt
  | .verifyRegistration i userId response options =>
    match w.calls i with
    | .idle => w.setCall i (.seeking userId response options)
    | _ => w
  | .verifyAuthentication i response =>
    match w.calls i with
    | .idle => w.setCall i (.looking response)
    | _ => w
  | .resume i now => w.resume host i now
  | .fail i message => w.fail i message
  | .revoke id now => w.revoke id now
  | .cleanup now => w.cleanup now

/-- A verification that has succeeded: of which challenge, when it expires and when it was. -/
structure Success where
  challenge : ℕ
  expiresAt : ℕ
  time : ℕ
  deriving DecidableEq, Repr

def successes (w : World B) (move : Move B) : List Success :=
  match move with
  | .resume i now =>
    match w.calls i with
    | .marking challenge _ =>
      match Tables.lookup Challenge.id challenge.id w.challenges with
      | none => []
      | some row => [⟨row.id, row.expiresAt, now⟩]
    | _ => []
  | _ => []

end System

section Rows

variable {B : Type} {host : Host B} {w : World B} {move : Move B}

/-- A call that writes its challenge finds it neither used nor expired. -/
def Unspent (w : World B) (move : Move B) : Prop :=
  ∀ i now challenge answer row, move = .resume i now → w.calls i = .marking challenge answer →
    Tables.lookup Challenge.id challenge.id w.challenges = some row →
      row.used = false ∧ now < row.expiresAt

/-- A call that writes a counter finds none above it. -/
def Ahead (w : World B) (move : Move B) : Prop :=
  ∀ i now newCounter challenge credential row, move = .resume i now →
    w.calls i = .counting newCounter challenge credential →
      Tables.lookup Credential.id credential.id w.credentials = some row → row.counter ≤ newCounter

/-- No counter goes down, and no credential goes away. -/
def Advances (w next : World B) : Prop :=
  ∀ id row, Tables.lookup Credential.id id w.credentials = some row →
    ∃ row', Tables.lookup Credential.id id next.credentials = some row' ∧ row.counter ≤ row'.counter

/-- What a move makes of the challenges. -/
inductive ChallengeEffect (w : World B) (move : Move B) (next : World B) : List Success → Prop
  | same (hmarks : ∀ i now challenge answer row, move = .resume i now →
        w.calls i = .marking challenge answer →
          Tables.lookup Challenge.id challenge.id w.challenges ≠ some row)
      (hrows : next.challenges = w.challenges) (hnext : next.nextChallenge = w.nextChallenge) :
      ChallengeEffect w move next []
  | issued (row : Challenge) (hmarks : ∀ i now, move ≠ .resume i now)
      (hid : row.id = w.nextChallenge) (hused : row.used = false)
      (hrows : next.challenges = w.challenges ++ [row])
      (hnext : next.nextChallenge = w.nextChallenge + 1) : ChallengeEffect w move next []
  | marked (i now : ℕ) (challenge : Challenge) (answer : Answer) (row : Challenge)
      (hmove : move = .resume i now) (hcall : w.calls i = .marking challenge answer)
      (hlookup : Tables.lookup Challenge.id challenge.id w.challenges = some row)
      (hrows : next.challenges = (w.mark row.id now).challenges)
      (hnext : next.nextChallenge = w.nextChallenge) :
      ChallengeEffect w move next [⟨row.id, row.expiresAt, now⟩]
  | cleaned (now : ℕ) (hmarks : ∀ i now, move ≠ .resume i now)
      (hrows : next.challenges = (w.cleanup now).challenges)
      (hnext : next.nextChallenge = w.nextChallenge) : ChallengeEffect w move next []

/-- What a move makes of the credentials. -/
inductive CredentialEffect (w : World B) (move : Move B) (next : World B) : Prop
  | same (hrows : next.credentials = w.credentials)
      (hcounts : ∀ i now newCounter challenge credential row, move = .resume i now →
        w.calls i = .counting newCounter challenge credential →
          Tables.lookup Credential.id credential.id w.credentials ≠ some row)
  | created (row : Credential) (hrows : next.credentials = w.credentials ++ [row])
      (hcounts : ∀ i now newCounter challenge credential, move = .resume i now →
        w.calls i ≠ .counting newCounter challenge credential)
  | counted (i now newCounter : ℕ) (challenge : Challenge) (credential row : Credential)
      (hmove : move = .resume i now) (hcall : w.calls i = .counting newCounter challenge credential)
      (hlookup : Tables.lookup Credential.id credential.id w.credentials = some row)
      (hrows : next.credentials = (w.count credential.id newCounter now).credentials)
  | revoked (id now : ℕ) (hcounts : ∀ i now, move ≠ .resume i now)
      (hrows : next.credentials = (w.revoke id now).credentials)

lemma createCredential_eq {now : ℕ} {userId : String} {info : RegistrationInfo}
    {options : RegistrationOptions} {credential : Credential} {next : World B}
    (h : w.createCredential now userId info options = some (credential, next)) :
    next.credentials = w.credentials ++ [credential] ∧ next.challenges = w.challenges ∧
      next.nextChallenge = w.nextChallenge := by
  unfold World.createCredential at h
  split_ifs at h
  simp only [Option.some.injEq, Prod.mk.injEq] at h
  obtain ⟨rfl, rfl⟩ := h
  exact ⟨rfl, rfl, rfl⟩

lemma resume_challenges (host : Host B) (i now : ℕ)
    (h : ∀ challenge answer, w.calls i ≠ .marking challenge answer) :
    (w.resume host i now).challenges = w.challenges ∧
      (w.resume host i now).nextChallenge = w.nextChallenge := by
  unfold World.resume
  split
  case h_10 challenge answer hcall => exact absurd hcall (h challenge answer)
  case h_5 =>
    split
    · exact ⟨rfl, rfl⟩
    · rename_i hcreate
      exact (createCredential_eq hcreate).2
  all_goals first | exact ⟨rfl, rfl⟩ | split <;> exact ⟨rfl, rfl⟩

lemma step_challenges (host : Host B) (w : World B) (move : Move B) :
    ChallengeEffect w move (step host move w) (successes w move) := by
  cases move with
  | issue challenge userId type expiresAt =>
    simp only [step, World.issue, successes]
    split
    · exact .same (by simp) rfl rfl
    · exact .issued _ (by simp) rfl rfl rfl rfl
  | verifyRegistration i userId response options =>
    simp only [step, successes]
    split <;> exact .same (by simp) rfl rfl
  | verifyAuthentication i response =>
    simp only [step, successes]
    split <;> exact .same (by simp) rfl rfl
  | resume i now =>
    by_cases hcall : ∃ challenge answer, w.calls i = .marking challenge answer
    · obtain ⟨challenge, answer, hcall⟩ := hcall
      simp only [step, World.resume, successes, hcall]
      cases hlookup : Tables.lookup Challenge.id challenge.id w.challenges with
      | none =>
        refine .same (fun j _ other _ row hmove hother => ?_) rfl rfl
        obtain ⟨rfl, rfl⟩ := Move.resume.inj hmove
        rw [hcall] at hother
        obtain ⟨rfl, -⟩ := Phase.marking.inj hother
        rw [hlookup]
        exact (Option.some_ne_none row).symm
      | some row =>
        have hid := Tables.key_of_lookup hlookup
        exact .marked i now challenge answer row rfl hcall hlookup (by rw [hid]; rfl) rfl
    · push Not at hcall
      have hnone : successes w (.resume i now) = [] := by
        simp only [successes]
      obtain ⟨hrows, hnext⟩ := resume_challenges host i now hcall
      rw [hnone]
      refine .same (fun j _ challenge answer row hmove hmarking => ?_) hrows hnext
      obtain ⟨rfl, rfl⟩ := Move.resume.inj hmove
      exact absurd hmarking (hcall challenge answer)
  | fail i message =>
    simp only [step, World.fail, successes]
    split <;> exact .same (by simp) rfl rfl
  | revoke id now => exact .same (by simp) rfl rfl
  | cleanup now => exact .cleaned now (by simp) rfl rfl

lemma resume_credentials (host : Host B) (i now : ℕ)
    (h : ∀ newCounter challenge credential, w.calls i ≠ .counting newCounter challenge credential) :
    (w.resume host i now).credentials = w.credentials ∨
      ∃ row, (w.resume host i now).credentials = w.credentials ++ [row] := by
  unfold World.resume
  split
  case h_9 newCounter challenge credential hcall =>
    exact absurd hcall (h newCounter challenge credential)
  case h_5 =>
    split
    · exact .inl rfl
    · rename_i credential next hcreate
      exact .inr ⟨credential, (createCredential_eq hcreate).1⟩
  all_goals first | exact .inl rfl | split <;> exact .inl rfl

lemma step_credentials (host : Host B) (w : World B) (move : Move B) :
    CredentialEffect w move (step host move w) := by
  cases move with
  | issue challenge userId type expiresAt =>
    simp only [step, World.issue]
    split <;> exact .same rfl (by simp)
  | verifyRegistration i userId response options =>
    simp only [step]
    split <;> exact .same rfl (by simp)
  | verifyAuthentication i response =>
    simp only [step]
    split <;> exact .same rfl (by simp)
  | resume i now =>
    by_cases hcall : ∃ newCounter challenge credential,
      w.calls i = .counting newCounter challenge credential
    · obtain ⟨newCounter, challenge, credential, hcall⟩ := hcall
      simp only [step, World.resume, hcall]
      cases hlookup : Tables.lookup Credential.id credential.id w.credentials with
      | none =>
        refine .same rfl fun j _ _ _ other row hmove hother => ?_
        obtain ⟨rfl, rfl⟩ := Move.resume.inj hmove
        rw [hcall] at hother
        obtain ⟨-, -, rfl⟩ := Phase.counting.inj hother
        rw [hlookup]
        exact (Option.some_ne_none row).symm
      | some row => exact .counted i now newCounter challenge credential row rfl hcall hlookup rfl
    · push Not at hcall
      have hcounts (j later newCounter : ℕ) (challenge : Challenge) (credential : Credential)
          (hmove : Move.resume (B := B) i now = .resume j later) :
          w.calls j ≠ .counting newCounter challenge credential := by
        obtain ⟨rfl, rfl⟩ := Move.resume.inj hmove
        exact hcall newCounter challenge credential
      obtain hrows | ⟨row, hrows⟩ := resume_credentials host i now hcall
      · refine .same hrows fun j _ _ _ _ _ hmove hother => ?_
        exact absurd hother (hcounts _ _ _ _ _ hmove)
      · exact .created row hrows hcounts
  | fail i message =>
    simp only [step, World.fail]
    split <;> exact .same rfl (by simp)
  | revoke id now => exact .revoked id now (by simp) rfl
  | cleanup now => exact .same rfl (by simp)

end Rows

section Runs

variable {B : Type} {host : Host B} {w : World B} {move : Move B} {moves : List (Move B)}
  {log : List Success}

/-- The challenges that are used are those of the verifications so far. -/
structure Logged (log : List Success) (w : World B) : Prop where
  used : ∀ row ∈ w.challenges, row.used = true ↔ row.id ∈ log.map Success.challenge
  rows : ∀ row ∈ w.challenges, row.id < w.nextChallenge
  log : ∀ success ∈ log, success.challenge < w.nextChallenge

lemma Logged.step (h : Logged log w) (host : Host B) (move : Move B) :
    Logged (log ++ successes w move) (WebAuthn.step host move w) := by
  have heffect := step_challenges host w move
  generalize WebAuthn.step host move w = next at heffect
  generalize successes w move = emitted at heffect
  cases heffect with
  | same _ hrows hnext =>
    rw [List.append_nil]
    exact ⟨by rw [hrows]; exact h.used, by rw [hrows, hnext]; exact h.rows, by rw [hnext]; exact h.log⟩
  | issued row _ hid hused hrows hnext =>
    rw [List.append_nil]
    refine ⟨fun other hother => ?_, fun other hother => ?_, fun success hsuccess => ?_⟩
    · rw [hrows, List.mem_append, List.mem_singleton] at hother
      obtain hother | rfl := hother
      · exact h.used other hother
      · rw [hused, hid]
        simp only [Bool.false_eq_true, false_iff]
        intro hmem
        obtain ⟨success, hsuccess, heq⟩ := List.mem_map.mp hmem
        have hlt := h.log success hsuccess
        omega
    · rw [hrows, List.mem_append, List.mem_singleton] at hother
      rw [hnext]
      obtain hother | rfl := hother
      · exact Nat.lt_succ_of_lt (h.rows other hother)
      · omega
    · rw [hnext]
      exact Nat.lt_succ_of_lt (h.log success hsuccess)
  | marked i now challenge answer row _ _ hlookup hrows hnext =>
    refine ⟨fun other hother => ?_, fun other hother => ?_, fun success hsuccess => ?_⟩
    · rw [hrows] at hother
      obtain ⟨old, hold, rfl⟩ := List.mem_map.mp hother
      rw [List.map_append, List.mem_append, List.map_singleton, List.mem_singleton]
      by_cases hid : old.id = row.id
      · simp [hid]
      · simp only [hid, decide_false, Bool.false_eq_true, if_false, or_false]
        exact h.used old hold
    · rw [hrows] at hother
      obtain ⟨old, hold, rfl⟩ := List.mem_map.mp hother
      rw [hnext]
      split_ifs <;> exact h.rows old hold
    · rw [hnext]
      obtain hsuccess | hsuccess := List.mem_append.mp hsuccess
      · exact h.log success hsuccess
      · obtain rfl := List.mem_singleton.mp hsuccess
        exact h.rows row (Tables.mem_of_lookup hlookup)
  | cleaned now _ hrows hnext =>
    rw [List.append_nil]
    refine ⟨fun other hother => ?_, fun other hother => ?_, by rw [hnext]; exact h.log⟩
    · rw [hrows] at hother
      exact h.used other (List.mem_of_mem_filter hother)
    · rw [hrows] at hother
      rw [hnext]
      exact h.rows other (List.mem_of_mem_filter hother)

/-- A verification that succeeds is the first of its challenge, and in time, if its challenge is still
unspent. -/
lemma Logged.unspent_iff (h : Logged log w) (host : Host B) (move : Move B) :
    Unspent w move ↔ ∀ success ∈ successes w move,
      success.challenge ∉ log.map Success.challenge ∧ success.time < success.expiresAt := by
  have heffect := step_challenges host w move
  generalize WebAuthn.step host move w = next at heffect
  generalize successes w move = emitted at heffect
  have hresume (hmarks : ∀ i now, move ≠ .resume i now) : Unspent w move :=
    fun i now _ _ _ hmove => absurd hmove (hmarks i now)
  cases heffect with
  | same hmarks =>
    refine iff_of_true (fun i now challenge answer row hmove hcall hlookup => ?_) (by simp)
    exact absurd hlookup (hmarks i now challenge answer row hmove hcall)
  | issued _ hmarks => exact iff_of_true (hresume hmarks) (by simp)
  | cleaned _ hmarks => exact iff_of_true (hresume hmarks) (by simp)
  | marked i now challenge answer row hmove hcall hlookup =>
    subst hmove
    have hused := h.used row (Tables.mem_of_lookup hlookup)
    constructor
    · intro hunspent success hsuccess
      obtain rfl := List.mem_singleton.mp hsuccess
      obtain ⟨hfresh, hlive⟩ := hunspent i now challenge answer row rfl hcall hlookup
      rw [hfresh] at hused
      exact ⟨fun hmem => Bool.false_ne_true (hused.mpr hmem), hlive⟩
    · intro hfirst j later other _ row' hmove hcall' hlookup'
      obtain ⟨rfl, rfl⟩ := Move.resume.inj hmove
      rw [hcall] at hcall'
      obtain ⟨rfl, -⟩ := Phase.marking.inj hcall'
      obtain rfl := Option.some.inj (hlookup.symm.trans hlookup')
      obtain ⟨hnew, hlive⟩ := hfirst _ (List.mem_singleton_self _)
      exact ⟨(Bool.not_eq_true _).mp fun h => hnew (hused.mp h), hlive⟩

lemma ahead_iff (host : Host B) (w : World B) (move : Move B) :
    Ahead w move ↔ Advances w (WebAuthn.step host move w) := by
  have heffect := step_credentials host w move
  generalize WebAuthn.step host move w = next at heffect
  cases heffect with
  | same hrows hcounts =>
    refine iff_of_true (fun i now n challenge credential row hmove hcall hlookup => ?_)
      fun id row hlookup => ?_
    · exact absurd hlookup (hcounts i now n challenge credential row hmove hcall)
    · rw [hrows]
      exact ⟨row, hlookup, Nat.le_refl _⟩
  | created new hrows hcounts =>
    refine iff_of_true (fun i now n challenge credential row hmove hcall => ?_)
      fun id row hlookup => ?_
    · exact absurd hcall (hcounts i now n challenge credential hmove)
    · refine ⟨row, ?_, Nat.le_refl _⟩
      rw [hrows, Tables.lookup, List.find?_append]
      rw [Tables.lookup] at hlookup
      rw [hlookup]
      rfl
  | revoked id now hcounts hrows =>
    refine iff_of_true (fun i now n challenge credential row hmove => ?_) fun id' row hlookup => ?_
    · exact absurd hmove (hcounts i now)
    · rw [hrows, World.revoke, World.updateCredential, Tables.lookup_updateMany, hlookup]
      · refine ⟨_, rfl, ?_⟩
        dsimp only
        split_ifs <;> exact Nat.le_refl _
      · exact fun _ _ => rfl
  | counted i now n challenge credential row hmove hcall hlookup hrows =>
    subst hmove
    have hnext (id : ℕ) : Tables.lookup Credential.id id next.credentials =
        (Tables.lookup Credential.id id w.credentials).map fun row =>
          if row.id = credential.id then { row with counter := n, lastUsedAt := now } else row := by
      rw [hrows, World.count, World.updateCredential, Tables.lookup_updateMany]
      · simp
      · exact fun _ _ => rfl
    constructor
    · intro hahead id old hold
      refine ⟨_, by rw [hnext, hold]; rfl, ?_⟩
      dsimp only
      split_ifs with hid
      · have hsame : id = credential.id := (Tables.key_of_lookup hold).symm.trans hid
        rw [hsame] at hold
        exact hahead i now n challenge credential old rfl hcall hold
      · exact Nat.le_refl _
    · intro hadvances j later n' _ other row' hmove hcall' hlookup'
      obtain ⟨rfl, rfl⟩ := Move.resume.inj hmove
      rw [hcall] at hcall'
      obtain ⟨rfl, -, rfl⟩ := Phase.counting.inj hcall'
      obtain ⟨next', hfound, hle⟩ := hadvances _ _ hlookup'
      rw [hnext, hlookup', Option.map_some, if_pos (Tables.key_of_lookup hlookup')] at hfound
      rw [← Option.some.inj hfound] at hle
      exact hle

/-- No challenge has two verifications, none comes too late, and the counters never go down. -/
structure SingleUse (host : Host B) (w : World B) (moves : List (Move B)) : Prop where
  once : ((trace (step host) successes w moves).map Success.challenge).Nodup
  live : ∀ success ∈ trace (step host) successes w moves, success.time < success.expiresAt
  advances : Along (step host) (fun w move => Advances w (step host move w)) w moves

lemma successes_length (w : World B) (move : Move B) : (successes w move).length ≤ 1 := by
  cases move with
  | resume i now =>
    simp only [successes]
    split
    · split <;> simp
    · simp
  | _ => simp [successes]

lemma run_singleUse (h : Logged log w) (hlog : (log.map Success.challenge).Nodup) :
    (((log ++ trace (step host) successes w moves).map Success.challenge).Nodup ∧
      (∀ success ∈ trace (step host) successes w moves, success.time < success.expiresAt) ∧
      Along (step host) (fun w move => Advances w (step host move w)) w moves) ↔
    Along (step host) (fun w move => Unspent w move ∧ Ahead w move) w moves := by
  induction moves generalizing log w with
  | nil => simpa [trace] using hlog
  | cons move moves ih =>
    have hunspent := h.unspent_iff host move
    have hahead := ahead_iff host w move
    rw [trace, along_cons, along_cons, ← List.append_assoc]
    constructor
    · rintro ⟨hnodup, hlive, hadvances, hrest⟩
      have hfirst : ((log ++ successes w move).map Success.challenge).Nodup := by
        rw [List.map_append] at hnodup
        exact hnodup.of_append_left
      have hnew : Unspent w move := by
        refine hunspent.mpr fun success hsuccess => ⟨fun hmem => ?_, hlive _ (by simp [hsuccess])⟩
        rw [List.map_append, List.nodup_append] at hfirst
        exact hfirst.2.2 _ hmem _ (List.mem_map_of_mem hsuccess) rfl
      exact ⟨⟨hnew, hahead.mpr hadvances⟩, (ih (h.step host move) hfirst).mp
        ⟨hnodup, fun success hsuccess => hlive success (by simp [hsuccess]), hrest⟩⟩
    · rintro ⟨⟨hnew, hcount⟩, hrest⟩
      have hemitted := hunspent.mp hnew
      have hfirst : ((log ++ successes w move).map Success.challenge).Nodup := by
        rw [List.map_append, List.nodup_append]
        refine ⟨hlog, ?_, fun a ha b hb hab => ?_⟩
        · have hlength := successes_length w move
          rw [← List.length_map Success.challenge] at hlength
          exact List.nodup_iff_sublist.mpr fun a hsub => by
            have hle := hsub.length_le
            simp only [List.length_cons, List.length_nil] at hle
            omega
        · obtain ⟨success, hsuccess, rfl⟩ := List.mem_map.mp hb
          exact (hemitted success hsuccess).1 (hab ▸ ha)
      obtain ⟨hnodup, hlive, hadvances⟩ := (ih (h.step host move) hfirst).mpr hrest
      refine ⟨hnodup, fun success hsuccess => ?_, hahead.mp hcount, hadvances⟩
      obtain hsuccess | hsuccess := List.mem_append.mp hsuccess
      · exact (hemitted success hsuccess).2
      · exact hlive success hsuccess

lemma singleUse_iff (host : Host B) (moves : List (Move B)) : SingleUse host {} moves ↔
    Along (step host) (fun w move => Unspent w move ∧ Ahead w move) {} moves := by
  have hstart : Logged [] ({} : World B) :=
    ⟨fun _ h => absurd h List.not_mem_nil, fun _ h => absurd h List.not_mem_nil,
      fun _ h => absurd h List.not_mem_nil⟩
  rw [← run_singleUse hstart List.nodup_nil, List.nil_append]
  constructor
  · rintro ⟨honce, hlive, hadvances⟩
    exact ⟨honce, hlive, hadvances⟩
  · rintro ⟨honce, hlive, hadvances⟩
    exact ⟨honce, hlive, hadvances⟩

end Runs

section Undisturbed

variable {B : Type} {host : Host B} {w : World B} {move : Move B} {moves : List (Move B)}

/-- The counters that are about to be written are ones that the library accepted. -/
def Accepted (w : World B) : Prop :=
  ∀ i newCounter challenge credential, w.calls i = .counting newCounter challenge credential →
    credential.counter < newCounter ∨ credential.counter = 0 ∧ newCounter = 0

/-- Since a call read the counter that it writes, nobody has changed it. -/
def Undisturbed (w : World B) (move : Move B) : Prop :=
  ∀ i now newCounter challenge credential row, move = .resume i now →
    w.calls i = .counting newCounter challenge credential →
      Tables.lookup Credential.id credential.id w.credentials = some row →
        row.counter = credential.counter

lemma Accepted.setCall (h : Accepted w) {calls : World B} (hcalls : calls.calls = w.calls) (i : ℕ)
    {phase : Phase B} (hphase : ∀ newCounter challenge credential,
      phase = .counting newCounter challenge credential →
        credential.counter < newCounter ∨ credential.counter = 0 ∧ newCounter = 0) :
    Accepted (calls.setCall i phase) := by
  intro j newCounter challenge credential hcall
  simp only [World.setCall, hcalls] at hcall
  by_cases hj : j = i
  · subst hj
    rw [Function.update_self] at hcall
    exact hphase newCounter challenge credential hcall
  · rw [Function.update_of_ne hj] at hcall
    exact h j newCounter challenge credential hcall

lemma Accepted.resume (h : Accepted w) (i now : ℕ) : Accepted (w.resume host i now) := by
  unfold World.resume
  split
  case h_8 response challenge credential hcall =>
    split
    · exact h.setCall rfl i (fun _ _ _ h => nomatch h)
    · rename_i newCounter haccepted
      refine h.setCall rfl i fun n challenge' credential' hphase => ?_
      obtain ⟨rfl, -, rfl⟩ := Phase.counting.inj hphase
      exact host.advances response challenge.challenge credential newCounter haccepted
  case h_5 =>
    split
    · exact h.setCall rfl i (fun _ _ _ h => nomatch h)
    · rename_i credential next hcreate
      have hcalls : next.calls = w.calls := by
        unfold World.createCredential at hcreate
        split_ifs at hcreate
        rw [← (Prod.mk.inj (Option.some.inj hcreate)).2]
      exact h.setCall hcalls i (fun _ _ _ h => nomatch h)
  case h_1 => exact h
  case h_2 => exact h
  all_goals split <;> exact h.setCall rfl i (fun _ _ _ h => nomatch h)

lemma Accepted.step (h : Accepted w) (move : Move B) : Accepted (step host move w) := by
  cases move with
  | issue challenge userId type expiresAt =>
    simp only [WebAuthn.step, World.issue]
    split <;> exact h
  | verifyRegistration i userId response options =>
    simp only [WebAuthn.step]
    split
    · exact h.setCall rfl i (fun _ _ _ h => nomatch h)
    · exact h
  | verifyAuthentication i response =>
    simp only [WebAuthn.step]
    split
    · exact h.setCall rfl i (fun _ _ _ h => nomatch h)
    · exact h
  | resume i now => exact h.resume i now
  | fail i message =>
    simp only [WebAuthn.step, World.fail]
    split
    · exact h
    · exact h
    · exact h.setCall rfl i (fun _ _ _ h => nomatch h)
  | revoke id now => exact h
  | cleanup now => exact h

lemma Accepted.ahead (h : Accepted w) (hundisturbed : Undisturbed w move) : Ahead w move := by
  intro i now newCounter challenge credential row hmove hcall hlookup
  rw [hundisturbed i now newCounter challenge credential row hmove hcall hlookup]
  have haccepted := h i newCounter challenge credential hcall
  omega

/-- What the library accepts is ahead, where calls of one credential do not overtake each other. -/
lemma along_ahead (h : Along (step host) (fun w move => Unspent w move ∧ Undisturbed w move) {} moves) :
    Along (step host) (fun w move => Unspent w move ∧ Ahead w move) {} moves :=
  along_invariant (I := Accepted) (fun _ move hw _ => hw.step move)
    (fun _ _ hw hmove => ⟨hmove.1, hw.ahead hmove.2⟩) (fun _ _ _ _ hcall => nomatch hcall) h

end Undisturbed

/-- Whatever the interleaving, exactly if each call finds its challenge unspent when it writes it, and
no higher counter when it writes one; as it does where nobody has changed the counter meanwhile. -/
theorem verifications_singleUse {B : Type} (host : Host B) (moves : List (Move B)) :
    (SingleUse host {} moves ↔
      Along (step host) (fun w move => Unspent w move ∧ Ahead w move) {} moves) ∧
    (Along (step host) (fun w move => Unspent w move ∧ Undisturbed w move) {} moves →
      SingleUse host {} moves) :=
  ⟨singleUse_iff host moves, fun h => (singleUse_iff host moves).mpr (along_ahead h)⟩

section Examples

def sampleHost : Host ℕ where
  base64url id := id
  verifyRegistrationResponse response expectedChallenge :=
    if response.challenge = expectedChallenge then some ⟨response.id, "key", response.body⟩ else none
  verifyAuthenticationResponse response expectedChallenge credential :=
    if response.challenge = expectedChallenge ∧
        (credential.counter < response.body ∨ credential.counter = 0 ∧ response.body = 0) then
      some response.body
    else none
  advances response expectedChallenge credential newCounter h := by
    split_ifs at h with haccepted
    obtain rfl := Option.some.inj h
    exact haccepted.2

def enrolled (counter : ℕ) : List (Move ℕ) :=
  [.issue "c0" (some "alice") .registration 100, .issue "c1" (some "alice") .authentication 100,
    .verifyRegistration 0 "alice" ⟨"c0", "passkey", counter⟩ {}, .resume 0 10, .resume 0 11,
    .resume 0 12, .resume 0 13]

/-- Two calls with one challenge, whose steps alternate, the second ahead at the counter. -/
def together (first second : ℕ) : List (Move ℕ) :=
  [.verifyAuthentication 1 ⟨"c1", "passkey", first⟩, .verifyAuthentication 2 ⟨"c1", "passkey", second⟩,
    .resume 1 20, .resume 2 20, .resume 1 21, .resume 2 21, .resume 1 22, .resume 2 22, .resume 2 23,
    .resume 1 23, .resume 1 24, .resume 2 24]

/-- One response logs in twice, and of two responses the lower counter stays. -/
theorem replayed_response_accepted :
    ¬ SingleUse sampleHost {} (enrolled 0 ++ together 0 0) ∧
      ¬ Along (step sampleHost) (fun w move => Advances w (step sampleHost move w)) {}
        (enrolled 4 ++ together 5 6) := by
  refine ⟨fun h => ?_, fun h => ?_⟩
  · have honce := h.once
    revert honce
    decide
  · have hsplit : enrolled 4 ++ together 5 6 = (enrolled 4 ++ (together 5 6).take 9) ++
        [.resume 1 23, .resume 1 24, .resume 2 24] := rfl
    rw [hsplit, along_append] at h
    obtain ⟨row', hrow', hle⟩ := h.2.1 0 ⟨0, "alice", "passkey", "key", 6, "unknown", none, 23, none⟩
      (by decide)
    have hlower : some row' = some ⟨0, "alice", "passkey", "key", 5, "unknown", none, 23, none⟩ :=
      hrow'.symm.trans (by decide)
    rw [Option.some.inj hlower] at hle
    exact absurd hle (by decide)

end Examples

end StellarTags.WebAuthn
