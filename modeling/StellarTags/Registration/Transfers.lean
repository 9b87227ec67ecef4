import StellarTags.Registration.MultiSigner

/-! The transfer of a username to another address. -/

namespace StellarTags.Registration

open Library.WeightedApproval

structure User where
  address : String
  deletedAt : Option ℕ := none
  deriving DecidableEq, Repr

abbrev Users := String → Option User

structure Transfer where
  username : String
  oldAddress : String
  newAddress : String
  deriving DecidableEq, Repr

def transferAccount (isValidEd25519PublicKey : String → Bool) (loadAccount : Horizon)
    (users : Users) (transfer : Transfer) (oldSignature newSignature : String) :
    Except ServiceError (User × Users) :=
  if transfer.username = "" then
    .error { message := "Username is required", statusCode := some 400 }
  else if transfer.oldAddress = "" ∨ transfer.newAddress = "" then
    .error { message := "Both oldAddress and newAddress are required", statusCode := some 400 }
  else if ¬ isValidEd25519PublicKey transfer.newAddress then
    .error { message := "Invalid Stellar Public Key format for new address", statusCode := some 400 }
  else if oldSignature = "" ∨ newSignature = "" then
    .error {
      message := "Signatures from both old and new addresses are required", statusCode := some 400 }
  else
    match users transfer.username with
    | none => .error { message := "User not found", statusCode := some 404 }
    | some user =>
      if user.deletedAt.isSome then .error { message := "User not found", statusCode := some 404 }
      else if user.address ≠ transfer.oldAddress then
        .error { message := "Old address does not match current record", statusCode := some 400 }
      else do
        checkSignature loadAccount transfer.oldAddress oldSignature
          "Signature verification failed for the current address"
        checkSignature loadAccount transfer.newAddress newSignature
          "Signature verification failed for the new address"
        let updatedUser := { user with address := transfer.newAddress }
        return (updatedUser, Function.update users transfer.username (some updatedUser))

section Consent

/-- Signers of the account who reach its medium threshold have signed the transfer. -/
def Consents (loadAccount : Horizon) (signed : Set (String × Transfer)) (transfer : Transfer)
    (address : String) : Prop :=
  ∃ account, loadAccount address = .ok account ∧
    Approved (signerMap account.signers) account.thresholds.med_threshold
      {key | (key, transfer) ∈ signed}

def Changes (isValidEd25519PublicKey : String → Bool) (loadAccount : Horizon) (users : Users)
    (transfer : Transfer) (oldSignature newSignature : String) : Prop :=
  ∃ user after,
    transferAccount isValidEd25519PublicKey loadAccount users transfer oldSignature newSignature =
      .ok (user, after) ∧
    (after transfer.username).map (·.address) ≠ (users transfer.username).map (·.address)

/-- Whoever has signed whatever, the call moves the username only with the consent of both
addresses. -/
def Guarded (isValidEd25519PublicKey : String → Bool) (loadAccount : Horizon) (users : Users)
    (transfer : Transfer) (oldSignature newSignature : String) : Prop :=
  ∀ signed : Set (String × Transfer),
    Changes isValidEd25519PublicKey loadAccount users transfer oldSignature newSignature →
      Consents loadAccount signed transfer transfer.oldAddress ∧
        Consents loadAccount signed transfer transfer.newAddress

/-- A live username leaves its address for a valid other one. -/
structure WellAddressed (isValidEd25519PublicKey : String → Bool) (users : Users)
    (transfer : Transfer) : Prop where
  username : transfer.username ≠ ""
  oldAddress : transfer.oldAddress ≠ ""
  newAddress : transfer.newAddress ≠ ""
  valid : isValidEd25519PublicKey transfer.newAddress = true
  live : users transfer.username = some ⟨transfer.oldAddress, none⟩
  moves : transfer.oldAddress ≠ transfer.newAddress

def NeedsWeight (loadAccount : Horizon) (address : String) : Prop :=
  ∃ account, loadAccount address = .ok account ∧ 0 < account.thresholds.med_threshold

end Consent

variable {isValidEd25519PublicKey : String → Bool} {loadAccount : Horizon} {users : Users}
  {transfer : Transfer} {address oldSignature newSignature : String}

lemma transferAccount_ok {user : User} {after : Users}
    (h : transferAccount isValidEd25519PublicKey loadAccount users transfer oldSignature
      newSignature = .ok (user, after)) :
    (transfer.username ≠ "" ∧ transfer.oldAddress ≠ "" ∧ transfer.newAddress ≠ "" ∧
      isValidEd25519PublicKey transfer.newAddress = true ∧
      users transfer.username = some ⟨transfer.oldAddress, none⟩) ∧
    (HeavyKey loadAccount transfer.oldAddress oldSignature ∧
      HeavyKey loadAccount transfer.newAddress newSignature) ∧
    after = Function.update users transfer.username (some ⟨transfer.newAddress, none⟩) := by
  unfold transferAccount at h
  split_ifs at h with husername haddresses hvalid hsignatures
  cases huser : users transfer.username with
  | none => simp [huser] at h
  | some record =>
    obtain ⟨address, deletedAt⟩ := record
    simp only [huser] at h
    split_ifs at h with hdeleted haddress
    obtain rfl : deletedAt = none := by simpa using hdeleted
    obtain rfl : address = transfer.oldAddress := not_not.mp haddress
    push Not at haddresses hsignatures
    cases hold : checkSignature loadAccount transfer.oldAddress oldSignature
        "Signature verification failed for the current address" with
    | error => simp [hold, bind, Except.bind] at h
    | ok =>
      cases hnew : checkSignature loadAccount transfer.newAddress newSignature
          "Signature verification failed for the new address" with
      | error => simp [hold, hnew, bind, Except.bind] at h
      | ok =>
        simp only [hold, hnew, bind, Except.bind, pure, Except.pure, Except.ok.injEq,
          Prod.mk.injEq] at h
        obtain ⟨rfl, rfl⟩ := h
        exact ⟨⟨husername, haddresses.1, haddresses.2, hvalid, rfl⟩,
          ⟨((checkSignature_ok _ hsignatures.1).mp hold).2,
            ((checkSignature_ok _ hsignatures.2).mp hnew).2⟩, rfl⟩

lemma transferAccount_eq (h : WellAddressed isValidEd25519PublicKey users transfer)
    (hold : HeavyKey loadAccount transfer.oldAddress oldSignature)
    (hnew : HeavyKey loadAccount transfer.newAddress newSignature) :
    transferAccount isValidEd25519PublicKey loadAccount users transfer oldSignature newSignature =
      .ok (⟨transfer.newAddress, none⟩,
        Function.update users transfer.username (some ⟨transfer.newAddress, none⟩)) := by
  have hold' := fun fallback => (checkSignature_ok fallback hold.1).mpr ⟨h.oldAddress, hold⟩
  have hnew' := fun fallback => (checkSignature_ok fallback hnew.1).mpr ⟨h.newAddress, hnew⟩
  simp [transferAccount, h.username, h.oldAddress, h.newAddress, h.valid, hold.1, hnew.1, h.live,
    hold', hnew', bind, Except.bind, pure, Except.pure]

/-- No signature has a part in it. -/
lemma changes_iff :
    Changes isValidEd25519PublicKey loadAccount users transfer oldSignature newSignature ↔
      WellAddressed isValidEd25519PublicKey users transfer ∧
        HeavyKey loadAccount transfer.oldAddress oldSignature ∧
        HeavyKey loadAccount transfer.newAddress newSignature := by
  constructor
  · rintro ⟨user, after, hok, hmoves⟩
    obtain ⟨⟨husername, hold, hnew, hvalid, hlive⟩, hkeys, rfl⟩ := transferAccount_ok hok
    refine ⟨⟨husername, hold, hnew, hvalid, hlive, fun heq => hmoves ?_⟩, hkeys⟩
    simp [hlive, heq]
  · rintro ⟨h, hold, hnew⟩
    refine ⟨_, _, transferAccount_eq h hold hnew, ?_⟩
    simpa [h.live] using h.moves.symm

lemma consents_empty {account : Account} (hload : loadAccount address = .ok account) :
    Consents loadAccount ∅ transfer address ↔ ¬ NeedsWeight loadAccount address := by
  simp [Consents, NeedsWeight, hload, approved_empty]

/-- Exactly the public keys of heavy signers get past the check, and with them nobody's consent is
asked for. -/
theorem transfer_guarded_iff :
    Guarded isValidEd25519PublicKey loadAccount users transfer oldSignature newSignature ↔
      ¬ (WellAddressed isValidEd25519PublicKey users transfer ∧
        HeavyKey loadAccount transfer.oldAddress oldSignature ∧
        HeavyKey loadAccount transfer.newAddress newSignature ∧
        (NeedsWeight loadAccount transfer.oldAddress ∨
          NeedsWeight loadAccount transfer.newAddress)) := by
  constructor
  · rintro h ⟨haddressed, hold, hnew, hneeds⟩
    obtain ⟨hconsents, hconsents'⟩ := h ∅ (changes_iff.mpr ⟨haddressed, hold, hnew⟩)
    obtain ⟨account, hload, -⟩ := hold.2
    obtain ⟨account', hload', -⟩ := hnew.2
    rcases hneeds with hneeds | hneeds
    · exact (consents_empty hload).mp hconsents hneeds
    · exact (consents_empty hload').mp hconsents' hneeds
  · intro h signed hchanges
    obtain ⟨haddressed, hold, hnew⟩ := changes_iff.mp hchanges
    have hnone : ¬ (NeedsWeight loadAccount transfer.oldAddress ∨
        NeedsWeight loadAccount transfer.newAddress) :=
      fun hneeds => h ⟨haddressed, hold, hnew, hneeds⟩
    have hconsents {address key : String} (hkey : HeavyKey loadAccount address key)
        (hneeds : ¬ NeedsWeight loadAccount address) :
        Consents loadAccount signed transfer address := by
      obtain ⟨-, account, hload, -⟩ := hkey
      refine ⟨account, hload, .of_eq_zero (Nat.eq_zero_of_not_pos fun hpos => hneeds ?_)⟩
      exact ⟨account, hload, hpos⟩
    exact ⟨hconsents hold fun hneeds => hnone (.inl hneeds),
      hconsents hnew fun hneeds => hnone (.inr hneeds)⟩

/-- The public keys of the two addresses are all that the caller gives, and nobody has signed. -/
theorem transferred_without_signature :
    let loadAccount : Horizon := fun accountId =>
      .ok ⟨accountId, [⟨accountId, 1⟩], ⟨1, 1, 1⟩⟩
    let users : Users := Function.update (fun _ => none) "bob*localhost" (some ⟨"GOWNER", none⟩)
    let transfer : Transfer := ⟨"bob*localhost", "GOWNER", "GTHIEF"⟩
    ¬ Guarded (fun _ => true) loadAccount users transfer "GOWNER" "GTHIEF" ∧
      Changes (fun _ => true) loadAccount users transfer "GOWNER" "GTHIEF" ∧
      ¬ Consents loadAccount ∅ transfer "GOWNER" := by
  intro loadAccount users transfer
  have hconsents : ¬ Consents loadAccount ∅ transfer "GOWNER" := by
    rw [consents_empty rfl]
    exact fun h => h ⟨_, rfl, by decide⟩
  have hchanges : Changes (fun _ => true) loadAccount users transfer "GOWNER" "GTHIEF" := by
    refine ⟨⟨"GTHIEF", none⟩, Function.update users "bob*localhost" (some ⟨"GTHIEF", none⟩), rfl, ?_⟩
    decide
  exact ⟨fun h => hconsents (h ∅ hchanges).1, hchanges, hconsents⟩

end StellarTags.Registration
