import StellarTags.Registration.MultiSigner

/-! What the check of keys against a threshold says about the signers. -/

namespace StellarTags.Registration

/-- One of the keys is a signer, whose weight, the one that the check takes it for, is positive. -/
def HasSigner (signers : List Signer) (keys : List String) : Prop :=
  ∃ signer ∈ signers, signer.key ∈ keys ∧ signer.weight = signerMap signers signer.key ∧ 0 < signer.weight

/-- The keys, each counted once, have the weight that is required, and there is a signer among them. -/
structure Authorised (signers : List Signer) (threshold : ℕ) (keys : List String) : Prop where
  signer : HasSigner signers keys
  weight : threshold ≤ ∑ key ∈ keys.toFinset, signerMap signers key

variable {signers : List Signer} {signer : Signer} {keys : List String} {key : String} {threshold : ℕ}

lemma foldl_update_cases (signers : List Signer) (map : String → ℕ) (key : String) :
    (∃ signer ∈ signers, signer.key = key ∧ signer.weight =
        signers.foldl (fun map signer => Function.update map signer.key signer.weight) map key) ∨
      (∀ signer ∈ signers, signer.key ≠ key) ∧
        signers.foldl (fun map signer => Function.update map signer.key signer.weight) map key = map key := by
  induction signers generalizing map with
  | nil => exact .inr ⟨by simp, rfl⟩
  | cons first signers ih =>
    rw [List.foldl_cons]
    obtain ⟨signer, hmem, hsigner⟩ | ⟨hnone, heq⟩ := ih (Function.update map first.key first.weight)
    · exact .inl ⟨signer, List.mem_cons_of_mem _ hmem, hsigner⟩
    · rw [heq]
      by_cases hkey : first.key = key
      · refine .inl ⟨first, List.mem_cons_self, hkey, ?_⟩
        rw [← hkey, Function.update_self]
      · refine .inr ⟨?_, Function.update_of_ne (Ne.symm hkey) _ _⟩
        simpa [hkey] using hnone

lemma signerMap_cases (signers : List Signer) (key : String) :
    (∃ signer ∈ signers, signer.key = key ∧ signer.weight = signerMap signers key) ∨
      (∀ signer ∈ signers, signer.key ≠ key) ∧ signerMap signers key = 0 :=
  foldl_update_cases signers (fun _ => 0) key

lemma signerMap_of_mem (hdistinct : (signers.map Signer.key).Nodup) (hmem : signer ∈ signers) :
    signerMap signers signer.key = signer.weight := by
  obtain ⟨other, hother, hkey, hweight⟩ | ⟨hnone, -⟩ := signerMap_cases signers signer.key
  · rw [← hweight, List.inj_on_of_nodup_map hdistinct hother hmem hkey]
  · exact absurd rfl (hnone signer hmem)

lemma hasSigner_iff : HasSigner signers keys ↔ ∃ key ∈ keys, 0 < signerMap signers key := by
  constructor
  · rintro ⟨signer, -, hkey, hweight, hpos⟩
    exact ⟨signer.key, hkey, hweight ▸ hpos⟩
  · rintro ⟨key, hkey, hpos⟩
    obtain ⟨signer, hsigner, rfl, hweight⟩ | ⟨-, hzero⟩ := signerMap_cases signers key
    · exact ⟨signer, hsigner, hkey, hweight, hweight ▸ hpos⟩
    · exact absurd hzero hpos.ne'

lemma hasSigner_of_weight (hpos : 0 < threshold)
    (hweight : threshold ≤ ∑ key ∈ keys.toFinset, signerMap signers key) : HasSigner signers keys := by
  have hsum : 0 < ∑ key ∈ keys.toFinset, signerMap signers key := Nat.lt_of_lt_of_le hpos hweight
  obtain ⟨key, hkey, hweight⟩ := Finset.exists_ne_zero_of_sum_ne_zero hsum.ne'
  exact hasSigner_iff.mpr ⟨key, List.mem_toFinset.mp hkey, Nat.pos_of_ne_zero hweight⟩

/-- What the verification finds is the weight of the keys, each counted once. -/
lemma verifyMultiSignerThreshold_iff {loadAccount : Horizon} {accountId : String}
    {operationType : OperationType} :
    (∃ verification,
      verifyMultiSignerThreshold loadAccount accountId keys operationType = .ok verification ∧
        verification.success = true) ↔
      accountId ≠ "" ∧ keys ≠ [] ∧ ∃ account, loadAccount accountId = .ok account ∧
        getApplicableThreshold operationType account.thresholds ≤
          ∑ key ∈ keys.toFinset, signerMap account.signers key := by
  by_cases hid : accountId = ""
  · simp [verifyMultiSignerThreshold, hid, throw, throwThe, MonadExceptOf.throw, bind, Except.bind]
  by_cases hkeys : keys = []
  · simp [verifyMultiSignerThreshold, hid, hkeys, throw, throwThe, MonadExceptOf.throw, bind, Except.bind]
  have happroved (account : Account) (threshold : ℕ) :
      Library.WeightedApproval.Approved (signerMap account.signers) threshold {key | key ∈ keys} ↔
        threshold ≤ ∑ key ∈ keys.toFinset, signerMap account.signers key := by
    rw [← Library.WeightedApproval.approved_coe, List.coe_toFinset]
  simp only [verifyMultiSignerThreshold_success loadAccount operationType hid hkeys, happroved]
  simp [hid, hkeys]

/-- The check vouches for a signer where the threshold is positive, or where there is one anyway. -/
theorem verification_sound_iff (loadAccount : Horizon) (accountId : String) (keys : List String)
    (operationType : OperationType) :
    ((∃ verification,
        verifyMultiSignerThreshold loadAccount accountId keys operationType = .ok verification ∧
          verification.success = true) →
      ∃ account, loadAccount accountId = .ok account ∧
        Authorised account.signers (getApplicableThreshold operationType account.thresholds) keys) ↔
    ∀ account, accountId ≠ "" → keys ≠ [] → loadAccount accountId = .ok account →
      0 < getApplicableThreshold operationType account.thresholds ∨ HasSigner account.signers keys := by
  rw [verifyMultiSignerThreshold_iff]
  constructor
  · intro h account hid hkeys hload
    refine Nat.eq_zero_or_pos _ |>.symm.imp_right fun hzero => ?_
    obtain ⟨loaded, hloaded, hauthorised⟩ := h ⟨hid, hkeys, account, hload, by rw [hzero]; exact Nat.zero_le _⟩
    obtain rfl := Except.ok.inj (hloaded.symm.trans hload)
    exact hauthorised.signer
  · rintro h ⟨hid, hkeys, account, hload, hweight⟩
    refine ⟨account, hload, ?_, hweight⟩
    obtain hpos | hsigner := h account hid hkeys hload
    · exact hasSigner_of_weight hpos hweight
    · exact hsigner

/-- A fresh account asks for no weight, and any text passes for its signer. -/
theorem stranger_verified :
    ¬ ∀ (loadAccount : Horizon) (accountId : String) (keys : List String) (operationType : OperationType),
      (∃ verification,
        verifyMultiSignerThreshold loadAccount accountId keys operationType = .ok verification ∧
          verification.success = true) →
      ∃ account, loadAccount accountId = .ok account ∧
        Authorised account.signers (getApplicableThreshold operationType account.thresholds) keys := by
  intro h
  have hfresh := h (fun id => .ok ⟨id, [⟨id, 1⟩], ⟨0, 0, 0⟩⟩) "GOWNER" ["GTHIEF"] .management
    (verifyMultiSignerThreshold_iff.mpr ⟨by decide, by decide, _, rfl, Nat.zero_le _⟩)
  obtain ⟨account, hload, hauthorised⟩ := hfresh
  obtain rfl := Except.ok.inj hload
  obtain ⟨signer, hsigner, hkey, -⟩ := hauthorised.signer
  obtain rfl := List.mem_singleton.mp hsigner
  exact absurd (List.mem_singleton.mp hkey) (by decide)

end StellarTags.Registration
