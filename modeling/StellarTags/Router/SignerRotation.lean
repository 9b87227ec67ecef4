import StellarTags.Library.Approvals
import StellarTags.Router.Gate

/-! The signer group stays in order, and only its own quorum replaces it. -/

namespace StellarTags.Router

open Library.Transactions Library.Runs Library.Tokens Library.Ballots Soroban

/-- Addresses have encodings of their own, and so do the configurations a group approves. -/
structure CollisionFree (h : Host) : Prop where
  address : Function.Injective fun a => h.xdr (.address a)
  config : ∀ signers others threshold quota,
    multisigConfigHash h signers threshold = multisigConfigHash h others quota →
      signers = others ∧ threshold = quota

section Sorting

def Precedes (h : Host) (a b : Address) : Prop := h.xdr (.address a) < h.xdr (.address b)

variable {h : Host} {signer : Address} {signers : List Address}

lemma compareBytes_lt {a b : Bytes} : compareBytes a b = .lt ↔ a < b := by
  induction a generalizing b with
  | nil => cases b <;> simp [compareBytes]
  | cons x a ih =>
    cases b with
    | nil => simp [compareBytes]
    | cons y b =>
      rw [compareBytes, List.cons_lt_cons_iff, ← ih]
      rcases lt_trichotomy x y with hxy | rfl | hxy
      · simp [compare_lt_iff_lt.mpr hxy, hxy]
      · simp
      · simp [compare_gt_iff_gt.mpr hxy, hxy.not_gt, hxy.ne']

lemma insertSigner_perm : (insertSigner h signer signers).Perm (signer :: signers) := by
  induction signers with
  | nil => rfl
  | cons existing rest ih =>
    unfold insertSigner
    split_ifs
    · rfl
    · exact (ih.cons existing).trans (List.Perm.swap _ _ _)

lemma insertSigner_sorted (hx : Function.Injective fun a => h.xdr (.address a))
    (hs : signer ∉ signers) (hl : signers.Pairwise (Precedes h)) :
    (insertSigner h signer signers).Pairwise (Precedes h) := by
  induction signers with
  | nil => simp [insertSigner]
  | cons existing rest ih =>
    obtain ⟨hfirst, hrest⟩ := List.pairwise_cons.mp hl
    simp only [List.mem_cons, not_or] at hs
    obtain ⟨hne, hnotin⟩ := hs
    unfold insertSigner
    split_ifs with hlt
    · rw [compareBytes_lt] at hlt
      refine List.pairwise_cons.mpr ⟨fun b hb => ?_, hl⟩
      rcases List.mem_cons.mp hb with rfl | hb
      · exact hlt
      · exact lt_trans hlt (hfirst b hb)
    · rw [compareBytes_lt] at hlt
      refine List.pairwise_cons.mpr ⟨fun b hb => ?_, ih hnotin hrest⟩
      rcases List.mem_cons.mp (insertSigner_perm.mem_iff.mp hb) with rfl | hb
      · exact (not_lt.mp hlt).lt_of_ne fun he => hne (hx he).symm
      · exact hfirst b hb

lemma sortedMultisigSigners_spec (hx : Function.Injective fun a => h.xdr (.address a))
    (hn : signers.Nodup) :
    (sortedMultisigSigners h signers).Pairwise (Precedes h) ∧
      (sortedMultisigSigners h signers).Perm signers := by
  have hfold : ∀ signers sorted : List Address, (sorted ++ signers).Nodup →
      sorted.Pairwise (Precedes h) →
      (signers.foldl (fun sorted signer => insertSigner h signer sorted) sorted).Pairwise
          (Precedes h) ∧
        (signers.foldl (fun sorted signer => insertSigner h signer sorted) sorted).Perm
          (sorted ++ signers) := by
    intro signers
    induction signers with
    | nil => simp
    | cons signer signers ih =>
      intro sorted hn hs
      have hperm : (insertSigner h signer sorted ++ signers).Perm (sorted ++ signer :: signers) :=
        (insertSigner_perm.append_right _).trans List.perm_middle.symm
      have hnew : signer ∉ sorted := fun hm =>
        (List.disjoint_of_nodup_append hn) hm (List.mem_cons_self ..)
      obtain ⟨hsorted, hall⟩ := ih (insertSigner h signer sorted) (hperm.nodup_iff.mpr hn)
        (insertSigner_sorted hx hnew hs)
      exact ⟨hsorted, hall.trans hperm⟩
  exact hfold signers [] (by simpa using hn) List.Pairwise.nil

lemma sortedMultisigSigners_eq (hx : Function.Injective fun a => h.xdr (.address a))
    {others : List Address} (hn : signers.Nodup) (ho : others.Nodup)
    (he : signers.toFinset = others.toFinset) :
    sortedMultisigSigners h signers = sortedMultisigSigners h others := by
  obtain ⟨hs, hp⟩ := sortedMultisigSigners_spec hx hn
  obtain ⟨hs', hp'⟩ := sortedMultisigSigners_spec hx ho
  have hperm : signers.Perm others :=
    List.perm_of_nodup_nodup_toFinset_eq hn ho he
  refine List.Perm.eq_of_pairwise (fun a b _ _ hab hba => ?_) hs hs'
    (hp.trans (hperm.trans hp'.symm))
  exact absurd (lt_trans hab hba) (lt_irrefl _)

end Sorting

/-- A group as it may be stored: distinct signers in order, and a threshold they can reach. -/
structure GroupValid (h : Host) (signers : List Address) (threshold : ℕ) : Prop where
  nonempty : signers ≠ []
  sorted : signers.Pairwise (Precedes h)
  lower : min 2 signers.length ≤ threshold
  upper : threshold ≤ signers.length

lemma GroupValid.nodup {h : Host} {signers : List Address} {threshold : ℕ}
    (hg : GroupValid h signers threshold) : signers.Nodup :=
  hg.sorted.imp fun hab he => absurd (he ▸ hab) (lt_irrefl _)

lemma ValidConfig.sorted {h : Host} (hx : Function.Injective fun a => h.xdr (.address a))
    {signers : List Address} {threshold : ℕ} (hv : ValidConfig signers threshold) :
    GroupValid h (sortedMultisigSigners h signers) threshold := by
  obtain ⟨hs, hp⟩ := sortedMultisigSigners_spec hx hv.nodup
  refine ⟨fun he => hv.nonempty ?_, hs, ?_, hp.length_eq ▸ hv.upper⟩
  · exact (List.nil_perm.mp (he ▸ hp)).symm ▸ rfl
  · have hl := hv.lower
    rw [hp.length_eq]
    unfold minThreshold at hl
    split_ifs at hl <;> omega

/-- Approvals are for a set of signers and a threshold, however the approver listed them. -/
abbrev ConfigItem := Finset Address × ℕ

def GroupEvent.configBallot : GroupEvent → Option (Ballot Address ConfigItem)
  | .configApproved signer signers threshold => some (.cast signer (signers.toFinset, threshold))
  | .configured signers threshold => some (.clear (signers.toFinset, threshold))
  | .upgradeApproved _ _ | .upgradeRevoked _ _ | .upgradeCancelled _ | .installed _ => none

def configLog (history : List GroupEvent) : List (Ballot Address ConfigItem) :=
  history.filterMap GroupEvent.configBallot

@[simp] lemma configLog_approved (signer : Address) (signers : List Address) (threshold : ℕ)
    (history : List GroupEvent) :
    configLog (.configApproved signer signers threshold :: history) =
      .cast signer (signers.toFinset, threshold) :: configLog history := rfl

@[simp] lemma configLog_configured (signers : List Address) (threshold : ℕ)
    (history : List GroupEvent) :
    configLog (.configured signers threshold :: history) =
      .clear (signers.toFinset, threshold) :: configLog history := rfl

/-- The group before, if any, had its quorum approve exactly this set and threshold. -/
def RotationStood (history : List GroupEvent) (signers : List Address) (threshold : ℕ) : Prop :=
  ∀ current quota, groupOf history = some (current, quota) →
    Quorum current quota (Standing (configLog history) · (signers.toFinset, threshold))

def RotationsEarned (history : List GroupEvent) : Prop :=
  ∀ newer older signers threshold, history = newer ++ .configured signers threshold :: older →
    RotationStood older signers threshold

lemma rotationsEarned_cons {event : GroupEvent} {history : List GroupEvent} :
    RotationsEarned (event :: history) ↔
      (∀ signers threshold, event = .configured signers threshold →
        RotationStood history signers threshold) ∧ RotationsEarned history := by
  constructor
  · intro he
    refine ⟨fun signers threshold hn => he [] history signers threshold (by simp [hn]), ?_⟩
    rintro newer older signers threshold rfl
    exact he (event :: newer) older signers threshold rfl
  · rintro ⟨hnow, hbefore⟩ newer older signers threshold hsplit
    cases newer with
    | nil =>
      obtain ⟨rfl, rfl⟩ := List.cons.inj hsplit
      exact hnow signers threshold rfl
    | cons e newer => exact hbefore newer older signers threshold (List.cons.inj hsplit).2

def configKey (h : Host) (signers : List Address) (threshold : ℕ) : Hash :=
  multisigConfigHash h (sortedMultisigSigners h signers) threshold

def Multisig.approvers (m : Multisig) (h : Host) (signers : List Address) (threshold : ℕ) :
    List Address :=
  (m.configApproval (configKey h signers threshold)).getD []

structure Multisig.Orderly (m : Multisig) (h : Host) : Prop where
  group : m.Tracks
  valid : ∀ signers threshold, groupOf m.history = some (signers, threshold) →
    GroupValid h signers threshold
  ungrouped : m.signers = none → ∀ key, m.configApproval key = none
  approvals : ∀ signers threshold, signers.Nodup →
    Records (m.approvers h signers threshold) (configLog m.history) (signers.toFinset, threshold)
  earned : RotationsEarned m.history

section Keys

variable {h : Host} {signers others : List Address} {threshold quota : ℕ}

lemma CollisionFree.key_iff (hc : CollisionFree h) (hn : signers.Nodup) (ho : others.Nodup) :
    configKey h signers threshold = configKey h others quota ↔
      (signers.toFinset, threshold) = (others.toFinset, quota) := by
  rw [Prod.mk.injEq]
  constructor
  · intro he
    obtain ⟨hs, rfl⟩ := hc.config _ _ _ _ he
    refine ⟨?_, rfl⟩
    rw [← List.toFinset_eq_of_perm _ _ (sortedMultisigSigners_spec hc.address hn).2, hs,
      List.toFinset_eq_of_perm _ _ (sortedMultisigSigners_spec hc.address ho).2]
  · rintro ⟨hs, rfl⟩
    rw [configKey, configKey, sortedMultisigSigners_eq hc.address hn ho hs]

end Keys

namespace Multisig.Orderly

variable {m : Multisig} {h : Host}

lemma rotationStood (hc : CollisionFree h) (hm : m.Orderly h) {signers : List Address}
    {threshold : ℕ} (hv : ValidConfig signers threshold)
    (ha : m.AdmitsConfig h signers threshold) :
    RotationStood m.history (sortedMultisigSigners h signers) threshold := by
  intro current quota hg
  rw [List.toFinset_eq_of_perm _ _ (sortedMultisigSigners_spec hc.address hv.nodup).2]
  rcases ha with hn | ⟨current', quota', hs, ht, hle⟩
  · simp [hm.group.signers, hg] at hn
  · have he := hm.group.groupOf_eq hs ht
    rw [hg, Option.some.injEq, Prod.mk.injEq] at he
    obtain ⟨rfl, rfl⟩ := he
    exact (hm.approvals signers threshold hv.nodup).quorum hle

lemma rotate (hc : CollisionFree h) (hm : m.Orderly h) {signers : List Address} {threshold : ℕ}
    (hv : ValidConfig signers threshold) (ha : m.AdmitsConfig h signers threshold) :
    (m.rotate h signers threshold).Orderly h := by
  refine ⟨⟨rfl, rfl⟩, ?_, by simp [Multisig.rotate], ?_, rotationsEarned_cons.mpr ⟨?_, hm.earned⟩⟩
  · rintro _ _ ⟨⟩
    exact hv.sorted hc.address
  · intro others quota ho
    have hset : (sortedMultisigSigners h signers).toFinset = signers.toFinset :=
      List.toFinset_eq_of_perm _ _ (sortedMultisigSigners_spec hc.address hv.nodup).2
    have hkey : configKey h signers threshold = configKey h others quota ↔ _ :=
      hc.key_iff hv.nodup ho
    simp only [Multisig.rotate, configLog_configured, hset, approvers]
    by_cases he : configKey h others quota = configKey h signers threshold
    · rw [he, ← hkey.mp he.symm]
      split_ifs with hs
      · simpa [configKey] using Records.clear
      · rw [hm.ungrouped (by simpa using hs)]
        exact Records.clear
    · have hne := mt hkey.mpr (Ne.symm he)
      split_ifs
      · rw [← configKey, Function.update_of_ne he]
        exact (hm.approvals others quota ho).clear_other hne
      · exact (hm.approvals others quota ho).clear_other hne
  · rintro _ _ ⟨⟩
    exact hm.rotationStood hc hv ha

lemma aside (hm : m.Orderly h) {event : GroupEvent} (he : event.configBallot = none)
    (approval : Hash → Option (List Address)) :
    ({ m with upgradeApproval := approval, history := event :: m.history } : Multisig).Orderly h := by
  have hlog : configLog (event :: m.history) = configLog m.history := by
    simp [configLog, he]
  have hgroup : groupOf (event :: m.history) = groupOf m.history := by
    cases event with
    | configured signers threshold => simp [GroupEvent.configBallot] at he
    | _ => rfl
  refine ⟨⟨hgroup ▸ hm.group.1, hgroup ▸ hm.group.2⟩, hgroup ▸ hm.valid, hm.ungrouped, ?_,
    rotationsEarned_cons.mpr ⟨?_, hm.earned⟩⟩
  · intro signers threshold hn
    rw [hlog]
    exact hm.approvals signers threshold hn
  · rintro signers threshold rfl
    simp [GroupEvent.configBallot] at he

lemma approve (hc : CollisionFree h) (hm : m.Orderly h) {signers : List Address} {threshold : ℕ}
    {signer : Address} (ha : m.Accepts h (.approveMultisigConfig signers threshold signer)) :
    (m.record h (.approveMultisigConfig signers threshold signer)).Orderly h := by
  obtain ⟨hv, hs, hnew⟩ := ha
  refine ⟨hm.group.record _, hm.valid, ?_, ?_,
    rotationsEarned_cons.mpr ⟨fun _ _ he => (nomatch he), hm.earned⟩⟩
  · intro hn
    have hnone : m.signers = none := hn
    simp [hnone] at hs
  · intro others quota ho
    have hkey : configKey h signers threshold = configKey h others quota ↔ _ :=
      hc.key_iff hv.nodup ho
    simp only [Multisig.record, configLog_approved, approvers]
    by_cases he : configKey h others quota = configKey h signers threshold
    · rw [he, ← hkey.mp he.symm, ← configKey, Function.update_self]
      exact (hm.approvals signers threshold hv.nodup).cast hnew
    · rw [← configKey, Function.update_of_ne he]
      exact (hm.approvals others quota ho).cast_other (mt hkey.mpr (Ne.symm he))

lemma apply (hc : CollisionFree h) (hm : m.Orderly h) {action : ActionType}
    (hv : ∀ signers threshold, action = .setMultisigConfig signers threshold →
      ValidConfig signers threshold ∧ m.AdmitsConfig h signers threshold) :
    (m.apply h action).Orderly h := by
  cases action with
  | upgrade newWasmHash => exact hm.aside rfl _
  | setMultisigConfig signers threshold =>
    obtain ⟨hv, ha⟩ := hv signers threshold rfl
    exact hm.rotate hc hv ha
  | _ => exact hm

lemma record (hc : CollisionFree h) (hm : m.Orderly h) {op : GroupOp} (ha : m.Accepts h op) :
    (m.record h op).Orderly h := by
  cases op with
  | setMultisigConfig signers threshold => exact hm.rotate hc ha.1 ha.2
  | approveMultisigConfig signers threshold signer => exact hm.approve hc ha
  | revokeUpgradeApproval signer newWasmHash =>
    by_cases hs : signer ∈ m.loadUpgradeApprovals newWasmHash
    · simp only [Multisig.record, hs, if_true]
      exact hm.aside rfl _
    · simpa only [Multisig.record, hs, if_false] using hm
  | _ => exact hm.aside rfl _

end Multisig.Orderly

lemma fresh_orderly (h : Host) (tokens : Ledger Address Address) :
    (State.fresh tokens).multisig.Orderly h :=
  ⟨⟨rfl, rfl⟩, fun _ _ hg => (nomatch hg), fun _ _ => rfl, fun _ _ _ => Records.start,
    fun _ _ _ _ he => (List.append_ne_nil_of_right_ne_nil _ (List.cons_ne_nil _ _) he.symm).elim⟩

variable {h : Host} {s : State}

lemma step_orderly (hc : CollisionFree h) (call : Call) (hs : s.multisig.Orderly h) :
    (step h call s).multisig.Orderly h := by
  obtain ⟨env, op⟩ := call
  rcases step_cases h ⟨env, op⟩ s with he | hr
  · rwa [he]
  cases op with
  | administer op =>
    rw [(AdminOp.invoke_administered hr).multisig]
    exact hs
  | timelock op =>
    refine TimelockOp.invoke_preserves (I := fun s => s.multisig.Orderly h) (fun _ _ hs => hs)
      (fun s t action hs ha => ?_) hs hr
    rw [ha.multisig]
    exact hs.apply hc ha.config
  | group op =>
    obtain ⟨ha, ht⟩ := GroupOp.invoke_ok hr
    rw [ht]
    exact hs.record hc ha
  | _ =>
    rw [(Op.invoke_peripheral (by simp) (by simp) (by simp) hr).multisig]
    exact hs

/-- A stored group is well formed, and its successor spends a quorum of its approvals. -/
theorem signer_rotation_is_approved (h : Host) (hc : CollisionFree h)
    (tokens : Ledger Address Address) (calls : List Call) :
    (∀ signers, (after h tokens calls).multisig.signers = some signers →
      ∃ threshold, (after h tokens calls).multisig.threshold = some threshold ∧
        groupOf (after h tokens calls).multisig.history = some (signers, threshold) ∧
        signers ≠ [] ∧ signers.Nodup ∧ signers.Pairwise (Precedes h) ∧
        min 2 signers.length ≤ threshold ∧ threshold ≤ signers.length) ∧
      RotationsEarned (after h tokens calls).multisig.history ∧
      ∀ signers threshold account, signers.Nodup →
        (account ∈ (after h tokens calls).multisig.approvers h signers threshold ↔
          Standing (configLog (after h tokens calls).multisig.history) account
            (signers.toFinset, threshold)) := by
  have hm : (after h tokens calls).multisig.Orderly h :=
    reachable_invariant (I := fun s : State => s.multisig.Orderly h)
      (fun _ call hs => step_orderly hc call hs) (fresh_orderly h tokens) ⟨calls, rfl⟩
  refine ⟨fun signers hs => ?_, hm.earned, fun signers threshold account hn =>
    (hm.approvals signers threshold hn).mem_iff account⟩
  have hg := hm.group.signers
  rw [hs, eq_comm, Option.map_eq_some_iff] at hg
  obtain ⟨⟨_, threshold⟩, hg, rfl⟩ := hg
  have hv := hm.valid _ _ hg
  exact ⟨threshold, by rw [hm.group.threshold, hg]; rfl, hg, hv.nonempty, hv.nodup, hv.sorted,
    hv.lower, hv.upper⟩

section Examples

def signerIds (signers : List Val) : List ℕ :=
  signers.filterMap fun
    | .address a => some a.id
    | _ => none

/-- A host that tells configurations apart by how long their encodings are. -/
def distinctHost : Host :=
  { Host.sample with
    xdr := fun
      | .address a => List.replicate a.id 1
      | .vec [.vec signers, .u32 threshold] =>
        List.replicate (Encodable.encode (signerIds signers, threshold)) 1
      | _ => [] }

lemma distinct_collisionFree : CollisionFree distinctHost := by
  have hids : ∀ signers : List Address,
      signerIds (signers.map .address) = signers.map Address.id := by
    intro signers
    simp [signerIds, List.filterMap_map]
  have hid : Function.Injective Address.id := by
    rintro ⟨a⟩ ⟨b⟩ rfl
    rfl
  refine ⟨fun a b he => ?_, fun signers others threshold quota he => ?_⟩
  · have hl := congrArg List.length he
    simpa [distinctHost, hid.eq_iff] using hl
  · have hl : Encodable.encode (signers.map Address.id, threshold) =
        Encodable.encode (others.map Address.id, quota) := by
      simpa [multisigConfigHash, configVal, distinctHost, Host.sample, hids] using he
    have hp := Encodable.encode_injective hl
    rw [Prod.mk.injEq] at hp
    exact ⟨List.map_injective_iff.mpr hid hp.1, hp.2⟩

/-- The only signer hands over to two others. -/
def handover : List Call :=
  [⟨adminEnv, .administer (.initializeRouter ⟨1⟩ ⟨9⟩ 10 100 1000)⟩,
    ⟨adminEnv, .group (.setMultisigConfig [⟨1⟩] 1)⟩,
    ⟨adminEnv, .group (.approveMultisigConfig [⟨3⟩, ⟨2⟩] 2 ⟨1⟩)⟩,
    ⟨adminEnv, .group (.setMultisigConfig [⟨2⟩, ⟨3⟩] 2)⟩]

def handedOver : Multisig := (after distinctHost emptyLedger handover).multisig

theorem signer_rotation_is_approved_handover :
    (∀ signers, handedOver.signers = some signers →
      ∃ threshold, handedOver.threshold = some threshold ∧
        groupOf handedOver.history = some (signers, threshold) ∧
        signers ≠ [] ∧ signers.Nodup ∧ signers.Pairwise (Precedes distinctHost) ∧
        min 2 signers.length ≤ threshold ∧ threshold ≤ signers.length) ∧
      RotationsEarned handedOver.history ∧
      ∀ signers threshold account, signers.Nodup →
        (account ∈ handedOver.approvers distinctHost signers threshold ↔
          Standing (configLog handedOver.history) account (signers.toFinset, threshold)) := by
  unfold handedOver
  exact signer_rotation_is_approved distinctHost distinct_collisionFree emptyLedger handover

end Examples

end StellarTags.Router
