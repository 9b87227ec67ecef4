import StellarTags.Router.RoleCoherence

/-! One root: the gates for the admin and for the `SuperAdmin` ask for the same address. -/

namespace StellarTags.Router

open Library.Transactions Library.Runs Library.Tokens Soroban

namespace State

def PassesSome (s : State) (h : Host) (env : Env) : Prop :=
  Tx.succeeds (asAdmin h env) s = true ∨ Tx.succeeds (asRole h env .superAdmin) s = true ∨
    ∃ caller, Tx.succeeds (requireRoleOf h env caller .superAdmin) s = true

def PassesAll (s : State) (h : Host) (env : Env) (account : Address) : Prop :=
  Tx.succeeds (asAdmin h env) s = true ∧ Tx.succeeds (asRole h env .superAdmin) s = true ∧
    Tx.succeeds (requireRoleOf h env account .superAdmin) s = true

/-- Only the stored admin's authorisation passes an admin or `SuperAdmin` gate, and it passes
them all. -/
def OneRoot (s : State) (h : Host) : Prop :=
  ∀ env, (∀ admin, s.access.admin = some admin → env.authorises h admin = true →
      s.PassesAll h env admin) ∧
    (s.PassesSome h env → ∃ admin, s.access.admin = some admin ∧ env.authorises h admin = true)

/-- What `claim_admin` checks. -/
structure Claimable (s : State) (h : Host) (env : Env) (claimant : Address) : Prop where
  authorised : env.authorises h claimant = true
  backup : s.settings.backupAdmin = some claimant
  expired : ∃ timeout heartbeat, s.settings.dmsTimeout = some timeout ∧
    s.traffic.lastHeartbeat = some heartbeat ∧
    Library.Integers.saturateU64 (heartbeat + timeout) ≤ env.timestamp

end State

/-- A grant of `SuperAdmin` that goes ahead names the admin, and a claim that goes ahead finds
nobody else designated as `SuperAdmin`. -/
def KeepsRoot (h : Host) (s : State) (call : Call) : Prop :=
  match call.op with
  | .administer (.grantRole admin grantee .superAdmin) =>
    s.access.hasRoleInternal admin .superAdmin = true → call.env.authorises h admin = true →
      s.access.admin = some grantee
  | .administer (.assignRole account .superAdmin) =>
    (∃ a, s.access.holder .superAdmin = some a ∧ call.env.authorises h a = true) →
      s.access.admin = some account
  | .administer (.claimAdmin claimant) => s.Claimable h call.env claimant →
    s.access.role .superAdmin = none ∨ s.access.role .superAdmin = some claimant
  | _ => True

namespace Access

def Rooted (a : Access) : Prop := a.holder .superAdmin = a.admin

variable {a : Access} {account : Address} {role : Role}

lemma holder_setRoleInternal (hr : role ≠ .superAdmin) :
    (a.setRoleInternal role account).holder .superAdmin = a.holder .superAdmin := by
  simp [holder, hr.symm]

lemma Rooted.setRoleInternal (h : a.Rooted) (hr : role = .superAdmin → a.admin = some account) :
    (a.setRoleInternal role account).Rooted := by
  by_cases he : role = .superAdmin
  · subst he
    simp [Rooted, holder, hr rfl]
  · have hk : (a.setRoleInternal role account).holder .superAdmin = a.holder .superAdmin :=
      holder_setRoleInternal he
    unfold Rooted
    rw [hk, setRoleInternal_admin]
    exact h

lemma rooted_installAdmin (newAdmin : Address) : (a.installAdmin newAdmin).Rooted := by
  simp [Rooted, holder, installAdmin, storeAdmin]

lemma Rooted.setRoleInternals (h : a.Rooted) (ha : a.admin = some account) (roles : List Role) :
    (roles.foldl (fun a role => a.setRoleInternal role account) a).Rooted := by
  induction roles generalizing a with
  | nil => exact h
  | cons role roles ih => exact ih (h.setRoleInternal fun _ => ha) (by simpa using ha)

lemma Rooted.removeRoleInternal (h : a.Rooted) : (a.removeRoleInternal role account).Rooted := by
  unfold Rooted at h ⊢
  rw [removeRoleInternal_admin]
  unfold Access.removeRoleInternal
  cases hr : a.role role with
  | none => exact h
  | some current =>
    by_cases hc : current = account
    · by_cases hs : role = .superAdmin
      · subst hs
        simp [holder, hc]
      · simpa [holder, hc, Ne.symm hs] using h
    · simpa [hc, holder] using h

lemma Rooted.apply (h : a.Rooted) (action : ActionType) : (a.apply action).Rooted := by
  cases action with
  | transferAdmin newAdmin => exact rooted_installAdmin newAdmin
  | _ => exact h

end Access

variable {h : Host} {env : Env} {s t : State}

lemma claimAdmin_ok {claimant : Address} {u : Unit} (hr : claimAdmin h env claimant s = .ok (u, t)) :
    s.Claimable h env claimant ∧ t.access = s.access.storeAdmin claimant := by
  simp only [claimAdmin, requireAuth_bind_ok, Tx.read_bind, Tx.unwrap_bind_ok, Tx.reject_bind_ok,
    modifyAccess_bind, modifySettings_bind, modifyTraffic_ok, not_not, not_lt] at hr
  obtain ⟨ha, backup, hb, rfl, timeout, ht, heartbeat, hh, hn, rfl⟩ := hr
  exact ⟨⟨ha, hb, timeout, heartbeat, ht, hh, hn⟩, rfl⟩

lemma administer_rooted {op : AdminOp} (hs : s.access.Rooted)
    (hk : KeepsRoot h s ⟨env, .administer op⟩) (hr : op.invoke h env s = .ok ((), t)) :
    t.access.Rooted := by
  have ha := AdminOp.invoke_administered hr
  have hgate := ha.authorised
  cases op with
  | initializeRouter admin platformTreasury feeBps feeCap maxAmount =>
    rw [ha.access, Access.administer]
    have hroot : (s.access.storeAdmin admin).setRoleInternal .superAdmin admin |>.Rooted :=
      Access.rooted_installAdmin admin
    exact hroot.setRoleInternals (by simp [Access.storeAdmin])
      [.treasuryManager, .complianceOfficer, .feeManager, .pauser]
  | grantRole admin grantee role =>
    rw [ha.access]
    apply hs.setRoleInternal
    rintro rfl
    exact hk hgate.1 hgate.2
  | revokeRole admin grantee role =>
    rw [ha.access]
    exact hs.removeRoleInternal
  | assignRole account role =>
    rw [ha.access]
    apply hs.setRoleInternal
    rintro rfl
    exact hk hgate
  | setAdmin newAdmin =>
    rw [ha.access]
    exact Access.rooted_installAdmin newAdmin
  | transferAdmin newAdmin =>
    obtain ⟨current, hh, -⟩ := hgate
    rw [ha.access]
    simp only [Access.administer, hh]
    exact Access.rooted_installAdmin newAdmin
  | claimAdmin claimant =>
    obtain ⟨hc, hacc⟩ := claimAdmin_ok hr
    rw [hacc]
    rcases hk hc with hn | hn <;> simp [Access.Rooted, Access.holder, Access.storeAdmin, hn]
  | _ =>
    rw [ha.access]
    exact hs

lemma step_rooted (call : Call) (hs : s.access.Rooted) (hk : KeepsRoot h s call) :
    (step h call s).access.Rooted := by
  obtain ⟨env, op⟩ := call
  rcases step_cases h ⟨env, op⟩ s with hc | hr
  · rwa [hc]
  cases op with
  | administer op => exact administer_rooted hs hk hr
  | timelock op =>
    apply TimelockOp.invoke_preserves (I := fun s => s.access.Rooted) (fun _ _ hs => hs) ?_ hs hr
    intro s t action hs ha
    rw [ha.access]
    exact hs.apply action
  | group op =>
    rw [(GroupOp.invoke_ok hr).2]
    exact hs
  | _ =>
    rw [(Op.invoke_peripheral (by simp) (by simp) (by simp) hr).access]
    exact hs

lemma succeeds_asAdmin : Tx.succeeds (asAdmin h env) s = true ↔
    ∃ a, s.access.admin = some a ∧ env.authorises h a = true := by
  simp [Tx.succeeds_unit]

lemma succeeds_asRole {role : Role} : Tx.succeeds (asRole h env role) s = true ↔
    ∃ a, s.access.holder role = some a ∧ env.authorises h a = true := by
  simp [Tx.succeeds_unit]

lemma succeeds_requireRoleOf {caller : Address} {role : Role} :
    Tx.succeeds (requireRoleOf h env caller role) s = true ↔
      s.access.hasRoleInternal caller role = true ∧ env.authorises h caller = true := by
  simp [Tx.succeeds_unit]

lemma oneRoot_of_rooted (hs : s.access.Rooted) (hc : s.access.Coherent) : s.OneRoot h := by
  have hroot : s.access.holder .superAdmin = s.access.admin := hs
  intro env
  constructor
  · intro admin hadmin hauth
    refine ⟨succeeds_asAdmin.mpr ⟨admin, hadmin, hauth⟩,
      succeeds_asRole.mpr ⟨admin, hroot.trans hadmin, hauth⟩, succeeds_requireRoleOf.mpr ⟨?_, hauth⟩⟩
    exact hc.hasRole_iff.mpr (hroot.trans hadmin)
  · rintro (hg | hg | ⟨caller, hg⟩)
    · exact succeeds_asAdmin.mp hg
    · obtain ⟨a, ha, hauth⟩ := succeeds_asRole.mp hg
      exact ⟨a, hroot.symm.trans ha, hauth⟩
    · obtain ⟨ha, hauth⟩ := succeeds_requireRoleOf.mp hg
      exact ⟨caller, hroot.symm.trans (hc.hasRole_iff.mp ha), hauth⟩

lemma State.OneRoot.admin_only (hs : s.OneRoot h) {admin : Address}
    (ha : s.access.admin = some admin) (env : Env) :
    (env.authorises h admin = true → s.PassesAll h env admin) ∧
      (env.authorises h admin = false → ¬ s.PassesSome h env) := by
  refine ⟨(hs env).1 admin ha, fun hauth hsome => ?_⟩
  obtain ⟨other, ho, hother⟩ := (hs env).2 hsome
  obtain rfl : admin = other := Option.some.inj (ha.symm.trans ho)
  simp [hauth] at hother

section Examples

/-- `⟨1⟩` sets the contract up and names `⟨2⟩` as its backup, for a silence of seven days. -/
def armedSwitch : List Call :=
  [⟨signedBy [⟨1⟩], .administer (.initializeRouter ⟨1⟩ ⟨9⟩ 10 100 1000)⟩,
    ⟨signedBy [⟨1⟩], .administer (.setBackupAdminInternal ⟨2⟩ 604800)⟩]

def takeover : Call :=
  ⟨{ signedBy [⟨2⟩] with timestamp := 604800 }, .administer (.claimAdmin ⟨2⟩)⟩

end Examples

end StellarTags.Router
