import StellarTags.Router.Frames

/-! How a freshly deployed contract gets its admin, and who may replace it. -/

namespace StellarTags.Router

open Library.Transactions Library.Runs Library.Tokens Soroban

/-- An address authorised the step, or the admin before it did, or the `SuperAdmin` before it. -/
def State.Endorsed (s : State) (h : Host) (env : Env) (account : Address) : Prop :=
  env.authorises h account = true ∨
    (∃ admin, s.access.admin = some admin ∧ env.authorises h admin = true) ∨
    ∃ holder, s.access.holder .superAdmin = some holder ∧ env.authorises h holder = true

/-- Only endorsed addresses are stored as admin on the way from `s` to `t`. -/
def Succession (h : Host) (env : Env) (s t : State) : Prop :=
  ∃ stored, t.access.adminHistory = stored ++ s.access.adminHistory ∧
    ∀ account ∈ stored, s.Endorsed h env account

/-- The call is not a `set_admin` that finds no admin stored. -/
def Founded (s : State) (call : Call) : Prop :=
  ∀ newAdmin, call.op = .administer (.setAdmin newAdmin) → s.access.admin ≠ none

structure Bootstrapped (s : State) : Prop where
  ready : s.access.admin.isSome → s.settings.Ready
  backupAdmin : s.settings.backupAdmin.isSome → s.access.admin.isSome
  noRole : s.access.admin = none → ∀ role, s.access.role role = none
  noUserRole : s.access.admin = none → ∀ account role, s.access.userRole account role = false

lemma Bootstrapped.of_admin {s : State} (ha : s.access.admin.isSome) (hr : s.settings.Ready) :
    Bootstrapped s :=
  ⟨fun _ => hr, fun _ => ha, fun hn => by simp [hn] at ha, fun hn => by simp [hn] at ha⟩

namespace Access

variable (a : Access) (account : Address) (role : Role)

@[simp] lemma adminHistory_setRoleInternal :
    (a.setRoleInternal role account).adminHistory = a.adminHistory := by
  unfold setRoleInternal
  cases a.role role with
  | none => rfl
  | some previous => by_cases h : previous = account <;> simp [h, setUserRole]

@[simp] lemma adminHistory_removeRoleInternal :
    (a.removeRoleInternal role account).adminHistory = a.adminHistory := by
  unfold removeRoleInternal
  cases a.role role with
  | none => rfl
  | some current => by_cases h : current = account <;> simp [h, setUserRole]

lemma adminHistory_setRoleInternals (roles : List Role) :
    (roles.foldl (fun a role => a.setRoleInternal role account) a).adminHistory =
      a.adminHistory := by
  induction roles generalizing a with
  | nil => rfl
  | cons role roles ih => simp [ih]

lemma admin_setRoleInternals (roles : List Role) :
    (roles.foldl (fun a role => a.setRoleInternal role account) a).admin = a.admin := by
  induction roles generalizing a with
  | nil => rfl
  | cons role roles ih => simp [ih]

@[simp] lemma admin_installAdmin : (a.installAdmin account).admin = some account := by
  simp [installAdmin, storeAdmin]

@[simp] lemma adminHistory_installAdmin :
    (a.installAdmin account).adminHistory = account :: a.adminHistory := by
  simp [installAdmin, storeAdmin]

end Access

variable {h : Host} {env : Env} {s t v : State} {u : Unit}

lemma Succession.of_eq (he : t.access = s.access) : Succession h env s t :=
  ⟨[], by simp [he], by simp⟩

lemma Succession.one (account : Address) (ha : s.Endorsed h env account)
    (ht : t.access.adminHistory = account :: s.access.adminHistory) : Succession h env s t :=
  ⟨[account], by simp [ht], by simpa using ha⟩

section Administration

variable {op : AdminOp}

lemma Bootstrapped.holder_none (hs : Bootstrapped s) (hn : s.access.admin = none) (role : Role) :
    s.access.holder role = none := by
  simp [Access.holder, hs.noRole hn role, hn]

lemma Bootstrapped.hasRole_false (hs : Bootstrapped s) (hn : s.access.admin = none)
    (account : Address) (role : Role) : s.access.hasRoleInternal account role = false := by
  simp [Access.hasRoleInternal, hs.noUserRole hn, hs.noRole hn, hn]

lemma administered_succession (hf : ∀ newAdmin, op = .setAdmin newAdmin → s.access.admin ≠ none)
    (ha : Administered h env op s t) : Succession h env s t := by
  have hauth := ha.authorised
  cases op with
  | initializeRouter admin platformTreasury feeBps feeCap maxAmount =>
    refine Succession.one admin (Or.inl hauth.2) ?_
    rw [ha.access]
    simp [Access.administer, Access.adminHistory_setRoleInternals, Access.storeAdmin]
  | setAdmin newAdmin =>
    have hh := hauth.resolve_left (hf newAdmin rfl)
    refine Succession.one newAdmin (Or.inr (Or.inr hh)) ?_
    rw [ha.access]
    simp [Access.administer]
  | transferAdmin newAdmin =>
    obtain ⟨a, hh, haa⟩ := hauth
    refine Succession.one newAdmin (Or.inr (Or.inr ⟨a, hh, haa⟩)) ?_
    rw [ha.access]
    simp [Access.administer, hh]
  | claimAdmin claimant =>
    exact Succession.one claimant (Or.inl hauth.2) (by rw [ha.access]; rfl)
  | grantRole admin grantee role =>
    exact ⟨[], by rw [ha.access]; simp [Access.administer], by simp⟩
  | revokeRole admin grantee role =>
    exact ⟨[], by rw [ha.access]; simp [Access.administer], by simp⟩
  | assignRole account role =>
    exact ⟨[], by rw [ha.access]; simp [Access.administer], by simp⟩
  | _ => exact Succession.of_eq ha.access

lemma admin_isSome_administer (a : Access) (op : AdminOp) (ha : a.admin.isSome) :
    (a.administer op).admin.isSome := by
  cases op with
  | initializeRouter admin platformTreasury feeBps feeCap maxAmount =>
    simp [Access.administer, Access.admin_setRoleInternals, Access.storeAdmin]
  | transferAdmin newAdmin =>
    unfold Access.administer
    cases a.holder .superAdmin <;> simp [ha]
  | _ => simp [Access.administer, Access.storeAdmin, ha]

lemma Bootstrapped.administered (hs : Bootstrapped s)
    (hf : ∀ newAdmin, op = .setAdmin newAdmin → s.access.admin ≠ none)
    (ha : Administered h env op s t) : Bootstrapped t := by
  have hauth := ha.authorised
  by_cases hn : s.access.admin = none
  · have hb : t.settings.backupAdmin.isSome → False := by
      intro ht
      rcases ha.backupAdmin ht with hb | hb
      · simpa [hn] using hs.backupAdmin hb
      · simp [hn] at hb
    cases op with
    | initializeRouter admin platformTreasury feeBps feeCap maxAmount =>
      have hsome : t.access.admin = some admin := by
        rw [ha.access]
        simp [Access.administer, Access.admin_setRoleInternals, Access.storeAdmin]
      exact ⟨fun _ => ha.initialized _ _ _ _ _ rfl, fun ht => (hb ht).elim, by simp [hsome],
        by simp [hsome]⟩
    | grantRole admin grantee role => simp [State.Authorised, hs.hasRole_false hn] at hauth
    | revokeRole admin grantee role => simp [State.Authorised, hs.hasRole_false hn] at hauth
    | assignRole account role => simp [State.Authorised, hs.holder_none hn] at hauth
    | transferAdmin newAdmin => simp [State.Authorised, hs.holder_none hn] at hauth
    | setAdmin newAdmin => exact absurd hn (hf newAdmin rfl)
    | claimAdmin claimant => simpa [hn] using hs.backupAdmin (by simp [hauth.1])
    | renewHeartbeat operator =>
      have he : t.access = s.access := ha.access
      exact ⟨by simp [he, hn], fun ht => (hb ht).elim, he ▸ hs.noRole, he ▸ hs.noUserRole⟩
    | _ => simp [State.Authorised, hn] at hauth
  · have hsome : t.access.admin.isSome := by
      rw [ha.access]
      exact admin_isSome_administer _ _ (Option.isSome_iff_ne_none.mpr hn)
    exact .of_admin hsome (ha.ready (hs.ready (Option.isSome_iff_ne_none.mpr hn)))

end Administration

lemma Bootstrapped.peripheral (hs : Bootstrapped s) (hp : Peripheral s t) : Bootstrapped t := by
  obtain ⟨ha, -, -, hk⟩ := hp
  exact ⟨fun ht => hk.ready (hs.ready (ha ▸ ht)),
    fun ht => ha ▸ hs.backupAdmin (hk.backupAdmin ▸ ht),
    ha ▸ hs.noRole, ha ▸ hs.noUserRole⟩

lemma TimelockOp.invoke_admin {op : TimelockOp} (hr : op.invoke h env s = .ok (u, t)) :
    ∃ admin, s.access.admin = some admin ∧ env.authorises h admin = true := by
  cases op with
  | queueAction action =>
    simp [invoke, Router.queueAction, requireTimelockOpen_ok] at hr
    exact hr.1.2.2
  | executeAction nonce => exact (executeAction_ok.mp hr).1.2.2
  | executeBatchActions nonces => exact (executeBatchActions_ok.mp hr).1.2.2
  | cancelAction nonce =>
    simp [invoke, Router.cancelAction] at hr
    exact hr.1

lemma Access.apply_admin (a : Access) (action : ActionType) (ha : a.admin.isSome) :
    (a.apply action).admin.isSome ∧ ∃ stored, (a.apply action).adminHistory = stored ++ a.adminHistory := by
  cases action with
  | transferAdmin newAdmin => exact ⟨by simp [Access.apply], [newAdmin], by simp [Access.apply]⟩
  | _ => exact ⟨ha, [], rfl⟩

lemma timelock_bootstrapped {op : TimelockOp} (hs : Bootstrapped s)
    (hr : op.invoke h env s = .ok (u, t)) : Bootstrapped t ∧ Succession h env s t := by
  obtain ⟨admin, hadmin, hauth⟩ := TimelockOp.invoke_admin hr
  have hsome : s.access.admin.isSome := by simp [hadmin]
  obtain ⟨hadmin', hready, stored, hstored⟩ := TimelockOp.invoke_preserves
    (I := fun v => v.access.admin.isSome ∧ v.settings.Ready ∧
      ∃ stored, v.access.adminHistory = stored ++ s.access.adminHistory)
    (fun _ _ hv => hv) (by
      rintro v w action ⟨hv, hrv, stored, hstored⟩ ha
      obtain ⟨hw, more, hmore⟩ := v.access.apply_admin action hv
      refine ⟨ha.access ▸ hw, ha.ready hrv, more ++ stored, ?_⟩
      rw [ha.access, hmore, hstored, List.append_assoc])
    ⟨hsome, hs.ready hsome, [], rfl⟩ hr
  exact ⟨.of_admin hadmin' hready, stored, hstored,
    fun account _ => Or.inr (Or.inl ⟨admin, hadmin, hauth⟩)⟩

lemma step_bootstrapped (call : Call) (hs : Bootstrapped s) (hf : Founded s call) :
    Bootstrapped (step h call s) ∧ Succession h call.env s (step h call s) := by
  obtain ⟨env, op⟩ := call
  rcases step_cases h ⟨env, op⟩ s with hc | hr
  · rw [hc]
    exact ⟨hs, .of_eq rfl⟩
  cases op with
  | administer op =>
    have ha := AdminOp.invoke_administered hr
    have hf' : ∀ newAdmin, op = .setAdmin newAdmin → s.access.admin ≠ none :=
      fun newAdmin he => hf newAdmin (by rw [he])
    exact ⟨hs.administered hf' ha, administered_succession hf' ha⟩
  | timelock op => exact timelock_bootstrapped hs hr
  | group op =>
    rw [(GroupOp.invoke_ok hr).2]
    exact ⟨⟨hs.1, hs.2, hs.3, hs.4⟩, .of_eq rfl⟩
  | _ =>
    have hp := Op.invoke_peripheral (by simp) (by simp) (by simp) hr
    exact ⟨hs.peripheral hp, .of_eq hp.access⟩

lemma fresh_bootstrapped (tokens : Ledger Address Address) : Bootstrapped (State.fresh tokens) :=
  ⟨by simp [State.fresh], by simp [State.fresh], fun _ _ => rfl, fun _ _ _ => rfl⟩

/-- Unless `set_admin` founds the contract, every admin is endorsed and finds the fees set. -/
theorem admins_are_endorsed (h : Host) (tokens : Ledger Address Address) (calls : List Call)
    (hf : Along (step h) Founded (State.fresh tokens) calls) :
    Along (step h) (fun s call => Succession h call.env s (step h call s)) (State.fresh tokens)
        calls ∧
      ((after h tokens calls).access.admin.isSome → (after h tokens calls).settings.Ready) := by
  have hstep : ∀ s call, Bootstrapped s → Founded s call → Bootstrapped (step h call s) :=
    fun _ call hs hf => (step_bootstrapped call hs hf).1
  refine ⟨along_invariant hstep ?_ (fresh_bootstrapped tokens) hf, ?_⟩
  · exact fun _ call hs hf => (step_bootstrapped call hs hf).2
  · exact (run_invariant hstep (fresh_bootstrapped tokens) hf).ready

section Examples

/-- `⟨1⟩` sets the contract up and hands its `SuperAdmin` role to `⟨2⟩`. -/
def delegation : List Call :=
  [⟨signedBy [⟨1⟩], .administer (.initializeRouter ⟨1⟩ ⟨9⟩ 10 100 1000)⟩,
    ⟨signedBy [⟨1⟩], .administer (.grantRole ⟨1⟩ ⟨2⟩ .superAdmin)⟩]

lemma delegation_founded : Along (step .sample) Founded (State.fresh emptyLedger) delegation := by
  simp [delegation, Founded]

theorem admins_are_endorsed_delegation :
    Along (step .sample) (fun s call => Succession .sample call.env s (step .sample call s))
        (State.fresh emptyLedger) delegation ∧
      ((after .sample emptyLedger delegation).access.admin.isSome →
        (after .sample emptyLedger delegation).settings.Ready) :=
  admins_are_endorsed .sample emptyLedger delegation delegation_founded

def replaceAdmin (authors : List Address) : Call :=
  ⟨signedBy authors, .administer (.setAdmin ⟨3⟩)⟩

/-- The `SuperAdmin` alone makes `⟨3⟩` the admin; before any admin, anyone makes `⟨3⟩` the admin
of a contract that has no treasury and can no longer be set up. -/
theorem admin_without_consent :
    ((after .sample emptyLedger delegation).access.admin = some ⟨1⟩ ∧
      (after .sample emptyLedger (delegation ++ [replaceAdmin [⟨2⟩]])).access.admin = some ⟨3⟩ ∧
      (replaceAdmin [⟨2⟩]).env.authorises .sample ⟨1⟩ = false ∧
      (replaceAdmin [⟨2⟩]).env.authorises .sample ⟨3⟩ = false) ∧
    (after .sample emptyLedger [replaceAdmin []]).access.admin = some ⟨3⟩ ∧
      (after .sample emptyLedger [replaceAdmin []]).settings.platformTreasury = none ∧
      ∀ env admin treasury feeBps feeCap maxAmount,
        Tx.succeeds (initializeRouter .sample env admin treasury feeBps feeCap maxAmount)
          (after .sample emptyLedger [replaceAdmin []]) = false := by
  refine ⟨⟨by decide, by decide, by decide, by decide⟩, by decide, by decide, ?_⟩
  intro env admin treasury feeBps feeCap maxAmount
  rfl

end Examples

end StellarTags.Router
