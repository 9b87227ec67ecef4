import StellarTags.Router.Frames

/-! The role query and the role gate agree in every reachable state. -/

namespace StellarTags.Router

open Library.Transactions Library.Runs Library.Tokens Soroban

/-- Whoever is marked as a role's holder is its designated holder. -/
def Access.Coherent (a : Access) : Prop :=
  ∀ account role, a.userRole account role = true → a.role role = some account

namespace Access

variable {a : Access} {account : Address} {role : Role}

lemma Coherent.storeAdmin (h : a.Coherent) (newAdmin : Address) :
    (a.storeAdmin newAdmin).Coherent := h

lemma userRole_setRoleInternal (h : a.Coherent) {x : Address} {r : Role}
    (hx : (a.setRoleInternal role account).userRole x r = true) :
    (x = account ∧ r = role) ∨ (r ≠ role ∧ a.userRole x r = true) := by
  by_cases hn : x = account ∧ r = role
  · exact Or.inl hn
  right
  unfold setRoleInternal at hx
  cases hr : a.role role with
  | none =>
    simp only [hr, setUserRole, hn, if_false] at hx
    refine ⟨?_, hx⟩
    rintro rfl
    simpa [hr] using h x r hx
  | some previous =>
    by_cases hp : previous = account
    · simp only [hr, hp, ne_eq, not_true_eq_false, if_false, setUserRole, hn] at hx
      refine ⟨?_, hx⟩
      rintro rfl
      have he := h x r hx
      rw [hr, hp, Option.some.injEq] at he
      exact hn ⟨he.symm, rfl⟩
    · simp only [hr, ne_eq, hp, not_false_eq_true, if_true, setUserRole, hn, if_false] at hx
      by_cases hq : x = previous ∧ r = role
      · simp [hq] at hx
      · simp only [hq, if_false] at hx
        refine ⟨?_, hx⟩
        rintro rfl
        have he := h x r hx
        rw [hr, Option.some.injEq] at he
        exact hq ⟨he.symm, rfl⟩

lemma Coherent.setRoleInternal (h : a.Coherent) : (a.setRoleInternal role account).Coherent := by
  intro x r hx
  rw [setRoleInternal_role]
  rcases userRole_setRoleInternal h hx with ⟨rfl, rfl⟩ | ⟨hr, hx⟩
  · simp
  · simpa [hr] using h x r hx

lemma Coherent.installAdmin (h : a.Coherent) (newAdmin : Address) :
    (a.installAdmin newAdmin).Coherent := (h.storeAdmin newAdmin).setRoleInternal

lemma Coherent.removeRoleInternal (h : a.Coherent) :
    (a.removeRoleInternal role account).Coherent := by
  intro x r hx
  unfold Access.removeRoleInternal at hx ⊢
  cases hr : a.role role with
  | none =>
    simp only [hr, setUserRole] at hx ⊢
    split_ifs at hx
    exact h x r hx
  | some current =>
    simp only [hr] at hx ⊢
    by_cases hc : current = account
    · subst hc
      simp only [if_true, setUserRole] at hx ⊢
      split_ifs at hx with hn
      have he := h x r hx
      have hne : r ≠ role := by
        rintro rfl
        rw [hr, Option.some.injEq] at he
        exact hn ⟨he.symm, rfl⟩
      simpa [hne] using he
    · simp only [hc, if_false, setUserRole] at hx ⊢
      split_ifs at hx
      exact h x r hx

lemma Coherent.setRoleInternals (h : a.Coherent) (roles : List Role) (account : Address) :
    (roles.foldl (fun a role => a.setRoleInternal role account) a).Coherent := by
  induction roles generalizing a with
  | nil => exact h
  | cons role roles ih => exact ih h.setRoleInternal

lemma Coherent.apply (h : a.Coherent) (action : ActionType) : (a.apply action).Coherent := by
  cases action with
  | transferAdmin newAdmin => exact h.installAdmin newAdmin
  | _ => exact h

lemma Coherent.hasRole_iff (h : a.Coherent) :
    a.hasRoleInternal account role = true ↔ a.holder role = some account := by
  unfold hasRoleInternal holder
  by_cases hu : a.userRole account role = true
  · simp [hu, h account role hu]
  · cases hr : a.role role <;> simp [hu]

end Access

namespace Access

lemma Coherent.administer {a : Access} (h : a.Coherent) (op : AdminOp) :
    (a.administer op).Coherent := by
  cases op with
  | initializeRouter admin platformTreasury feeBps feeCap maxAmount =>
    exact (h.storeAdmin admin).setRoleInternals initialRoles admin
  | grantRole admin grantee role => exact h.setRoleInternal
  | revokeRole admin grantee role => exact h.removeRoleInternal
  | assignRole account role => exact h.setRoleInternal
  | setAdmin newAdmin => exact h.installAdmin newAdmin
  | transferAdmin newAdmin =>
    unfold Access.administer
    cases a.holder .superAdmin with
    | none => exact h
    | some currentAdmin => exact h.removeRoleInternal.installAdmin newAdmin
  | claimAdmin claimant => exact h.storeAdmin claimant
  | _ => exact h

end Access

variable {h : Host}

lemma step_coherent {s : State} (call : Call) (hs : s.access.Coherent) :
    (step h call s).access.Coherent := by
  obtain ⟨env, op⟩ := call
  rcases step_cases h ⟨env, op⟩ s with hc | hr
  · rwa [hc]
  cases op with
  | administer op =>
    rw [(AdminOp.invoke_administered hr).access]
    exact hs.administer op
  | timelock op =>
    refine TimelockOp.invoke_preserves (I := fun s => s.access.Coherent) (fun _ _ hs => hs) ?_ hs hr
    intro s t action hs ha
    exact ha.access ▸ hs.apply action
  | group op =>
    rw [(GroupOp.invoke_ok hr).2]
    exact hs
  | _ =>
    rw [(Op.invoke_peripheral (by simp) (by simp) (by simp) hr).access]
    exact hs

lemma after_coherent (tokens : Ledger Address Address) (calls : List Call) :
    (after h tokens calls).access.Coherent :=
  reachable_invariant (I := fun s : State => s.access.Coherent) (fun _ call => step_coherent call)
    (fun _ _ h => by cases h) ⟨calls, rfl⟩

/-- Whoever the query reports is the one address the gate asks for, and nobody else is. -/
theorem role_query_matches_gate (h : Host) (tokens : Ledger Address Address) (calls : List Call)
    (role : Role) (account : Address) :
    let s := after h tokens calls
    (s.access.hasRoleInternal account role = true ↔ s.access.holder role = some account) ∧
      (∀ env t, requireRole h env role s = .ok (account, t) ↔
        s.access.hasRoleInternal account role = true ∧ env.authorises h account = true ∧ t = s) ∧
      ∀ other, s.access.hasRoleInternal account role = true →
        s.access.hasRoleInternal other role = true → other = account := by
  have hs := after_coherent (h := h) tokens calls
  refine ⟨hs.hasRole_iff, fun env t => ?_, fun other ha ho => ?_⟩
  · rw [requireRole_ok, hs.hasRole_iff]
  · rw [hs.hasRole_iff] at ha ho
    exact Option.some.inj (ho.symm.trans ha)

end StellarTags.Router
