import StellarTags.Router.State

/-! Roles, administration and the tiered circuit breaker. -/

namespace StellarTags.Router

open Library.Transactions Soroban

namespace Access

def setUserRole (s : Access) (account : Address) (role : Role) (granted : Bool) : Access :=
  { s with userRole := fun a r =>
      if a = account ∧ r = role then granted else s.userRole a r }

def setRoleInternal (s : Access) (role : Role) (account : Address) : Access :=
  let s : Access :=
    match s.role role with
    | some previous => if previous ≠ account then s.setUserRole previous role false else s
    | none => s
  { s with role := Function.update s.role role (some account) }.setUserRole account role true

def removeRoleInternal (s : Access) (role : Role) (account : Address) : Access :=
  let s : Access :=
    match s.role role with
    | some current =>
      if current = account then { s with role := Function.update s.role role none } else s
    | none => s
  s.setUserRole account role false

def storeAdmin (s : Access) (newAdmin : Address) : Access :=
  { s with admin := some newAdmin, adminHistory := newAdmin :: s.adminHistory }

def installAdmin (s : Access) (newAdmin : Address) : Access :=
  (s.storeAdmin newAdmin).setRoleInternal .superAdmin newAdmin

def hasRoleInternal (s : Access) (account : Address) (role : Role) : Bool :=
  if s.userRole account role then true
  else
    match s.role role with
    | some primary => decide (primary = account)
    | none => decide (s.admin = some account)

/-- The address `requireRole` asks for: the designated holder, or the admin in its place. -/
def holder (s : Access) (role : Role) : Option Address :=
  match s.role role with
  | some account => some account
  | none => s.admin

@[simp] lemma setUserRole_admin (s : Access) (a : Address) (role : Role) (granted : Bool) :
    (s.setUserRole a role granted).admin = s.admin := rfl

@[simp] lemma setUserRole_role (s : Access) (a : Address) (role : Role) (granted : Bool) :
    (s.setUserRole a role granted).role = s.role := rfl

@[simp] lemma setRoleInternal_admin (s : Access) (role : Role) (account : Address) :
    (s.setRoleInternal role account).admin = s.admin := by
  unfold setRoleInternal
  cases s.role role with
  | none => rfl
  | some previous => by_cases h : previous = account <;> simp [h]

@[simp] lemma setRoleInternal_role (s : Access) (role : Role) (account : Address) :
    (s.setRoleInternal role account).role = Function.update s.role role (some account) := by
  unfold setRoleInternal
  cases s.role role with
  | none => rfl
  | some previous => by_cases h : previous = account <;> simp [h]

@[simp] lemma removeRoleInternal_admin (s : Access) (role : Role) (account : Address) :
    (s.removeRoleInternal role account).admin = s.admin := by
  unfold removeRoleInternal
  cases s.role role with
  | none => rfl
  | some current => by_cases h : current = account <;> simp [h]

end Access

def modifyAccess (f : Access → Access) : Tx State Error Unit :=
  Tx.update fun s => { s with access := f s.access }

def modifySettings (f : Settings → Settings) : Tx State Error Unit :=
  Tx.update fun s => { s with settings := f s.settings }

def modifyTimelock (f : Timelock → Timelock) : Tx State Error Unit :=
  Tx.update fun s => { s with timelock := f s.timelock }

def modifyTraffic (f : Traffic → Traffic) : Tx State Error Unit :=
  Tx.update fun s => { s with traffic := f s.traffic }

def modifyMultisig (f : Multisig → Multisig) : Tx State Error Unit :=
  Tx.update fun s => { s with multisig := f s.multisig }

section Writes

variable {α : Type} {s t : State} {u : Unit} {b : α} {k : Unit → Tx State Error α}

@[simp] lemma modifyAccess_ok {f : Access → Access} :
    modifyAccess f s = .ok (u, t) ↔ t = { s with access := f s.access } := Tx.update_ok

@[simp] lemma modifySettings_ok {f : Settings → Settings} :
    modifySettings f s = .ok (u, t) ↔ t = { s with settings := f s.settings } := Tx.update_ok

@[simp] lemma modifyTimelock_ok {f : Timelock → Timelock} :
    modifyTimelock f s = .ok (u, t) ↔ t = { s with timelock := f s.timelock } := Tx.update_ok

@[simp] lemma modifyMultisig_ok {f : Multisig → Multisig} :
    modifyMultisig f s = .ok (u, t) ↔ t = { s with multisig := f s.multisig } := Tx.update_ok

@[simp] lemma modifyTraffic_ok {f : Traffic → Traffic} :
    modifyTraffic f s = .ok (u, t) ↔ t = { s with traffic := f s.traffic } := Tx.update_ok

@[simp] lemma modifyAccess_bind {f : Access → Access} :
    (modifyAccess f >>= k) s = k () { s with access := f s.access } := rfl

@[simp] lemma modifySettings_bind {f : Settings → Settings} :
    (modifySettings f >>= k) s = k () { s with settings := f s.settings } := rfl

@[simp] lemma modifyTimelock_bind {f : Timelock → Timelock} :
    (modifyTimelock f >>= k) s = k () { s with timelock := f s.timelock } := rfl

@[simp] lemma modifyMultisig_bind {f : Multisig → Multisig} :
    (modifyMultisig f >>= k) s = k () { s with multisig := f s.multisig } := rfl

@[simp] lemma modifyTraffic_bind {f : Traffic → Traffic} :
    (modifyTraffic f >>= k) s = k () { s with traffic := f s.traffic } := rfl

end Writes

def requireAdmin : Tx State Error Address := do
  let admin ← Tx.read fun s => s.access.admin
  Tx.unwrap admin .notInitialized

def requireRole (h : Host) (env : Env) (role : Role) : Tx State Error Address := do
  let account ← Tx.read fun s => s.access.holder role
  let account ← Tx.unwrap account .notInitialized
  requireAuth h env account
  pure account

def requireRoleOf (h : Host) (env : Env) (caller : Address) (role : Role) :
    Tx State Error Unit := do
  let granted ← Tx.read fun s => s.access.hasRoleInternal caller role
  Tx.reject (granted = false) .roleNotFound
  requireAuth h env caller

def requireFeeAuthority (h : Host) (env : Env) : Tx State Error Unit := do
  let gov ← Tx.read fun s => s.settings.governance
  match gov with
  | some gov => requireAuth h env gov
  | none => do
    let _ ← requireRole h env .feeManager

namespace Settings

def getPauseLevel (cfg : Settings) : PauseLevel :=
  match cfg.pauseLevel with
  | some level => level
  | none => if cfg.paused.getD false then .fullHalt else .none

def setPauseLevel (cfg : Settings) (level : PauseLevel) : Settings :=
  { cfg with pauseLevel := some level, paused := some (decide (level ≠ .none)) }

def isPausedInternal (cfg : Settings) : Bool := decide (cfg.getPauseLevel = .fullHalt)

def isFrozenInternal (cfg : Settings) : Bool := cfg.frozen.getD false

def isDexRegisteredInternal (cfg : Settings) (dex : Address) : Bool := cfg.registeredDex dex

end Settings

section Gates

variable {σ : Type} (cfg : Settings)

def requireNotFullyHalted : Tx σ Error Unit :=
  Tx.reject (cfg.isPausedInternal) .paused

def requireSwapsNotPaused : Tx σ Error Unit :=
  Tx.reject (cfg.getPauseLevel ≠ .none) .paused

end Gates

def requireCircuitClosed : Tx State Error Unit := do
  let cfg ← Tx.read State.settings
  requireNotFullyHalted cfg

def requireNotFrozen : Tx State Error Unit := do
  let cfg ← Tx.read State.settings
  Tx.reject (cfg.isFrozenInternal) .contractFrozen

section Specs

variable {h : Host} {env : Env} {s t : State} {a caller : Address} {role : Role} {u : Unit}

@[simp] lemma requireAuth_ok {σ : Type} {s t : σ} :
    requireAuth h env a s = .ok (u, t) ↔ env.authorises h a ∧ t = s := by
  simp [requireAuth]

@[simp] lemma requireAdmin_ok : requireAdmin s = .ok (a, t) ↔ s.access.admin = some a ∧ t = s := by
  simp [requireAdmin]

@[simp] lemma requireRole_ok : requireRole h env role s = .ok (a, t) ↔
    s.access.holder role = some a ∧ env.authorises h a ∧ t = s := by
  simp [requireRole]

@[simp] lemma requireRoleOf_ok : requireRoleOf h env caller role s = .ok (u, t) ↔
    s.access.hasRoleInternal caller role = true ∧ env.authorises h caller ∧ t = s := by
  simp [requireRoleOf]

@[simp] lemma requireCircuitClosed_ok : requireCircuitClosed s = .ok (u, t) ↔
    s.settings.isPausedInternal = false ∧ t = s := by
  simp [requireCircuitClosed, requireNotFullyHalted]

@[simp] lemma requireNotFrozen_ok : requireNotFrozen s = .ok (u, t) ↔
    s.settings.isFrozenInternal = false ∧ t = s := by
  simp [requireNotFrozen]

section Bind

variable {α : Type} {b : α} {k : Address → Tx State Error α} {k' : Unit → Tx State Error α}

@[simp] lemma requireAuth_bind_ok {σ : Type} {s t : σ} {k : Unit → Tx σ Error α} :
    (requireAuth h env a >>= k) s = .ok (b, t) ↔ env.authorises h a ∧ k () s = .ok (b, t) := by
  simp [requireAuth]

@[simp] lemma requireAdmin_bind_ok : (requireAdmin >>= k) s = .ok (b, t) ↔
    ∃ a, s.access.admin = some a ∧ k a s = .ok (b, t) := by
  simp [requireAdmin]

@[simp] lemma requireRole_bind_ok : (requireRole h env role >>= k) s = .ok (b, t) ↔
    ∃ a, s.access.holder role = some a ∧ env.authorises h a ∧ k a s = .ok (b, t) := by
  simp [requireRole, and_assoc]

@[simp] lemma requireRoleOf_bind_ok : (requireRoleOf h env caller role >>= k') s = .ok (b, t) ↔
    s.access.hasRoleInternal caller role = true ∧ env.authorises h caller ∧
      k' () s = .ok (b, t) := by
  simp [requireRoleOf, and_assoc]

@[simp] lemma requireCircuitClosed_bind_ok : (requireCircuitClosed >>= k') s = .ok (b, t) ↔
    s.settings.isPausedInternal = false ∧ k' () s = .ok (b, t) := by
  simp [requireCircuitClosed, requireNotFullyHalted]

@[simp] lemma requireNotFrozen_bind_ok : (requireNotFrozen >>= k') s = .ok (b, t) ↔
    s.settings.isFrozenInternal = false ∧ k' () s = .ok (b, t) := by
  simp [requireNotFrozen]

end Bind

lemma requireFeeAuthority_state (hr : requireFeeAuthority h env s = .ok (u, t)) : t = s := by
  cases hg : s.settings.governance with
  | some gov =>
    simp only [requireFeeAuthority, Tx.read_bind, hg, requireAuth_ok] at hr
    exact hr.2
  | none =>
    simp only [requireFeeAuthority, Tx.read_bind, hg, Tx.bind_ok, requireRole_ok, Tx.pure_ok] at hr
    obtain ⟨_, _, ⟨_, _, rfl⟩, _, rfl⟩ := hr
    rfl

end Specs

end StellarTags.Router
