import StellarTags.Router.Accounting

/-! Deployment, roles, the admin's succession and the dead man's switch. -/

namespace StellarTags.Router

open Library.Transactions Library.Integers Soroban

/-- The settings that payments cannot do without. -/
structure Settings.Ready (c : Settings) : Prop where
  platformTreasury : c.platformTreasury.isSome
  feeBps : c.feeBps.isSome
  feeCap : c.feeCap.isSome
  maxAmount : c.maxAmount.isSome

structure Settings.Keeps (c d : Settings) : Prop where
  backupAdmin : d.backupAdmin = c.backupAdmin
  ready : c.Ready → d.Ready

def asAdmin (h : Host) (env : Env) : Tx State Error Unit := do
  let admin ← requireAdmin
  requireAuth h env admin

def asRole (h : Host) (env : Env) (role : Role) : Tx State Error Unit := do
  let _ ← requireRole h env role

@[simp] lemma asAdmin_ok {h : Host} {env : Env} {s t : State} {u : Unit} :
    asAdmin h env s = .ok (u, t) ↔
      ∃ a, s.access.admin = some a ∧ env.authorises h a ∧ t = s := by
  simp [asAdmin]

@[simp] lemma asRole_ok {h : Host} {env : Env} {role : Role} {s t : State} {u : Unit} :
    asRole h env role s = .ok (u, t) ↔
      ∃ a, s.access.holder role = some a ∧ env.authorises h a ∧ t = s := by
  simp [asRole]

def initialRoles : List Role :=
  [.superAdmin, .treasuryManager, .complianceOfficer, .feeManager, .pauser]

def initializeRouter (h : Host) (env : Env) (admin platformTreasury : Address)
    (feeBps feeCap maxAmount : ℤ) : Tx State Error Unit := do
  let initialized ← Tx.read fun s => s.access.admin.isSome
  Tx.reject (initialized = true) .alreadyInitialized
  requireAuth h env admin
  modifyAccess fun a => a.storeAdmin admin
  modifySettings fun c =>
    { c with
      platformTreasury := some platformTreasury
      feeBps := some feeBps
      feeCap := some feeCap
      maxAmount := some maxAmount
      paused := some false
      frozen := some false
      maxSlippageBps := some defaultMaxSlippageBps }
  modifyTimelock fun t => { t with nonce := some 0 }
  modifyAccess fun a => initialRoles.foldl (fun a role => a.setRoleInternal role admin) a

def grantRole (h : Host) (env : Env) (admin grantee : Address) (role : Role) :
    Tx State Error Unit := do
  requireRoleOf h env admin .superAdmin
  modifyAccess fun a => a.setRoleInternal role grantee

def revokeRole (h : Host) (env : Env) (admin grantee : Address) (role : Role) :
    Tx State Error Unit := do
  requireRoleOf h env admin .superAdmin
  Tx.reject (role = .superAdmin ∧ admin = grantee) .invalidRole
  modifyAccess fun a => a.removeRoleInternal role grantee

def assignRole (h : Host) (env : Env) (account : Address) (role : Role) :
    Tx State Error Unit := do
  asRole h env .superAdmin
  modifyAccess fun a => a.setRoleInternal role account

def setAdmin (h : Host) (env : Env) (newAdmin : Address) : Tx State Error Unit := do
  let stored ← Tx.read fun s => s.access.admin.isSome
  Tx.whenever (stored = true) (asRole h env .superAdmin)
  modifyAccess fun a => a.installAdmin newAdmin

def transferAdmin (h : Host) (env : Env) (newAdmin : Address) : Tx State Error Unit := do
  let currentAdmin ← requireRole h env .superAdmin
  modifyAccess fun a => a.removeRoleInternal .superAdmin currentAdmin
  modifyAccess fun a => a.installAdmin newAdmin

def applySetBackupAdmin (env : Env) (backup : Address) (timeoutSeconds : ℕ) :
    Tx State Error Unit := do
  Tx.reject (timeoutSeconds < minDmsTimeout) .invalidDmsConfig
  let admin ← requireAdmin
  Tx.reject (backup = admin) .invalidDmsConfig
  modifySettings fun c =>
    { c with backupAdmin := some backup, dmsTimeout := some timeoutSeconds }
  modifyTraffic fun t => { t with lastHeartbeat := some env.timestamp }

def setBackupAdminInternal (h : Host) (env : Env) (backup : Address) (timeoutSeconds : ℕ) :
    Tx State Error Unit := do
  asAdmin h env
  applySetBackupAdmin env backup timeoutSeconds

def removeBackupAdmin (h : Host) (env : Env) : Tx State Error Unit := do
  asAdmin h env
  modifySettings fun c => { c with backupAdmin := none }
  modifyTraffic fun t => { t with lastHeartbeat := none }

def ping (h : Host) (env : Env) : Tx State Error Unit := do
  asAdmin h env
  let cfg ← Tx.read State.settings
  modifyTraffic fun t =>
    { t with lastHeartbeat :=
        if cfg.backupAdmin.isSome then some env.timestamp else t.lastHeartbeat }

def claimAdmin (h : Host) (env : Env) (claimant : Address) : Tx State Error Unit := do
  requireAuth h env claimant
  let cfg ← Tx.read State.settings
  let backup ← Tx.unwrap cfg.backupAdmin .noBackupAdmin
  Tx.reject (claimant ≠ backup) .unauthorized
  let timeout ← Tx.unwrap cfg.dmsTimeout .invalidDmsConfig
  let heartbeat ← Tx.read fun s => s.traffic.lastHeartbeat
  let lastHeartbeat ← Tx.unwrap heartbeat .invalidDmsConfig
  Tx.reject (env.timestamp < saturateU64 (lastHeartbeat + timeout)) .dmsNotReady
  modifyAccess fun a => a.storeAdmin claimant
  modifySettings fun c => { c with backupAdmin := none, dmsTimeout := none }
  modifyTraffic fun t => { t with lastHeartbeat := none }

def setHeartbeatOperator (h : Host) (env : Env) (operator : Address) : Tx State Error Unit := do
  asAdmin h env
  modifySettings fun c => { c with heartbeatOperator := some operator }

def removeHeartbeatOperator (h : Host) (env : Env) : Tx State Error Unit := do
  asAdmin h env
  modifySettings fun c => { c with heartbeatOperator := none }

def renewHeartbeat (h : Host) (env : Env) (operator : Address) : Tx State Error Unit := do
  let stored ← Tx.read fun s => s.settings.heartbeatOperator
  let storedOperator ← Tx.unwrap stored .unauthorized
  Tx.reject (operator ≠ storedOperator) .unauthorized
  requireAuth h env operator
  let heartbeat ← Tx.read fun s => s.traffic.lastHeartbeat
  Tx.reject (heartbeat.isNone) .invalidDmsConfig
  modifyTraffic fun t => { t with lastHeartbeat := some env.timestamp }

end StellarTags.Router

/-! Treasury operations, record migration and pruning. -/

namespace StellarTags.Router

open Library.Transactions Library.Integers Library.Tokens Soroban

def routing {α : Type} (m : Settings → Routing α) : Tx State Error α := fun s =>
  Tx.zoom State.traffic (fun t s => { s with traffic := t }) (m s.settings) s

lemma routing_ok {α : Type} {m : Settings → Routing α} {s t : State} {a : α} :
    routing m s = .ok (a, t) ↔
      ∃ u, m s.settings s.traffic = .ok (a, u) ∧ t = { s with traffic := u } :=
  Tx.zoom_ok

def recoverTokens (h : Host) (env : Env) (tokenAddress : Address) (amount : ℤ) :
    Tx State Error Unit := do
  requireCircuitClosed
  let treasuryMgr ← requireRole h env .treasuryManager
  routing fun _ => token h env (.transfer tokenAddress h.self treasuryMgr amount)

def emergencyWithdraw (h : Host) (env : Env) (tokenAddress : Address) (amount : ℤ) :
    Tx State Error Unit := do
  let treasuryMgr ← requireRole h env .treasuryManager
  routing fun _ => withGuard do
    Tx.reject (amount ≤ 0) .limitExceeded
    let balance ← balanceOf tokenAddress h.self
    Tx.reject (balance < amount) .insufficientBalance
    token h env (.transfer tokenAddress h.self treasuryMgr amount)

def Settings.yieldPosition (cfg : Settings) (tokenAddress : Address) : ℤ :=
  (cfg.yieldPrincipal tokenAddress).getD 0

def setYieldPrincipal (tokenAddress : Address) (principal : Option ℤ) : Tx State Error Unit :=
  modifySettings fun c =>
    { c with yieldPrincipal := Function.update c.yieldPrincipal tokenAddress principal }

def loadTreasury : Tx State Error Address := do
  let treasury ← Tx.read fun s => s.settings.platformTreasury
  Tx.unwrap treasury .notInitialized

def callYieldProtocol (h : Host) (env : Env) : Tx State Error Reply := do
  let protocol ← Tx.read fun s => s.settings.yieldProtocol
  let protocol ← Tx.unwrap protocol .yieldProtocolNotConfigured
  routing fun _ => invokeContract h env protocol

def depositToYield (h : Host) (env : Env) (tokenAddress : Address) (amount : ℤ) :
    Tx State Error Unit := do
  requireCircuitClosed
  Tx.reject (amount ≤ 0) .invalidYieldAmount
  let _ ← requireRole h env .treasuryManager
  let treasury ← loadTreasury
  requireAuth h env treasury
  let _ ← callYieldProtocol h env
  let principal ← Tx.read fun s => s.settings.yieldPosition tokenAddress
  let principal ← checkedI128 (principal + amount)
  setYieldPrincipal tokenAddress (some principal)

def withdrawFromYield (h : Host) (env : Env) (tokenAddress : Address) (amount : ℤ) :
    Tx State Error Unit := do
  requireCircuitClosed
  let principal ← Tx.read fun s => s.settings.yieldPosition tokenAddress
  Tx.reject (amount ≤ 0 ∨ principal < amount) .invalidYieldAmount
  let _ ← requireRole h env .treasuryManager
  let _ ← loadTreasury
  let _ ← callYieldProtocol h env
  let remaining := principal - amount
  setYieldPrincipal tokenAddress (if remaining = 0 then none else some remaining)

def harvestYield (h : Host) (env : Env) : Tx State Error ℤ := do
  requireCircuitClosed
  let _ ← requireRole h env .treasuryManager
  let _ ← loadTreasury
  let reply ← callYieldProtocol h env
  pure reply.output.2

def migrateUserRecord (env : Env) (user : Address) : Routing Bool := do
  let loaded ← Tx.read fun t => t.loadLegacyRecord user env.timestamp
  if loaded.2 = false then pure false
  else do
    let packed ← Tx.read fun t => (t.userRecord user).isSome
    Tx.whenever (packed = false) (Tx.update fun t => t.setUserRecord user loaded.1)
    Tx.update fun t => t.dropLegacyRecord user
    pure true

def Traffic.holdsArchived (t : Traffic) (leaf : ArchiveLeaf) : Bool :=
  match leaf.recordType with
  | .userVolume => (t.userVolume leaf.primaryKey).isSome
  | .userSpending => (t.userSpending leaf.primaryKey).isSome
  | .refundBalance => (t.refundBalance leaf.primaryKey leaf.secondaryKey).isSome

def Traffic.prune (t : Traffic) (leaf : ArchiveLeaf) : Traffic :=
  match leaf.recordType with
  | .userVolume => { t with userVolume := Function.update t.userVolume leaf.primaryKey none }
  | .userSpending => { t with userSpending := Function.update t.userSpending leaf.primaryKey none }
  | .refundBalance => (t.setRefundBalance leaf.primaryKey leaf.secondaryKey none).publish
      (.pruned leaf.primaryKey leaf.secondaryKey (t.refund leaf.primaryKey leaf.secondaryKey))

def pruneArchivedEntries (h : Host) (env : Env) (committedEpoch : ℕ) (leaves : List ArchiveLeaf) :
    Tx State Error ℕ := do
  requireNotFrozen
  let _ ← requireRole h env .treasuryManager
  let root ← Tx.read fun s => s.settings.archiveRoot committedEpoch
  Tx.reject (root.isNone) .timelockNotFound
  routing fun _ => Tx.fold (fun removed leaf => do
    let held ← Tx.read fun t => t.holdsArchived leaf
    Tx.update fun t => t.prune leaf
    pure (if held then removed + 1 else removed)) 0 leaves

end StellarTags.Router
