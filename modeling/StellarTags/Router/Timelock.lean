import StellarTags.Router.Administration
import StellarTags.Router.Multisig

/-! The timelock: actions queued by the admin, applied one by one or in a batch. -/

namespace StellarTags.Router

open Library.Transactions Library.Integers Soroban

def Settings.setPairSlippage (c : Settings) (tokenIn tokenOut : Address) (bps : ℤ) : Settings :=
  let slippage := Function.update (c.pairSlippage tokenIn) tokenOut (some bps)
  { c with pairSlippage := Function.update c.pairSlippage tokenIn slippage }

/-- `timelock::apply_action`; `execute_action` spells the same match out once more. -/
def applyAction (h : Host) (env : Env) : ActionType → Tx State Error Unit
  | .setPlatformTreasury newTreasury =>
    modifySettings fun c => { c with platformTreasury := some newTreasury }
  | .setFeeConfig feeBps feeCap =>
    modifySettings fun c => { c with feeBps := some feeBps, feeCap := some feeCap }
  | .setFeeBps newFeeBps => modifySettings fun c => { c with feeBps := some newFeeBps }
  | .setGovernance gov => modifySettings fun c => { c with governance := some gov }
  | .setMinLimit minLimit => modifySettings fun c => { c with minLimit := some minLimit }
  | .transferAdmin newAdmin => modifyAccess fun a => a.installAdmin newAdmin
  | .setBackupAdmin backup timeoutSeconds => applySetBackupAdmin env backup timeoutSeconds
  | .upgrade newWasmHash => applyUpgrade env newWasmHash
  | .setMultisigConfig signers threshold => storeMultisigConfig h signers threshold
  | .registerDex dex =>
    modifySettings fun c => { c with registeredDex := Function.update c.registeredDex dex true }
  | .deregisterDex dex =>
    modifySettings fun c => { c with registeredDex := Function.update c.registeredDex dex false }
  | .setMaxSlippageBps maxSlippageBps =>
    modifySettings fun c => { c with maxSlippageBps := some maxSlippageBps }
  | .setPairMaxSlippageBps tokenIn tokenOut bps =>
    modifySettings fun c => c.setPairSlippage tokenIn tokenOut bps

def nextNonce : Tx State Error ℕ := do
  let current ← Tx.read fun s => s.timelock.nonce.getD 0
  let next ← addU64 current 1
  modifyTimelock fun t => { t with nonce := some next }
  pure next

def requireTimelockOpen (h : Host) (env : Env) : Tx State Error Unit := do
  requireNotFrozen
  requireCircuitClosed
  asAdmin h env

def queueAction (h : Host) (env : Env) (action : ActionType) : Tx State Error ℕ := do
  requireTimelockOpen h env
  let nonce ← nextNonce
  modifyTimelock fun t =>
    { t with entry := Function.update t.entry nonce (some ⟨env.timestamp, action⟩) }
  pure nonce

def readyEntry (env : Env) (nonce : ℕ) : Tx State Error TimelockEntry := do
  let entry ← Tx.read fun s => s.timelock.entry nonce
  let entry ← Tx.unwrap entry .timelockNotFound
  let ready ← addU64 entry.queuedAt secondsIn24h
  Tx.reject (env.timestamp < ready) .timelockNotReady
  validateQueuedAction entry.action
  pure entry

def consumeEntry (h : Host) (env : Env) (nonce : ℕ) (entry : TimelockEntry) :
    Tx State Error Unit := do
  modifyTimelock fun t => { t with entry := Function.update t.entry nonce none }
  applyAction h env entry.action

def executeAction (h : Host) (env : Env) (nonce : ℕ) : Tx State Error Unit := do
  requireTimelockOpen h env
  let entry ← readyEntry env nonce
  consumeEntry h env nonce entry

def readyEntries (env : Env) (nonces : List ℕ) : Tx State Error (List TimelockEntry) :=
  Tx.fold (fun entries nonce => do
    let entry ← readyEntry env nonce
    pure (entries ++ [entry])) [] nonces

def executeBatchActions (h : Host) (env : Env) (nonces : List ℕ) : Tx State Error Unit := do
  requireTimelockOpen h env
  if nonces = [] then pure ()
  else do
    Tx.reject (¬ nonces.Nodup) .timelockNotFound
    let entries ← readyEntries env nonces
    Tx.forEach (fun (item : ℕ × TimelockEntry) => consumeEntry h env item.1 item.2)
      (nonces.zip entries)

def cancelAction (h : Host) (env : Env) (nonce : ℕ) : Tx State Error Unit := do
  asAdmin h env
  let entry ← Tx.read fun s => s.timelock.entry nonce
  Tx.reject (entry.isNone) .timelockNotFound
  modifyTimelock fun t => { t with entry := Function.update t.entry nonce none }

def Access.apply (a : Access) : ActionType → Access
  | .transferAdmin newAdmin => a.installAdmin newAdmin
  | _ => a

def Settings.apply (c : Settings) : ActionType → Settings
  | .setPlatformTreasury newTreasury => { c with platformTreasury := some newTreasury }
  | .setFeeConfig feeBps feeCap => { c with feeBps := some feeBps, feeCap := some feeCap }
  | .setFeeBps newFeeBps => { c with feeBps := some newFeeBps }
  | .setGovernance gov => { c with governance := some gov }
  | .setMinLimit minLimit => { c with minLimit := some minLimit }
  | .setBackupAdmin backup timeoutSeconds =>
    { c with backupAdmin := some backup, dmsTimeout := some timeoutSeconds }
  | .registerDex dex => { c with registeredDex := Function.update c.registeredDex dex true }
  | .deregisterDex dex => { c with registeredDex := Function.update c.registeredDex dex false }
  | .setMaxSlippageBps maxSlippageBps => { c with maxSlippageBps := some maxSlippageBps }
  | .setPairMaxSlippageBps tokenIn tokenOut bps => c.setPairSlippage tokenIn tokenOut bps
  | .transferAdmin _ | .upgrade _ | .setMultisigConfig _ _ => c

def Multisig.apply (m : Multisig) (h : Host) : ActionType → Multisig
  | .upgrade newWasmHash => m.install newWasmHash
  | .setMultisigConfig signers threshold => m.rotate h signers threshold
  | _ => m

/-- What an applied action changed, and what it found. -/
structure Applied (h : Host) (action : ActionType) (s t : State) : Prop where
  access : t.access = s.access.apply action
  multisig : t.multisig = s.multisig.apply h action
  timelock : t.timelock = s.timelock
  settings : t.settings = s.settings.apply action
  frozen : t.settings.isFrozenInternal = s.settings.isFrozenInternal
  paused : t.settings.isPausedInternal = s.settings.isPausedInternal
  ready : s.settings.Ready → t.settings.Ready
  backupAdmin : t.settings.backupAdmin = s.settings.backupAdmin ∨ s.access.admin.isSome
  traffic : t.traffic = { s.traffic with lastHeartbeat := t.traffic.lastHeartbeat }
  config : ∀ signers threshold, action = .setMultisigConfig signers threshold →
    ValidConfig signers threshold ∧ s.multisig.AdmitsConfig h signers threshold

def State.TimelockOpen (s : State) (h : Host) (env : Env) : Prop :=
  s.settings.isFrozenInternal = false ∧ s.settings.isPausedInternal = false ∧
    ∃ admin, s.access.admin = some admin ∧ env.authorises h admin = true

def Timelock.Ripe (l : Timelock) (env : Env) (nonce : ℕ) (entry : TimelockEntry) : Prop :=
  l.entry nonce = some entry ∧ entry.queuedAt + secondsIn24h ≤ maxU64 ∧
    entry.queuedAt + secondsIn24h ≤ env.timestamp

def State.dropEntry (s : State) (nonce : ℕ) : State :=
  { s with timelock := { s.timelock with entry := Function.update s.timelock.entry nonce none } }

section Specs

variable {h : Host} {env : Env} {s t : State} {u : Unit}

lemma modifySettings_applied {action : ActionType} {write : Settings → Settings}
    (ha : ∀ a : Access, a.apply action = a) (hm : ∀ m : Multisig, m.apply h action = m)
    (hw : write s.settings = s.settings.apply action)
    (hf : (write s.settings).isFrozenInternal = s.settings.isFrozenInternal)
    (hp : (write s.settings).isPausedInternal = s.settings.isPausedInternal)
    (hk : s.settings.Keeps (write s.settings))
    (hc : ∀ signers threshold, action ≠ .setMultisigConfig signers threshold)
    (hr : modifySettings write s = .ok (u, t)) : Applied h action s t := by
  obtain rfl := modifySettings_ok.mp hr
  exact ⟨(ha _).symm, (hm _).symm, rfl, hw, hf, hp, hk.ready, Or.inl hk.backupAdmin, rfl,
    fun signers threshold he => absurd he (hc signers threshold)⟩

lemma applyAction_applied {action : ActionType} (hr : applyAction h env action s = .ok (u, t)) :
    Applied h action s t := by
  cases action with
  | transferAdmin newAdmin =>
    simp only [applyAction, modifyAccess_ok] at hr
    subst hr
    exact ⟨rfl, rfl, rfl, rfl, rfl, rfl, id, Or.inl rfl, rfl, by simp⟩
  | setBackupAdmin backup timeoutSeconds =>
    simp only [applyAction, applySetBackupAdmin, Tx.reject_bind_ok, requireAdmin_bind_ok,
      modifySettings_bind, modifyTraffic_ok] at hr
    obtain ⟨-, a, ha, -, rfl⟩ := hr
    exact ⟨rfl, rfl, rfl, rfl, rfl, rfl, fun r => ⟨r.1, r.2, r.3, r.4⟩, Or.inr (by simp [ha]), rfl,
      by simp⟩
  | upgrade newWasmHash =>
    simp only [applyAction, applyUpgrade_ok] at hr
    obtain ⟨-, rfl⟩ := hr
    exact ⟨rfl, rfl, rfl, rfl, rfl, rfl, id, Or.inl rfl, rfl, by simp⟩
  | setMultisigConfig signers threshold =>
    simp only [applyAction, storeMultisigConfig_ok] at hr
    obtain ⟨hv, ha, rfl⟩ := hr
    refine ⟨rfl, rfl, rfl, rfl, rfl, rfl, id, Or.inl rfl, rfl, ?_⟩
    rintro _ _ ⟨⟩
    exact ⟨hv, ha⟩
  | _ =>
    simp only [applyAction] at hr
    refine modifySettings_applied (fun _ => rfl) (fun _ => rfl) rfl ?_ ?_ ?_ (by simp) hr
    · rfl
    · rfl
    · refine ⟨rfl, fun r => ?_⟩
      constructor <;> first | rfl | exact r.1 | exact r.2 | exact r.3 | exact r.4

lemma requireTimelockOpen_ok : requireTimelockOpen h env s = .ok (u, t) ↔
    s.TimelockOpen h env ∧ t = s := by
  simp [requireTimelockOpen, State.TimelockOpen]
  grind

lemma readyEntry_ok {nonce : ℕ} {entry : TimelockEntry} :
    readyEntry env nonce s = .ok (entry, t) ↔
      s.timelock.Ripe env nonce entry ∧ s.multisig.Admits entry.action ∧ t = s := by
  simp [readyEntry, validateQueuedAction_ok, Timelock.Ripe]
  grind

lemma consumeEntry_ok {nonce : ℕ} {entry : TimelockEntry} :
    consumeEntry h env nonce entry s = .ok (u, t) ↔
      applyAction h env entry.action (s.dropEntry nonce) = .ok (u, t) := by
  simp [consumeEntry, State.dropEntry]

lemma executeAction_ok {nonce : ℕ} : executeAction h env nonce s = .ok (u, t) ↔
    s.TimelockOpen h env ∧ ∃ entry, s.timelock.Ripe env nonce entry ∧
      s.multisig.Admits entry.action ∧
      applyAction h env entry.action (s.dropEntry nonce) = .ok (u, t) := by
  simp [executeAction, requireTimelockOpen_ok, readyEntry_ok, consumeEntry_ok]
  grind

lemma readyEntries_ok {nonces : List ℕ} {entries : List TimelockEntry} :
    readyEntries env nonces s = .ok (entries, t) ↔
      List.Forall₂ (fun nonce entry => s.timelock.Ripe env nonce entry ∧
        s.multisig.Admits entry.action) nonces entries ∧ t = s := by
  have hfold : ∀ (nonces : List ℕ) (read entries : List TimelockEntry) (s t : State),
      Tx.fold (fun entries nonce => do
        let entry ← readyEntry env nonce
        pure (entries ++ [entry])) read nonces s = .ok (entries, t) ↔
      ∃ rest, entries = read ++ rest ∧ List.Forall₂ (fun nonce entry =>
        s.timelock.Ripe env nonce entry ∧ s.multisig.Admits entry.action) nonces rest ∧ t = s := by
    intro nonces
    induction nonces with
    | nil =>
      intro read entries s t
      simp
    | cons nonce nonces ih =>
      intro read entries s t
      simp only [Tx.fold_cons, Tx.bind_ok, readyEntry_ok, Tx.pure_ok, ih]
      constructor
      · rintro ⟨_, _, ⟨entry, _, ⟨hr, ha, rfl⟩, rfl, rfl⟩, rest, rfl, hrest, rfl⟩
        exact ⟨entry :: rest, by simp, .cons ⟨hr, ha⟩ hrest, rfl⟩
      · rintro ⟨rest, rfl, hrest, rfl⟩
        cases hrest with
        | @cons _ entry _ rest hhead htail =>
          exact ⟨_, _, ⟨entry, t, ⟨hhead.1, hhead.2, rfl⟩, rfl, rfl⟩, rest, by simp, htail, rfl⟩
  rw [readyEntries, hfold]
  simp

lemma executeBatchActions_ok {nonces : List ℕ} :
    executeBatchActions h env nonces s = .ok (u, t) ↔
      s.TimelockOpen h env ∧ nonces.Nodup ∧ ∃ entries, List.Forall₂ (fun nonce entry =>
        s.timelock.Ripe env nonce entry ∧ s.multisig.Admits entry.action) nonces entries ∧
        Tx.forEach (fun item : ℕ × TimelockEntry => consumeEntry h env item.1 item.2)
          (nonces.zip entries) s = .ok ((), t) := by
  by_cases hn : nonces = []
  · subst hn
    simp [executeBatchActions, requireTimelockOpen_ok]
  · simp [executeBatchActions, requireTimelockOpen_ok, readyEntries_ok, hn]

end Specs

end StellarTags.Router
