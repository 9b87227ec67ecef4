import StellarTags.Router.Administration

/-! The multi-signature group: its configuration, its approvals and contract upgrades. -/

namespace StellarTags.Router

open Library.Transactions Soroban

def compareBytes : Bytes → Bytes → Ordering
  | [], [] => .eq
  | [], _ :: _ => .lt
  | _ :: _, [] => .gt
  | a :: as, b :: bs =>
    match compare a b with
    | .eq => compareBytes as bs
    | ordering => ordering

def insertSigner (h : Host) (signer : Address) : List Address → List Address
  | [] => [signer]
  | existing :: rest =>
    if compareBytes (h.xdr (.address signer)) (h.xdr (.address existing)) = .lt then
      signer :: existing :: rest
    else existing :: insertSigner h signer rest

def sortedMultisigSigners (h : Host) (signers : List Address) : List Address :=
  signers.foldl (fun sorted signer => insertSigner h signer sorted) []

def configVal (signers : List Address) (threshold : ℕ) : Val :=
  .vec [.vec (signers.map .address), .u32 threshold]

def multisigConfigHash (h : Host) (signers : List Address) (threshold : ℕ) : Hash :=
  h.sha256 (h.xdr (configVal signers threshold))

def minThreshold (signers : List Address) : ℕ := if 2 ≤ signers.length then 2 else 1

def validateMultisigConfig (signers : List Address) (threshold : ℕ) : Tx State Error ℕ := do
  Tx.reject (signers = [] ∨ threshold < minThreshold signers ∨ signers.length < threshold)
    .invalidThreshold
  Tx.reject (¬ signers.Nodup) .duplicateSigner
  pure threshold

def loadMultisigConfig : Tx State Error (List Address × ℕ) := do
  let group ← Tx.read State.multisig
  let threshold ← Tx.unwrap group.threshold .multisigNotInitialized
  let signers ← Tx.unwrap group.signers .multisigNotInitialized
  pure (signers, threshold)

def approveMultisigConfig (h : Host) (env : Env) (signers : List Address) (threshold : ℕ)
    (signer : Address) : Tx State Error ℕ := do
  let _ ← validateMultisigConfig signers threshold
  let current ← loadMultisigConfig
  Tx.reject (signer ∉ current.1) .notMultisigSigner
  requireAuth h env signer
  let sorted := sortedMultisigSigners h signers
  let key := multisigConfigHash h sorted threshold
  let approvals ← Tx.read fun s => (s.multisig.configApproval key).getD []
  Tx.reject (signer ∈ approvals) .alreadyApproved
  modifyMultisig fun m =>
    { m with
      configApproval := Function.update m.configApproval key (some (approvals ++ [signer]))
      history := .configApproved signer signers threshold :: m.history }
  pure (approvals.length + 1)

def Multisig.loadUpgradeApprovals (m : Multisig) (newWasmHash : Hash) : List Address :=
  (m.upgradeApproval newWasmHash).getD []

def Multisig.loadEffectiveApprovals (m : Multisig) (signers : List Address) (newWasmHash : Hash) :
    List Address :=
  (m.loadUpgradeApprovals newWasmHash).filter (· ∈ signers)

def requireUpgradeAuthorized (newWasmHash : Hash) : Tx State Error ℕ := do
  let current ← loadMultisigConfig
  let approvals ← Tx.read fun s => s.multisig.loadEffectiveApprovals current.1 newWasmHash
  Tx.reject (approvals.length < current.2) .insufficientApprovals
  pure approvals.length

def applyUpgrade (env : Env) (newWasmHash : Hash) : Tx State Error Unit := do
  -- The host refuses to install code that was never uploaded.
  Tx.demand (env.uploaded newWasmHash)
  modifyMultisig fun m =>
    { m with
      upgradeApproval := Function.update m.upgradeApproval newWasmHash none
      history := .installed newWasmHash :: m.history }

def storeMultisigConfig (h : Host) (signers : List Address) (threshold : ℕ) :
    Tx State Error Unit := do
  let _ ← validateMultisigConfig signers threshold
  let sorted := sortedMultisigSigners h signers
  -- Signers and threshold are only ever written together, so one key stands for both.
  let configured ← Tx.read fun s => s.multisig.signers.isSome
  Tx.whenever (configured = true) do
    let current ← loadMultisigConfig
    let key := multisigConfigHash h sorted threshold
    let stored ← Tx.read fun s => (s.multisig.configApproval key).getD []
    Tx.reject ((stored.filter (· ∈ current.1)).length < current.2) .insufficientApprovals
    modifyMultisig fun m =>
      { m with configApproval := Function.update m.configApproval key none }
  modifyMultisig fun m =>
    { m with
      signers := some sorted
      threshold := some threshold
      history := .configured sorted threshold :: m.history }

def validateQueuedAction : ActionType → Tx State Error Unit
  | .upgrade newWasmHash => do
    let _ ← requireUpgradeAuthorized newWasmHash
  | .setMultisigConfig signers threshold => do
    let _ ← validateMultisigConfig signers threshold
  | .setPairMaxSlippageBps _ _ bps =>
    Tx.reject (¬ (0 ≤ bps ∧ bps ≤ maxPairSlippageBps)) .invalidSlippageConfig
  | _ => pure ()

def setMultisigConfig (h : Host) (env : Env) (signers : List Address) (threshold : ℕ) :
    Tx State Error Unit := do
  asAdmin h env
  let validated ← validateMultisigConfig signers threshold
  storeMultisigConfig h signers validated

def approveUpgrade (h : Host) (env : Env) (signer : Address) (newWasmHash : Hash) :
    Tx State Error Unit := do
  let current ← loadMultisigConfig
  Tx.reject (signer ∉ current.1) .notMultisigSigner
  requireAuth h env signer
  let approvals ← Tx.read fun s => (s.multisig.upgradeApproval newWasmHash).getD []
  Tx.reject (signer ∈ approvals) .alreadyApproved
  modifyMultisig fun m =>
    { m with
      upgradeApproval :=
        Function.update m.upgradeApproval newWasmHash (some (approvals ++ [signer]))
      history := .upgradeApproved signer newWasmHash :: m.history }

def revokeUpgradeApproval (h : Host) (env : Env) (signer : Address) (newWasmHash : Hash) :
    Tx State Error Unit := do
  let current ← loadMultisigConfig
  Tx.reject (signer ∉ current.1) .notMultisigSigner
  requireAuth h env signer
  let approvals ← Tx.read fun s => (s.multisig.upgradeApproval newWasmHash).getD []
  Tx.whenever (signer ∈ approvals) do
    let left := approvals.erase signer
    modifyMultisig fun m =>
      { m with
        upgradeApproval := Function.update m.upgradeApproval newWasmHash
          (if left = [] then none else some left)
        history := .upgradeRevoked signer newWasmHash :: m.history }

def cancelUpgrade (h : Host) (env : Env) (newWasmHash : Hash) : Tx State Error Unit := do
  asAdmin h env
  modifyMultisig fun m =>
    { m with
      upgradeApproval := Function.update m.upgradeApproval newWasmHash none
      history := .upgradeCancelled newWasmHash :: m.history }

def upgrade (env : Env) (newWasmHash : Hash) : Tx State Error Unit := do
  let _ ← requireUpgradeAuthorized newWasmHash
  applyUpgrade env newWasmHash

structure ValidConfig (signers : List Address) (threshold : ℕ) : Prop where
  nonempty : signers ≠ []
  lower : minThreshold signers ≤ threshold
  upper : threshold ≤ signers.length
  nodup : signers.Nodup

def Multisig.Quorate (m : Multisig) (newWasmHash : Hash) : Prop :=
  ∃ signers threshold, m.signers = some signers ∧ m.threshold = some threshold ∧
    threshold ≤ (m.loadEffectiveApprovals signers newWasmHash).length

def Multisig.AdmitsConfig (m : Multisig) (h : Host) (signers : List Address) (threshold : ℕ) :
    Prop :=
  m.signers = none ∨ ∃ current quota, m.signers = some current ∧ m.threshold = some quota ∧
    quota ≤ (((m.configApproval
      (multisigConfigHash h (sortedMultisigSigners h signers) threshold)).getD []).filter
        (· ∈ current)).length

def Multisig.install (m : Multisig) (newWasmHash : Hash) : Multisig :=
  { m with
    upgradeApproval := Function.update m.upgradeApproval newWasmHash none
    history := .installed newWasmHash :: m.history }

def Multisig.rotate (m : Multisig) (h : Host) (signers : List Address) (threshold : ℕ) :
    Multisig :=
  let sorted := sortedMultisigSigners h signers
  { m with
    signers := some sorted
    threshold := some threshold
    configApproval :=
      if m.signers.isSome then
        Function.update m.configApproval (multisigConfigHash h sorted threshold) none
      else m.configApproval
    history := .configured sorted threshold :: m.history }

section Specs

variable {h : Host} {env : Env} {s t : State} {signers : List Address} {threshold n : ℕ}
  {newWasmHash : Hash} {u : Unit}

@[simp] lemma validateMultisigConfig_ok :
    validateMultisigConfig signers threshold s = .ok (n, t) ↔
      ValidConfig signers threshold ∧ n = threshold ∧ t = s := by
  simp only [validateMultisigConfig, Tx.reject_bind_ok, Tx.pure_ok, not_or, not_lt, not_not]
  constructor
  · rintro ⟨⟨hn, hl, hu⟩, hd, rfl, rfl⟩
    exact ⟨⟨hn, hl, hu, hd⟩, rfl, rfl⟩
  · rintro ⟨⟨hn, hl, hu, hd⟩, rfl, rfl⟩
    exact ⟨⟨hn, hl, hu⟩, hd, rfl, rfl⟩

@[simp] lemma loadMultisigConfig_ok {c : List Address × ℕ} :
    loadMultisigConfig s = .ok (c, t) ↔
      s.multisig.signers = some c.1 ∧ s.multisig.threshold = some c.2 ∧ t = s := by
  obtain ⟨signers, threshold⟩ := c
  simp only [loadMultisigConfig, Tx.read_bind, Tx.unwrap_bind_ok, Tx.pure_ok, Prod.mk.injEq]
  grind

lemma requireUpgradeAuthorized_ok :
    (∃ n, requireUpgradeAuthorized newWasmHash s = .ok (n, t)) ↔
      s.multisig.Quorate newWasmHash ∧ t = s := by
  simp only [requireUpgradeAuthorized, Tx.bind_ok, loadMultisigConfig_ok, Tx.read_ok,
    Tx.reject_ok, Tx.pure_ok, not_lt]
  constructor
  · rintro ⟨n, c, v, ⟨hs, ht, rfl⟩, _, _, ⟨rfl, rfl⟩, _, _, ⟨hq, rfl⟩, rfl, rfl⟩
    exact ⟨⟨c.1, c.2, hs, ht, hq⟩, rfl⟩
  · rintro ⟨⟨signers, threshold, hs, ht, hq⟩, rfl⟩
    exact ⟨_, (signers, threshold), t, ⟨hs, ht, rfl⟩, _, _, ⟨rfl, rfl⟩, (), t, ⟨hq, rfl⟩, rfl, rfl⟩

@[simp] lemma applyUpgrade_ok :
    applyUpgrade env newWasmHash s = .ok (u, t) ↔
      env.uploaded newWasmHash = true ∧
        t = { s with multisig := s.multisig.install newWasmHash } := by
  simp [applyUpgrade, modifyMultisig, Multisig.install]

@[simp] lemma storeMultisigConfig_ok :
    storeMultisigConfig h signers threshold s = .ok (u, t) ↔
      ValidConfig signers threshold ∧ s.multisig.AdmitsConfig h signers threshold ∧
        t = { s with multisig := s.multisig.rotate h signers threshold } := by
  cases hs : s.multisig.signers with
  | none => simp [storeMultisigConfig, modifyMultisig, Tx.whenever, Multisig.AdmitsConfig,
      Multisig.rotate, hs]
  | some current =>
    cases ht : s.multisig.threshold with
    | none => simp [storeMultisigConfig, Tx.whenever, Multisig.AdmitsConfig, hs, ht]
    | some quota =>
      simp [storeMultisigConfig, modifyMultisig, Tx.whenever, Multisig.AdmitsConfig,
        Multisig.rotate, hs, ht]

def Multisig.Admits (m : Multisig) : ActionType → Prop
  | .upgrade newWasmHash => m.Quorate newWasmHash
  | .setMultisigConfig signers threshold => ValidConfig signers threshold
  | .setPairMaxSlippageBps _ _ bps => 0 ≤ bps ∧ bps ≤ maxPairSlippageBps
  | _ => True

lemma validateQueuedAction_ok {action : ActionType} :
    validateQueuedAction action s = .ok (u, t) ↔ s.multisig.Admits action ∧ t = s := by
  cases action with
  | upgrade newWasmHash =>
    simp only [validateQueuedAction, Tx.bind_ok, Tx.pure_ok, Multisig.Admits]
    rw [← requireUpgradeAuthorized_ok]
    simp
  | setMultisigConfig signers threshold =>
    simp [validateQueuedAction, Multisig.Admits]
  | setPairMaxSlippageBps tokenIn tokenOut bps =>
    simp only [validateQueuedAction, Tx.reject_ok, not_not, Multisig.Admits]
  | _ => simp [validateQueuedAction, Multisig.Admits]

end Specs

end StellarTags.Router
