import StellarTags.Router.Frames

/-! The part of the state that decides which timelocked actions may run. -/

namespace StellarTags.Router

open Library.Transactions Library.Runs Soroban

/-- Who is asked for an authorisation, and who has approved what. -/
structure Gate where
  admin : Option Address
  signers : Option (List Address)
  threshold : Option ℕ
  approvals : Hash → List Address

def State.gate (s : State) : Gate :=
  ⟨s.access.admin, s.multisig.signers, s.multisig.threshold, s.multisig.loadUpgradeApprovals⟩

namespace Gate

/-- How an action moves the gate: every other action leaves it where it is. -/
def apply (h : Host) (action : ActionType) (g : Gate) : Gate :=
  match action with
  | .transferAdmin newAdmin => { g with admin := some newAdmin }
  | .upgrade newWasmHash => { g with approvals := Function.update g.approvals newWasmHash [] }
  | .setMultisigConfig signers threshold =>
    { g with signers := some (sortedMultisigSigners h signers), threshold := some threshold }
  | _ => g

def Quorate (g : Gate) (newWasmHash : Hash) : Prop :=
  ∃ signers threshold, g.signers = some signers ∧ g.threshold = some threshold ∧
    threshold ≤ ((g.approvals newWasmHash).filter (· ∈ signers)).length

/-- An upgrade meets its quorum; any other action asks for none. -/
def MeetsQuorum (g : Gate) (action : ActionType) : Prop :=
  ∀ newWasmHash, action = .upgrade newWasmHash → g.Quorate newWasmHash

/-- The admin in force authorises the action and its quorum, if any, is met. -/
def Opens (h : Host) (env : Env) (g : Gate) (action : ActionType) : Prop :=
  (∃ admin, g.admin = some admin ∧ env.authorises h admin = true) ∧ g.MeetsQuorum action

end Gate

def State.queued (s : State) (nonces : List ℕ) : List ActionType :=
  nonces.filterMap fun nonce => (s.timelock.entry nonce).map TimelockEntry.action

variable {h : Host} {env : Env} {s t : State} {action : ActionType}

lemma gate_quorate {newWasmHash : Hash} :
    s.gate.Quorate newWasmHash ↔ s.multisig.Quorate newWasmHash := Iff.rfl

lemma Applied.gate (ha : Applied h action s t) : t.gate = s.gate.apply h action := by
  unfold State.gate
  rw [ha.access, ha.multisig]
  cases action with
  | transferAdmin newAdmin =>
    simp [Access.apply, Access.installAdmin, Access.storeAdmin, Multisig.apply, Gate.apply]
  | upgrade newWasmHash =>
    simp only [Access.apply, Multisig.apply, Multisig.install, Gate.apply, Gate.mk.injEq, true_and]
    funext w
    by_cases hw : w = newWasmHash
    · subst hw
      simp [Multisig.loadUpgradeApprovals]
    · simp [Multisig.loadUpgradeApprovals, hw]
  | _ => rfl

/-- Beyond its quorum, what `validateQueuedAction` asks of an action is the same in every state. -/
lemma Multisig.Admits.transport {m : Multisig} (hm : m.Admits action) :
    s.multisig.Admits action ↔ s.gate.MeetsQuorum action := by
  cases action with
  | upgrade newWasmHash =>
    constructor
    · rintro hs _ ⟨⟩
      exact gate_quorate.mpr hs
    · exact fun hs => gate_quorate.mp (hs newWasmHash rfl)
  | _ => exact ⟨fun _ _ he => (nomatch he), fun _ => hm⟩

@[simp] lemma gate_dropEntry (s : State) (nonce : ℕ) : (s.dropEntry nonce).gate = s.gate := rfl

lemma queued_of_ripe {nonces : List ℕ} {entries : List TimelockEntry} {P : TimelockEntry → Prop}
    (he : List.Forall₂ (fun nonce entry => s.timelock.Ripe env nonce entry ∧ P entry) nonces
      entries) : s.queued nonces = entries.map TimelockEntry.action := by
  induction he with
  | nil => rfl
  | cons hhead _ ih => simp [State.queued, hhead.1.1, ← ih]

def groupOf : List GroupEvent → Option (List Address × ℕ)
  | [] => none
  | .configured signers threshold :: _ => some (signers, threshold)
  | _ :: older => groupOf older

structure Multisig.Tracks (m : Multisig) : Prop where
  signers : m.signers = (groupOf m.history).map Prod.fst
  threshold : m.threshold = (groupOf m.history).map Prod.snd

lemma Multisig.Tracks.groupOf_eq {m : Multisig} (hm : m.Tracks) {signers : List Address}
    {threshold : ℕ} (hs : m.signers = some signers) (ht : m.threshold = some threshold) :
    groupOf m.history = some (signers, threshold) := by
  rw [hm.signers, Option.map_eq_some_iff] at hs
  rw [hm.threshold, Option.map_eq_some_iff] at ht
  obtain ⟨g, hg, rfl⟩ := hs
  obtain ⟨g', hg', rfl⟩ := ht
  obtain rfl : g = g' := Option.some.inj (hg.symm.trans hg')
  exact hg

lemma Multisig.Tracks.record {m : Multisig} (hm : m.Tracks) (op : GroupOp) :
    (m.record h op).Tracks := by
  cases op with
  | setMultisigConfig signers threshold => exact ⟨rfl, rfl⟩
  | revokeUpgradeApproval signer newWasmHash =>
    by_cases hs : signer ∈ m.loadUpgradeApprovals newWasmHash
    · simp only [Multisig.record, hs, if_true]
      exact ⟨hm.1, hm.2⟩
    · simpa only [Multisig.record, hs, if_false] using hm
  | _ => exact ⟨hm.1, hm.2⟩

section Examples

def adminEnv : Env := signedBy [⟨1⟩]

/-- `⟨1⟩` is admin and only signer, and approves the hash `⟨7⟩` once. -/
def approvedOnce : List Call :=
  [⟨adminEnv, .administer (.initializeRouter ⟨1⟩ ⟨9⟩ 10 100 1000)⟩,
    ⟨adminEnv, .group (.setMultisigConfig [⟨1⟩] 1)⟩,
    ⟨adminEnv, .group (.approveUpgrade ⟨1⟩ ⟨7⟩)⟩]

def queuedUpgrades : List Call :=
  approvedOnce ++ [⟨adminEnv, .timelock (.queueAction (.upgrade ⟨7⟩))⟩,
    ⟨adminEnv, .timelock (.queueAction (.upgrade ⟨7⟩))⟩]

def dayLater : Env := { adminEnv with timestamp := 86400, uploaded := fun _ => true }

end Examples

end StellarTags.Router
