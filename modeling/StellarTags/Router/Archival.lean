import StellarTags.Router.Journal
import StellarTags.Router.Solvency

/-! Which entries a prune removes, and what it takes to prune. -/

namespace StellarTags.Router

open Library.Transactions Library.Integers Library.Runs Library.Tokens Soroban

/-- The leaf names the entry: only a refund has a second key. -/
def ArchiveLeaf.Names (leaf entry : ArchiveLeaf) : Prop :=
  leaf.recordType = entry.recordType ∧ leaf.primaryKey = entry.primaryKey ∧
    (entry.recordType = .refundBalance → leaf.secondaryKey = entry.secondaryKey)

def Traffic.Agrees (entry : ArchiveLeaf) (s t : Traffic) : Prop :=
  match entry.recordType with
  | .userVolume => t.userVolume entry.primaryKey = s.userVolume entry.primaryKey
  | .userSpending => t.userSpending entry.primaryKey = s.userSpending entry.primaryKey
  | .refundBalance => t.refundBalance entry.primaryKey entry.secondaryKey =
      s.refundBalance entry.primaryKey entry.secondaryKey

def commitments (h : Host) (s : State) (call : Call) : List (ℕ × List ArchiveLeaf) :=
  match call.op with
  | .configure (.commitArchiveRoot root leaves description) =>
    match commitArchiveRoot h call.env root leaves description s with
    | .ok (epoch, _) => [(epoch, leaves)]
    | .error _ => []
  | _ => []

def Committed (log : List (ℕ × List ArchiveLeaf)) (s : State) : Prop :=
  ∀ epoch, (s.settings.archiveRoot epoch).isSome → ∃ leaves, (epoch, leaves) ∈ log

variable {h : Host} {env : Env} {s t : State} {log : List (ℕ × List ArchiveLeaf)}

section Roots

lemma ConfigOp.invoke_archiveRoot {op : ConfigOp} {u : Unit}
    (hop : ∀ root leaves description, op ≠ .commitArchiveRoot root leaves description)
    (hr : op.invoke h env s = .ok (u, t)) :
    t.settings.archiveRoot = s.settings.archiveRoot := by
  cases op with
  | proposeFeeChange proposer feeBps feeCap votingPeriod =>
    simp [invoke, Router.proposeFeeChange, modifySettings] at hr
    obtain ⟨-, -, -, -, -, -, -, rfl⟩ := hr
    rfl
  | commitArchiveRoot root leaves description => exact absurd rfl (hop root leaves description)
  | _ =>
    have hwrites := configure_writes (by
      apply_rules [reads_then, reads_asAdmin, reads_asRole, reads_requireCircuitClosed,
        reads_requireFeeAuthority, reads_reject]) hr
    subst hwrites
    rfl

lemma commitArchiveRoot_ok {root : Hash} {leaves : List ArchiveLeaf} {description : String}
    {epoch : ℕ} (hr : commitArchiveRoot h env root leaves description s = .ok (epoch, t)) :
    t.settings.archiveRoot = Function.update s.settings.archiveRoot epoch (some root) := by
  simp [commitArchiveRoot, modifySettings] at hr
  obtain ⟨-, -, -, rfl, rfl⟩ := hr
  rfl

def SameRoots (s t : State) : Prop := t.settings.archiveRoot = s.settings.archiveRoot

lemma archiveRoot_apart : Settings.Apart Settings.archiveRoot where
  administer c op := by cases op <;> rfl
  apply c action := by cases action <;> rfl
  yields _ _ := rfl

lemma Committed.same (hs : Committed log s) (ht : SameRoots s t) : Committed log t := by
  intro epoch he
  rw [ht] at he
  exact hs epoch he

lemma step_committed (call : Call) (hs : Committed log s) :
    Committed (log ++ commitments h s call) (step h call s) := by
  have hmono : Committed (log ++ commitments h s call) s := by
    intro epoch he
    obtain ⟨leaves, hl⟩ := hs epoch he
    exact ⟨leaves, List.mem_append_left _ hl⟩
  obtain ⟨env, op⟩ := call
  rcases step_cases h ⟨env, op⟩ s with he | hr
  · rwa [he]
  cases op with
  | configure op =>
    by_cases hop : ∃ root leaves description, op = .commitArchiveRoot root leaves description
    · obtain ⟨root, leaves, description, rfl⟩ := hop
      obtain ⟨epoch, hr⟩ := Tx.void_ok.mp hr
      have hnew : commitments h s ⟨env, .configure (.commitArchiveRoot root leaves description)⟩ =
          [(epoch, leaves)] := by
        simp only [commitments, hr]
      intro past hp
      rw [commitArchiveRoot_ok hr] at hp
      by_cases he : past = epoch
      · subst he
        exact ⟨leaves, List.mem_append_right _ (by simp [hnew])⟩
      · rw [Function.update_of_ne he] at hp
        exact hmono past hp
    · exact hmono.same (ConfigOp.invoke_archiveRoot (fun _ _ _ he => hop ⟨_, _, _, he⟩) hr)
  | _ => exact hmono.same (Op.invoke_apart archiveRoot_apart (by simp) hr)

lemma committed_after (h : Host) (tokens : Ledger Address Address) (calls : List Call) :
    Committed (trace (step h) (commitments h) (State.fresh tokens) calls)
      (after h tokens calls) := by
  have hfresh : Committed [] (State.fresh tokens) := by
    intro epoch he
    cases he
  exact trace_invariant (I := Committed) (fun _ _ call hs => step_committed call hs) hfresh calls

end Roots

section Pruning

variable {leaf entry : ArchiveLeaf} {leaves : List ArchiveLeaf} {v w : Traffic} {n m : ℕ}

instance (entry : ArchiveLeaf) : IsPreorder Traffic (Traffic.Agrees entry) where
  refl t := by
    unfold Traffic.Agrees
    split <;> rfl
  trans r s t hrs hst := by
    unfold Traffic.Agrees at *
    split <;> simp_all

lemma Traffic.Agrees.holds (ha : Traffic.Agrees entry v w) :
    w.holdsArchived entry = v.holdsArchived entry := by
  unfold Traffic.Agrees at ha
  unfold Traffic.holdsArchived
  split <;> simp_all

lemma Traffic.prune_agrees (hn : ¬ leaf.Names entry) : Traffic.Agrees entry v (v.prune leaf) := by
  obtain ⟨recordType, primaryKey, secondaryKey⟩ := entry
  obtain ⟨leafType, leafPrimary, leafSecondary⟩ := leaf
  cases recordType with
  | userVolume =>
    cases leafType with
    | userVolume =>
      have hp : primaryKey ≠ leafPrimary := fun he => hn ⟨rfl, he.symm, nofun⟩
      exact Function.update_of_ne hp _ _
    | userSpending => rfl
    | refundBalance => rfl
  | userSpending =>
    cases leafType with
    | userVolume => rfl
    | userSpending =>
      have hp : primaryKey ≠ leafPrimary := fun he => hn ⟨rfl, he.symm, nofun⟩
      exact Function.update_of_ne hp _ _
    | refundBalance => rfl
  | refundBalance =>
    cases leafType with
    | userVolume => rfl
    | userSpending => rfl
    | refundBalance =>
      refine if_neg ?_
      rintro ⟨hp, hk⟩
      exact hn ⟨rfl, hp.symm, fun _ => hk.symm⟩

lemma pruneArchivedEntries_ok {epoch : ℕ}
    (hr : pruneArchivedEntries h env epoch leaves s = .ok (n, t)) :
    s.settings.isFrozenInternal = false ∧
      (∃ manager, s.access.holder .treasuryManager = some manager ∧
        env.authorises h manager = true) ∧
      (s.settings.archiveRoot epoch).isSome ∧
      ∀ entry, (∀ leaf ∈ leaves, ¬ leaf.Names entry) →
        Traffic.Agrees entry s.traffic t.traffic := by
  simp only [pruneArchivedEntries, requireNotFrozen_ok, Tx.bind_ok, requireRole_ok, Tx.read_bind,
    Tx.reject_ok, routing_ok] at hr
  obtain ⟨_, _, ⟨hf, rfl⟩, manager, _, ⟨hm, ha, rfl⟩, _, _, ⟨hroot, rfl⟩, v, hv, rfl⟩ := hr
  refine ⟨hf, ⟨manager, hm, ha⟩, by simpa [Option.isSome_iff_ne_none] using hroot, ?_⟩
  intro entry hn
  have hfold : Tx.Respects (Traffic.Agrees entry) (Tx.fold (ε := Error) (fun removed leaf => do
      let held ← Tx.read fun t : Traffic => t.holdsArchived leaf
      Tx.update fun t => t.prune leaf
      pure (if held then removed + 1 else removed)) 0 leaves) := by
    refine .fold fun removed leaf hl => .bind (.read _) fun held => ?_
    exact .bind (.update fun _ => Traffic.prune_agrees (hn leaf hl)) fun _ => .pure _
  exact hfold _ _ _ hv

end Pruning

/-- A prune removes only entries that one of its leaves names, for a treasury manager and under an
epoch that a commit opened; it leaves every other entry as it was. -/
theorem prune_removes_named (h : Host) (tokens : Ledger Address Address) (before : List Call)
    (env : Env) (epoch : ℕ) (leaves : List ArchiveLeaf) (entry : ArchiveLeaf) :
    let s := after h tokens before
    let t := step h ⟨env, .treasury (.pruneArchivedEntries epoch leaves)⟩ s
    (s.traffic.holdsArchived entry = true → t.traffic.holdsArchived entry = false →
      (∃ leaf ∈ leaves, leaf.Names entry) ∧ s.settings.isFrozenInternal = false ∧
        (∃ manager, s.access.holder .treasuryManager = some manager ∧
          env.authorises h manager = true) ∧
        ∃ committed, (epoch, committed) ∈
          trace (step h) (commitments h) (State.fresh tokens) before) ∧
      ((∀ leaf ∈ leaves, ¬ leaf.Names entry) → Traffic.Agrees entry s.traffic t.traffic) := by
  intro s t
  rcases step_cases h ⟨env, .treasury (.pruneArchivedEntries epoch leaves)⟩ s with he | hr
  · have ht : t = s := he
    rw [ht]
    refine ⟨fun hs hn => ?_, fun _ => refl_of (Traffic.Agrees entry) _⟩
    rw [hs] at hn
    cases hn
  obtain ⟨n, hr⟩ := Tx.void_ok.mp hr
  obtain ⟨hf, hm, hroot, hkept⟩ := pruneArchivedEntries_ok hr
  refine ⟨fun hs hn => ⟨?_, hf, hm, committed_after h tokens before epoch hroot⟩, hkept entry⟩
  by_contra hnone
  push Not at hnone
  rw [(hkept entry hnone).holds, hs] at hn
  cases hn

section Examples

/-- An epoch is opened for no leaves at all, and the refund of `⟨2⟩` is pruned under it. -/
def emptyArchive : List Call :=
  heldRefund ++ [⟨signedBy [⟨1⟩], .configure (.commitArchiveRoot ⟨5⟩ [] "nothing")⟩]

def pruneUncommitted : Call :=
  ⟨signedBy [⟨1⟩], .treasury (.pruneArchivedEntries 1 [⟨.refundBalance, ⟨2⟩, ⟨20⟩⟩])⟩

theorem uncommitted_entry_pruned :
    let s := after .sample emptyLedger emptyArchive
    trace (step .sample) (commitments .sample) (State.fresh emptyLedger) emptyArchive = [(1, [])] ∧
      s.traffic.holdsArchived ⟨.refundBalance, ⟨2⟩, ⟨20⟩⟩ = true ∧
      (step .sample pruneUncommitted s).traffic.holdsArchived
        ⟨.refundBalance, ⟨2⟩, ⟨20⟩⟩ = false := by
  decide

end Examples

end StellarTags.Router
