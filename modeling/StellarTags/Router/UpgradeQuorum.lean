import StellarTags.Library.Approvals
import StellarTags.Router.Gate

/-! Every installation is earned by a quorum of standing approvals, if every batch meets it. -/

namespace StellarTags.Router

open Library.Transactions Library.Runs Library.Tokens Library.Ballots Soroban

def GroupEvent.upgradeBallot : GroupEvent → Option (Ballot Address Hash)
  | .upgradeApproved signer newWasmHash => some (.cast signer newWasmHash)
  | .upgradeRevoked signer newWasmHash => some (.withdraw signer newWasmHash)
  | .upgradeCancelled newWasmHash | .installed newWasmHash => some (.clear newWasmHash)
  | .configApproved _ _ _ | .configured _ _ => none

def upgradeLog (history : List GroupEvent) : List (Ballot Address Hash) :=
  history.filterMap GroupEvent.upgradeBallot

section Log

variable (signer : Address) (newWasmHash : Hash) (history : List GroupEvent)

@[simp] lemma upgradeLog_approved :
    upgradeLog (.upgradeApproved signer newWasmHash :: history) =
      .cast signer newWasmHash :: upgradeLog history := rfl

@[simp] lemma upgradeLog_revoked :
    upgradeLog (.upgradeRevoked signer newWasmHash :: history) =
      .withdraw signer newWasmHash :: upgradeLog history := rfl

@[simp] lemma upgradeLog_cancelled :
    upgradeLog (.upgradeCancelled newWasmHash :: history) =
      .clear newWasmHash :: upgradeLog history := rfl

@[simp] lemma upgradeLog_installed :
    upgradeLog (.installed newWasmHash :: history) =
      .clear newWasmHash :: upgradeLog history := rfl

lemma getD_ite_nil (approvals : List Address) [Decidable (approvals = [])] :
    (if approvals = [] then none else some approvals).getD [] = approvals := by
  split_ifs with h <;> simp [h]

end Log

/-- Enough current signers approved the hash, and no approval was revoked, cancelled or spent. -/
def QuorumStood (history : List GroupEvent) (newWasmHash : Hash) : Prop :=
  ∃ signers threshold, groupOf history = some (signers, threshold) ∧
    Quorum signers threshold (Standing (upgradeLog history) · newWasmHash)

def InstallationsEarned (history : List GroupEvent) : Prop :=
  ∀ newer older newWasmHash, history = newer ++ .installed newWasmHash :: older →
    QuorumStood older newWasmHash

lemma installationsEarned_cons {event : GroupEvent} {history : List GroupEvent} :
    InstallationsEarned (event :: history) ↔
      (∀ newWasmHash, event = .installed newWasmHash → QuorumStood history newWasmHash) ∧
        InstallationsEarned history := by
  constructor
  · intro he
    refine ⟨fun newWasmHash hn => he [] history newWasmHash (by simp [hn]), ?_⟩
    rintro newer older newWasmHash rfl
    exact he (event :: newer) older newWasmHash rfl
  · rintro ⟨hnow, hbefore⟩ newer older newWasmHash hsplit
    cases newer with
    | nil =>
      obtain ⟨rfl, rfl⟩ := List.cons.inj hsplit
      exact hnow newWasmHash rfl
    | cons e newer => exact hbefore newer older newWasmHash (List.cons.inj hsplit).2

lemma installationsEarned_other {event : GroupEvent} {history : List GroupEvent}
    (he : ∀ newWasmHash, event ≠ .installed newWasmHash) (hh : InstallationsEarned history) :
    InstallationsEarned (event :: history) :=
  installationsEarned_cons.mpr ⟨fun newWasmHash hn => absurd hn (he newWasmHash), hh⟩

/-- What is stored agrees with what happened, and every installation was earned. -/
structure Multisig.Audited (m : Multisig) : Prop where
  group : m.Tracks
  approvals : ∀ newWasmHash,
    Records (m.loadUpgradeApprovals newWasmHash) (upgradeLog m.history) newWasmHash
  earned : InstallationsEarned m.history

namespace Multisig.Audited

variable {m : Multisig} {h : Host}

lemma quorumStood (hm : m.Audited) {newWasmHash : Hash} (hq : m.Quorate newWasmHash) :
    QuorumStood m.history newWasmHash := by
  obtain ⟨signers, threshold, hs, ht, hle⟩ := hq
  have hg := hm.group.groupOf_eq hs ht
  exact ⟨signers, threshold, hg, (hm.approvals newWasmHash).quorum hle⟩

lemma install (hm : m.Audited) {newWasmHash : Hash} (hq : m.Quorate newWasmHash) :
    (m.install newWasmHash).Audited := by
  refine ⟨⟨hm.group.1, hm.group.2⟩, fun w => ?_, installationsEarned_cons.mpr ⟨?_, hm.earned⟩⟩
  · by_cases hw : w = newWasmHash
    · subst hw
      simpa [Multisig.install, loadUpgradeApprovals] using Records.clear
    · simpa [Multisig.install, loadUpgradeApprovals, hw] using
        (hm.approvals w).clear_other (Ne.symm hw)
  · rintro _ ⟨⟩
    exact hm.quorumStood hq

lemma rotate (hm : m.Audited) (signers : List Address) (threshold : ℕ) :
    (m.rotate h signers threshold).Audited :=
  ⟨⟨rfl, rfl⟩, hm.approvals, installationsEarned_other (by simp) hm.earned⟩

lemma apply (hm : m.Audited) {action : ActionType}
    (hq : ∀ newWasmHash, action = .upgrade newWasmHash → m.Quorate newWasmHash) :
    (m.apply h action).Audited := by
  cases action with
  | upgrade newWasmHash => exact hm.install (hq newWasmHash rfl)
  | setMultisigConfig signers threshold => exact hm.rotate signers threshold
  | _ => exact hm

lemma record (hm : m.Audited) {op : GroupOp} (ha : m.Accepts h op) : (m.record h op).Audited := by
  cases op with
  | setMultisigConfig signers threshold => exact hm.rotate signers threshold
  | approveMultisigConfig signers threshold signer =>
    exact ⟨hm.group.record _, hm.approvals, installationsEarned_other (by simp) hm.earned⟩
  | approveUpgrade signer newWasmHash =>
    refine ⟨hm.group.record _, fun w => ?_, installationsEarned_other (by simp) hm.earned⟩
    by_cases hw : w = newWasmHash
    · subst hw
      simpa [Multisig.record, loadUpgradeApprovals] using (hm.approvals w).cast ha
    · simpa [Multisig.record, loadUpgradeApprovals, hw] using
        (hm.approvals w).cast_other (Ne.symm hw)
  | revokeUpgradeApproval signer newWasmHash =>
    by_cases hs : signer ∈ m.loadUpgradeApprovals newWasmHash
    · simp only [Multisig.record, hs, if_true]
      refine ⟨⟨hm.group.1, hm.group.2⟩, fun w => ?_,
        installationsEarned_other (by simp) hm.earned⟩
      by_cases hw : w = newWasmHash
      · subst hw
        change Records ((Function.update m.upgradeApproval w _ w).getD []) _ w
        rw [Function.update_self, getD_ite_nil]
        exact (hm.approvals w).withdraw
      · simpa only [loadUpgradeApprovals, Function.update_of_ne hw, upgradeLog_revoked] using
          (hm.approvals w).withdraw_other (Ne.symm hw)
    · simpa only [Multisig.record, hs, if_false] using hm
  | cancelUpgrade newWasmHash =>
    refine ⟨hm.group.record _, fun w => ?_, installationsEarned_other (by simp) hm.earned⟩
    by_cases hw : w = newWasmHash
    · subst hw
      simpa [Multisig.record, loadUpgradeApprovals] using Records.clear
    · simpa [Multisig.record, loadUpgradeApprovals, hw] using
        (hm.approvals w).clear_other (Ne.symm hw)
  | upgrade newWasmHash => exact hm.install ha

end Multisig.Audited

/-- A batch that may run meets, for each of its upgrades, the quorum in force at its turn. -/
def BatchesMeetQuorum (h : Host) (s : State) (call : Call) : Prop :=
  ∀ nonces, call.op = .timelock (.executeBatchActions nonces) → s.TimelockOpen h call.env →
    nonces.Nodup →
    (∃ entries, List.Forall₂ (fun nonce entry => s.timelock.Ripe call.env nonce entry ∧
      s.multisig.Admits entry.action) nonces entries) →
    Along (Gate.apply h) Gate.MeetsQuorum s.gate (s.queued nonces)

variable {h : Host} {env : Env} {s t : State}

lemma forEach_audited {items : List (ℕ × TimelockEntry)} (hs : s.multisig.Audited)
    (hq : Along (Gate.apply h) Gate.MeetsQuorum s.gate (items.map fun item => item.2.action))
    (hr : Tx.forEach (fun item : ℕ × TimelockEntry => consumeEntry h env item.1 item.2) items s =
      .ok ((), t)) : t.multisig.Audited := by
  induction items generalizing s with
  | nil => exact Tx.forEach_nil.mp hr ▸ hs
  | cons item items ih =>
    obtain ⟨v, hv, hr⟩ := Tx.forEach_cons.mp hr
    have ha := applyAction_applied (consumeEntry_ok.mp hv)
    rw [List.map_cons, along_cons, ← gate_dropEntry s item.1, ← ha.gate] at hq
    refine ih ?_ hq.2 hr
    rw [ha.multisig]
    exact hs.apply fun w hw => gate_quorate.mp (hq.1 w hw)

lemma step_audited (call : Call) (hs : s.multisig.Audited) (hb : BatchesMeetQuorum h s call) :
    (step h call s).multisig.Audited := by
  obtain ⟨env, op⟩ := call
  rcases step_cases h ⟨env, op⟩ s with hc | hr
  · rwa [hc]
  cases op with
  | administer op =>
    rw [(AdminOp.invoke_administered hr).multisig]
    exact hs
  | timelock op =>
    cases op with
    | executeBatchActions nonces =>
      obtain ⟨ho, hn, entries, he, hr⟩ := executeBatchActions_ok.mp hr
      have hmap : (nonces.zip entries).map (fun item => item.2.action) = s.queued nonces := by
        rw [queued_of_ripe he]
        conv_rhs => rw [← List.map_snd_zip he.length_eq.ge, List.map_map]
        rfl
      exact forEach_audited hs (hmap ▸ hb nonces rfl ho hn ⟨entries, he⟩) hr
    | executeAction nonce =>
      obtain ⟨-, entry, -, hadmits, hr⟩ := executeAction_ok.mp hr
      rw [(applyAction_applied hr).multisig]
      exact hs.apply fun w hw => by simpa [hw, Multisig.Admits] using hadmits
    | queueAction action =>
      simp [Op.invoke, TimelockOp.invoke, Router.queueAction, requireTimelockOpen_ok, nextNonce] at hr
      rw [hr.2.2]
      exact hs
    | cancelAction nonce =>
      simp [Op.invoke, TimelockOp.invoke, Router.cancelAction] at hr
      rw [hr.2.2]
      exact hs
  | group op =>
    obtain ⟨ha, ht⟩ := GroupOp.invoke_ok hr
    rw [ht]
    exact hs.record ha
  | _ =>
    rw [(Op.invoke_peripheral (by simp) (by simp) (by simp) hr).multisig]
    exact hs

lemma fresh_audited (tokens : Ledger Address Address) : (State.fresh tokens).multisig.Audited :=
  ⟨⟨rfl, rfl⟩, fun _ => Records.start, fun _ _ _ he => (List.append_ne_nil_of_right_ne_nil _
    (List.cons_ne_nil _ _) he.symm).elim⟩

/-- As long as batches meet their quorums, each installation spends a quorum of its own. -/
theorem installations_earned (h : Host) (tokens : Ledger Address Address) (calls : List Call)
    (hb : Along (step h) (BatchesMeetQuorum h) (State.fresh tokens) calls) :
    InstallationsEarned (after h tokens calls).multisig.history ∧
      (∀ newWasmHash account,
        account ∈ (after h tokens calls).multisig.loadUpgradeApprovals newWasmHash ↔
          Standing (upgradeLog (after h tokens calls).multisig.history) account newWasmHash) ∧
      (after h tokens calls).multisig.signers =
        (groupOf (after h tokens calls).multisig.history).map Prod.fst := by
  have hm := run_invariant (I := fun s : State => s.multisig.Audited)
    (fun _ call hs hb => step_audited call hs hb) (fresh_audited tokens) hb
  exact ⟨hm.earned, fun w => (hm.approvals w).mem_iff, hm.group.signers⟩

section Examples

def batchCall (nonces : List ℕ) : Call := ⟨dayLater, .timelock (.executeBatchActions nonces)⟩

theorem installations_earned_batch :
    InstallationsEarned (after .sample emptyLedger (queuedUpgrades ++ [batchCall [1]])).multisig.history ∧
      (∀ newWasmHash account,
        account ∈ (after .sample emptyLedger
            (queuedUpgrades ++ [batchCall [1]])).multisig.loadUpgradeApprovals newWasmHash ↔
          Standing (upgradeLog (after .sample emptyLedger
            (queuedUpgrades ++ [batchCall [1]])).multisig.history) account newWasmHash) ∧
      (after .sample emptyLedger (queuedUpgrades ++ [batchCall [1]])).multisig.signers =
        (groupOf (after .sample emptyLedger
          (queuedUpgrades ++ [batchCall [1]])).multisig.history).map Prod.fst := by
  refine installations_earned .sample emptyLedger (queuedUpgrades ++ [batchCall [1]]) ?_
  refine (along_append (step .sample) _ _ _ _).mpr ⟨?_, ?_, trivial⟩
  · simp [queuedUpgrades, approvedOnce, BatchesMeetQuorum]
  · rintro _ ⟨⟩ - - -
    refine ⟨?_, trivial⟩
    rintro _ ⟨⟩
    exact ⟨[⟨1⟩], 1, rfl, rfl, by decide⟩

/-- One approval, two installations. -/
theorem installation_unearned :
    ¬ InstallationsEarned
      (after .sample emptyLedger (queuedUpgrades ++ [batchCall [1, 2]])).multisig.history := by
  have hh : (after .sample emptyLedger (queuedUpgrades ++ [batchCall [1, 2]])).multisig.history =
      [.installed ⟨7⟩, .installed ⟨7⟩, .upgradeApproved ⟨1⟩ ⟨7⟩, .configured [⟨1⟩] 1] := by decide
  intro he
  obtain ⟨signers, threshold, hg, voters, -, hle, hv⟩ := he [] _ ⟨7⟩ hh
  obtain ⟨rfl, rfl⟩ : [⟨1⟩] = signers ∧ 1 = threshold := by simpa [groupOf] using hg
  obtain ⟨a, ha⟩ := List.exists_mem_of_length_pos hle
  simpa using (hv a ha).2

end Examples

end StellarTags.Router
