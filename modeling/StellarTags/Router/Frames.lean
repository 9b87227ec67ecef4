import StellarTags.Router.Calls

/-! What each family of entry points leaves alone. -/

namespace StellarTags.Router

open Library.Transactions Library.Tokens Soroban

section Gates

variable {h : Host} {env : Env} {role : Role} {c : Prop} [Decidable c] {e : Error}

lemma reads_asAdmin : Tx.Respects Eq (asAdmin h env) := by
  intro s u t hr
  obtain ⟨-, -, -, rfl⟩ := asAdmin_ok.mp hr
  rfl

lemma reads_asRole : Tx.Respects Eq (asRole h env role) := by
  intro s u t hr
  obtain ⟨-, -, -, rfl⟩ := asRole_ok.mp hr
  rfl

lemma reads_requireCircuitClosed : Tx.Respects Eq requireCircuitClosed := by
  intro s u t hr
  exact (requireCircuitClosed_ok.mp hr).2.symm

lemma reads_requireRole : Tx.Respects Eq (requireRole h env role) := by
  intro s a t hr
  exact (requireRole_ok.mp hr).2.2.symm

lemma reads_requireFeeAuthority : Tx.Respects Eq (requireFeeAuthority h env) := by
  intro s u t hr
  exact (requireFeeAuthority_state hr).symm

lemma reads_reject : Tx.Respects Eq (Tx.reject c e : Tx State Error Unit) := .reject c e

lemma reads_then {m n : Tx State Error Unit} (hm : Tx.Respects Eq m) (hn : Tx.Respects Eq n) :
    Tx.Respects Eq (do m; n) := hm.bind fun _ => hn

end Gates

variable {h : Host} {env : Env} {s t : State} {u : Unit}

lemma configure_writes {gate : Tx State Error Unit} {write : Settings → Settings}
    (hg : Tx.Respects Eq gate) (hr : configure gate write s = .ok (u, t)) :
    t = { s with settings := write s.settings } := by
  simp only [configure, modifySettings, Tx.bind_ok, Tx.update_ok] at hr
  obtain ⟨_, v, hv, rfl⟩ := hr
  obtain rfl := hg _ _ _ hv
  rfl

lemma configure_frame {P : Settings → Prop} {gate : Tx State Error Unit} {write : Settings → Settings}
    (hg : Tx.Respects Eq gate) (hw : P (write s.settings))
    (hr : configure gate write s = .ok (u, t)) :
    ∃ c, P c ∧ t = { s with settings := c } := ⟨_, hw, configure_writes hg hr⟩

lemma ConfigOp.invoke_keeps {op : ConfigOp} (hr : op.invoke h env s = .ok (u, t)) :
    ∃ c, (s.settings.Keeps c ∧ c.dmsTimeout = s.settings.dmsTimeout) ∧
      t = { s with settings := c } := by
  cases op with
  | proposeFeeChange proposer feeBps feeCap votingPeriod =>
    simp [invoke, Router.proposeFeeChange, modifySettings] at hr
    obtain ⟨-, -, -, -, -, -, -, rfl⟩ := hr
    refine ⟨_, ?_, rfl⟩
    exact ⟨⟨rfl, fun r => ⟨r.1, r.2, r.3, r.4⟩⟩, rfl⟩
  | commitArchiveRoot root leaves description =>
    simp [invoke, Router.commitArchiveRoot, modifySettings] at hr
    obtain ⟨-, -, -, -, -, rfl⟩ := hr
    refine ⟨_, ?_, rfl⟩
    exact ⟨⟨rfl, fun r => ⟨r.1, r.2, r.3, r.4⟩⟩, rfl⟩
  | _ =>
    -- The rest pass a gate that only reads, then write one setting.
    refine configure_frame ?_ ⟨⟨rfl, fun r => ?_⟩, rfl⟩ hr
    · apply_rules [reads_then, reads_asAdmin, reads_asRole, reads_requireCircuitClosed,
        reads_requireFeeAuthority, reads_reject]
    · constructor <;> first | rfl | exact r.1 | exact r.2 | exact r.3 | exact r.4

lemma ConfigOp.invoke_frame {op : ConfigOp} (hr : op.invoke h env s = .ok (u, t)) :
    ∃ c, s.settings.Keeps c ∧ t = { s with settings := c } := by
  obtain ⟨c, hc, ht⟩ := invoke_keeps hr
  exact ⟨c, hc.1, ht⟩

/-- Neither who administers the contract, nor its queue, nor its signers are touched. -/
structure Peripheral (s t : State) : Prop where
  access : t.access = s.access
  timelock : t.timelock = s.timelock
  multisig : t.multisig = s.multisig
  settings : s.settings.Keeps t.settings

namespace Peripheral

lemma refl (s : State) : Peripheral s s := ⟨rfl, rfl, rfl, ⟨rfl, id⟩⟩

lemma trans {s t v : State} (hst : Peripheral s t) (htv : Peripheral t v) : Peripheral s v :=
  ⟨htv.1.trans hst.1, htv.2.trans hst.2, htv.3.trans hst.3,
    ⟨htv.4.1.trans hst.4.1, fun r => htv.4.2 (hst.4.2 r)⟩⟩

instance : IsPreorder State Peripheral where
  refl := refl
  trans _ _ _ := trans

end Peripheral

section Treasury

lemma loadTreasury_reads : Tx.Respects Eq loadTreasury := .bind (.read _) fun _ => .unwrap _ _

variable {R : State → State → Prop} [IsPreorder State R]

lemma respects_of_reads {α : Type} {m : Tx State Error α} (hm : Tx.Respects Eq m) :
    Tx.Respects R m := by
  intro s a t hr
  obtain rfl := hm s a t hr
  exact refl_of R s

lemma respects_requireRole {role : Role} : Tx.Respects R (requireRole h env role) :=
  respects_of_reads reads_requireRole

lemma respects_requireCircuitClosed : Tx.Respects R requireCircuitClosed :=
  respects_of_reads reads_requireCircuitClosed

lemma respects_requireNotFrozen : Tx.Respects R requireNotFrozen :=
  respects_of_reads fun _ _ _ hr => (requireNotFrozen_ok.mp hr).2.symm

lemma respects_loadTreasury : Tx.Respects R loadTreasury := respects_of_reads loadTreasury_reads

variable {S : Traffic → Traffic → Prop} [IsPreorder Traffic S]

/-- `S` covers each step in which the treasury's operations change the traffic. -/
structure Covers (h : Host) (env : Env) (S : Traffic → Traffic → Prop) : Prop where
  token : ∀ call, Tx.Respects S (Router.token h env call)
  contract : ∀ contract, Tx.Respects S (invokeContract h env contract)
  guard : ∀ t held, S t { t with reentrancyGuard := held }
  prune : ∀ t leaf, S t (t.prune leaf)

lemma TreasuryOp.invoke_within (hs : Covers h env S)
    (ht : ∀ s traffic, S s.traffic traffic → R s { s with traffic })
    (hy : ∀ s yieldPrincipal, R s { s with settings := { s.settings with yieldPrincipal } })
    {op : TreasuryOp} : Tx.Respects R (op.invoke h env) := by
  have hrouting {α : Type} {m : Settings → Routing α} (hm : ∀ cfg, Tx.Respects S (m cfg)) :
      Tx.Respects R (routing m) := by
    intro s a t hr
    obtain ⟨v, hv, rfl⟩ := routing_ok.mp hr
    exact ht s v (hm s.settings _ _ _ hv)
  have htoken {call : TokenCall Address Address} :
      Tx.Respects R (routing fun _ => Router.token h env call) := hrouting fun _ => hs.token call
  have hyield : Tx.Respects R (callYieldProtocol h env) :=
    .bind (.read _) fun _ => .bind (.unwrap _ _) fun _ => hrouting fun _ => hs.contract _
  have hset {token : Address} {principal : Option ℤ} :
      Tx.Respects R (setYieldPrincipal token principal) := .update fun s => hy s _
  cases op with
  | recoverTokens token amount =>
    exact .bind respects_requireCircuitClosed fun _ => .bind respects_requireRole fun _ => htoken
  | emergencyWithdraw token amount =>
    refine .bind respects_requireRole fun _ => hrouting fun _ => ?_
    refine .bind (.read _) fun _ => .bind (.reject _ _) fun _ => ?_
    refine .bind (.update fun t => hs.guard t true) fun _ => .bind ?_ fun _ => ?_
    · refine .bind (.reject _ _) fun _ => .bind (.read _) fun _ => .bind (.reject _ _) fun _ => ?_
      exact hs.token _
    · exact .bind (.update fun t => hs.guard t false) fun _ => .pure _
  | depositToYield token amount =>
    refine .bind respects_requireCircuitClosed fun _ => .bind (.reject _ _) fun _ => ?_
    refine .bind respects_requireRole fun _ => .bind respects_loadTreasury fun _ => ?_
    refine .bind (.demand _) fun _ => .bind hyield fun _ => .bind (.read _) fun _ => ?_
    exact .bind (.bind (.demand _) fun _ => .pure _) fun _ => hset
  | withdrawFromYield token amount =>
    refine .bind respects_requireCircuitClosed fun _ => .bind (.read _) fun _ => ?_
    refine .bind (.reject _ _) fun _ => .bind respects_requireRole fun _ => ?_
    exact .bind respects_loadTreasury fun _ => .bind hyield fun _ => hset
  | harvestYield =>
    refine .void (.bind respects_requireCircuitClosed fun _ => ?_)
    refine .bind respects_requireRole fun _ => .bind respects_loadTreasury fun _ => ?_
    exact .bind hyield fun _ => .pure _
  | pruneArchivedEntries committedEpoch leaves =>
    refine .void (.bind respects_requireNotFrozen fun _ => .bind respects_requireRole fun _ => ?_)
    refine .bind (.read _) fun _ => .bind (.reject _ _) fun _ => hrouting fun _ => ?_
    refine .fold fun removed leaf _ => .bind (.read _) fun _ => ?_
    exact .bind (.update fun t => hs.prune t leaf) fun _ => .pure _

lemma TreasuryOp.invoke_respects {op : TreasuryOp}
    (ht : ∀ s traffic, R s { s with traffic })
    (hy : ∀ s yieldPrincipal, R s { s with settings := { s.settings with yieldPrincipal } }) :
    Tx.Respects R (op.invoke h env) := by
  have hany : IsPreorder Traffic fun _ _ => True :=
    { refl := fun _ => trivial, trans := fun _ _ _ _ _ => trivial }
  have hcovers : Covers h env fun _ _ => True :=
    ⟨fun _ _ _ _ _ => trivial, fun _ _ _ _ _ => trivial, fun _ _ => trivial, fun _ _ => trivial⟩
  exact invoke_within hcovers (fun s t _ => ht s t) hy

end Treasury

lemma TreasuryOp.invoke_peripheral {op : TreasuryOp} :
    Tx.Respects Peripheral (op.invoke h env) :=
  invoke_respects (fun _ _ => ⟨rfl, rfl, rfl, ⟨rfl, id⟩⟩) fun _ _ =>
    ⟨rfl, rfl, rfl, ⟨rfl, fun r => ⟨r.1, r.2, r.3, r.4⟩⟩⟩

lemma Op.invoke_peripheral {op : Op} (ha : ∀ o, op ≠ .administer o) (ht : ∀ o, op ≠ .timelock o)
    (hg : ∀ o, op ≠ .group o) (hr : op.invoke h env s = .ok (u, t)) : Peripheral s t := by
  cases op with
  | administer op => exact absurd rfl (ha op)
  | timelock op => exact absurd rfl (ht op)
  | group op => exact absurd rfl (hg op)
  | configure op =>
    obtain ⟨c, hc, rfl⟩ := ConfigOp.invoke_frame hr
    exact ⟨rfl, rfl, rfl, hc⟩
  | route op =>
    simp only [invoke, routing_ok] at hr
    obtain ⟨v, -, rfl⟩ := hr
    exact ⟨rfl, rfl, rfl, ⟨rfl, id⟩⟩
  | treasury op => exact TreasuryOp.invoke_peripheral s u t hr
  | outside call =>
    simp only [invoke, modifyTraffic_ok] at hr
    subst hr
    exact ⟨rfl, rfl, rfl, ⟨rfl, id⟩⟩

def Access.administer (a : Access) : AdminOp → Access
  | .initializeRouter admin _ _ _ _ =>
    initialRoles.foldl (fun a role => a.setRoleInternal role admin) (a.storeAdmin admin)
  | .grantRole _ grantee role => a.setRoleInternal role grantee
  | .revokeRole _ grantee role => a.removeRoleInternal role grantee
  | .assignRole account role => a.setRoleInternal role account
  | .setAdmin newAdmin => a.installAdmin newAdmin
  | .transferAdmin newAdmin =>
    match a.holder .superAdmin with
    | some currentAdmin => (a.removeRoleInternal .superAdmin currentAdmin).installAdmin newAdmin
    | none => a
  | .claimAdmin claimant => a.storeAdmin claimant
  | _ => a

def Timelock.administer (l : Timelock) : AdminOp → Timelock
  | .initializeRouter _ _ _ _ _ => { l with nonce := some 0 }
  | _ => l

def Settings.administer (c : Settings) : AdminOp → Settings
  | .initializeRouter _ platformTreasury feeBps feeCap maxAmount =>
    { c with
      platformTreasury := some platformTreasury
      feeBps := some feeBps
      feeCap := some feeCap
      maxAmount := some maxAmount
      paused := some false
      frozen := some false
      maxSlippageBps := some defaultMaxSlippageBps }
  | .setBackupAdminInternal backup timeoutSeconds =>
    { c with backupAdmin := some backup, dmsTimeout := some timeoutSeconds }
  | .removeBackupAdmin => { c with backupAdmin := none }
  | .claimAdmin _ => { c with backupAdmin := none, dmsTimeout := none }
  | .setHeartbeatOperator operator => { c with heartbeatOperator := some operator }
  | .removeHeartbeatOperator => { c with heartbeatOperator := none }
  | _ => c

/-- Whose authorisation an administrative operation went ahead with. -/
def State.Authorised (s : State) (h : Host) (env : Env) : AdminOp → Prop
  | .initializeRouter admin _ _ _ _ => s.access.admin = none ∧ env.authorises h admin = true
  | .grantRole admin _ _ | .revokeRole admin _ _ =>
    s.access.hasRoleInternal admin .superAdmin = true ∧ env.authorises h admin = true
  | .setAdmin _ => s.access.admin = none ∨
    ∃ a, s.access.holder .superAdmin = some a ∧ env.authorises h a = true
  | .assignRole _ _ | .transferAdmin _ =>
    ∃ a, s.access.holder .superAdmin = some a ∧ env.authorises h a = true
  | .claimAdmin claimant =>
    s.settings.backupAdmin = some claimant ∧ env.authorises h claimant = true
  | .setBackupAdminInternal _ _ | .removeBackupAdmin | .ping | .setHeartbeatOperator _
  | .removeHeartbeatOperator => ∃ a, s.access.admin = some a ∧ env.authorises h a = true
  | .renewHeartbeat operator => env.authorises h operator = true

structure Administered (h : Host) (env : Env) (op : AdminOp) (s t : State) : Prop where
  authorised : s.Authorised h env op
  access : t.access = s.access.administer op
  timelock : t.timelock = s.timelock.administer op
  settings : t.settings = s.settings.administer op
  multisig : t.multisig = s.multisig
  traffic : t.traffic = { s.traffic with lastHeartbeat := t.traffic.lastHeartbeat }
  ready : s.settings.Ready → t.settings.Ready
  backupAdmin : t.settings.backupAdmin.isSome →
    s.settings.backupAdmin.isSome ∨ s.access.admin.isSome
  initialized : ∀ admin treasury feeBps feeCap maxAmount,
    op = .initializeRouter admin treasury feeBps feeCap maxAmount → t.settings.Ready

lemma AdminOp.invoke_administered {op : AdminOp} (hr : op.invoke h env s = .ok (u, t)) :
    Administered h env op s t := by
  cases op with
  | initializeRouter admin platformTreasury feeBps feeCap maxAmount =>
    simp [invoke, Router.initializeRouter] at hr
    obtain ⟨hn, ha, rfl⟩ := hr
    exact ⟨⟨hn, ha⟩, rfl, rfl, rfl, rfl, rfl, fun _ => ⟨rfl, rfl, rfl, rfl⟩, Or.inl,
      fun _ _ _ _ _ _ => ⟨rfl, rfl, rfl, rfl⟩⟩
  | grantRole admin grantee role =>
    simp [invoke, Router.grantRole] at hr
    obtain ⟨hs, ha, rfl⟩ := hr
    exact ⟨⟨hs, ha⟩, rfl, rfl, rfl, rfl, rfl, id, Or.inl, by simp⟩
  | revokeRole admin grantee role =>
    simp [invoke, Router.revokeRole] at hr
    obtain ⟨hs, ha, -, rfl⟩ := hr
    exact ⟨⟨hs, ha⟩, rfl, rfl, rfl, rfl, rfl, id, Or.inl, by simp⟩
  | assignRole account role =>
    simp [invoke, Router.assignRole] at hr
    obtain ⟨ha, rfl⟩ := hr
    exact ⟨ha, rfl, rfl, rfl, rfl, rfl, id, Or.inl, by simp⟩
  | setAdmin newAdmin =>
    simp [invoke, Router.setAdmin, Tx.whenever_ok] at hr
    obtain ⟨_, ⟨-, a, hh, ha, rfl⟩ | ⟨hn, rfl⟩, rfl⟩ := hr
    · exact ⟨Or.inr ⟨a, hh, ha⟩, rfl, rfl, rfl, rfl, rfl, id, Or.inl, by simp⟩
    · exact ⟨Or.inl hn, rfl, rfl, rfl, rfl, rfl, id, Or.inl, by simp⟩
  | transferAdmin newAdmin =>
    simp [invoke, Router.transferAdmin] at hr
    obtain ⟨a, hh, ha, rfl⟩ := hr
    exact ⟨⟨a, hh, ha⟩, by simp [Access.administer, hh], rfl, rfl, rfl, rfl, id, Or.inl, by simp⟩
  | setBackupAdminInternal backup timeoutSeconds =>
    simp [invoke, Router.setBackupAdminInternal, applySetBackupAdmin] at hr
    obtain ⟨ha, -, a, hs, -, rfl⟩ := hr
    exact ⟨ha, rfl, rfl, rfl, rfl, rfl, fun r => ⟨r.1, r.2, r.3, r.4⟩, fun _ => Or.inr (by simp [hs]),
      by simp⟩
  | removeBackupAdmin =>
    simp [invoke, Router.removeBackupAdmin] at hr
    obtain ⟨ha, rfl⟩ := hr
    exact ⟨ha, rfl, rfl, rfl, rfl, rfl, fun r => ⟨r.1, r.2, r.3, r.4⟩, by simp, by simp⟩
  | ping =>
    simp [invoke, Router.ping] at hr
    obtain ⟨ha, rfl⟩ := hr
    exact ⟨ha, rfl, rfl, rfl, rfl, rfl, id, Or.inl, by simp⟩
  | claimAdmin claimant =>
    simp [invoke, Router.claimAdmin] at hr
    obtain ⟨ha, hb, -, -, -, -, -, rfl⟩ := hr
    exact ⟨⟨hb, ha⟩, rfl, rfl, rfl, rfl, rfl, fun r => ⟨r.1, r.2, r.3, r.4⟩, by simp, by simp⟩
  | setHeartbeatOperator operator =>
    simp [invoke, Router.setHeartbeatOperator] at hr
    obtain ⟨ha, rfl⟩ := hr
    exact ⟨ha, rfl, rfl, rfl, rfl, rfl, fun r => ⟨r.1, r.2, r.3, r.4⟩, Or.inl, by simp⟩
  | removeHeartbeatOperator =>
    simp [invoke, Router.removeHeartbeatOperator] at hr
    obtain ⟨ha, rfl⟩ := hr
    exact ⟨ha, rfl, rfl, rfl, rfl, rfl, fun r => ⟨r.1, r.2, r.3, r.4⟩, Or.inl, by simp⟩
  | renewHeartbeat operator =>
    simp [invoke, Router.renewHeartbeat] at hr
    obtain ⟨-, ha, -, rfl⟩ := hr
    exact ⟨ha, rfl, rfl, rfl, rfl, rfl, id, Or.inl, by simp⟩

def Multisig.record (m : Multisig) (h : Host) : GroupOp → Multisig
  | .setMultisigConfig signers threshold => m.rotate h signers threshold
  | .approveMultisigConfig signers threshold signer =>
    let key := multisigConfigHash h (sortedMultisigSigners h signers) threshold
    { m with
      configApproval := Function.update m.configApproval key
        (some ((m.configApproval key).getD [] ++ [signer]))
      history := .configApproved signer signers threshold :: m.history }
  | .approveUpgrade signer newWasmHash =>
    { m with
      upgradeApproval := Function.update m.upgradeApproval newWasmHash
        (some (m.loadUpgradeApprovals newWasmHash ++ [signer]))
      history := .upgradeApproved signer newWasmHash :: m.history }
  | .revokeUpgradeApproval signer newWasmHash =>
    if signer ∈ m.loadUpgradeApprovals newWasmHash then
      let left := (m.loadUpgradeApprovals newWasmHash).erase signer
      { m with
        upgradeApproval := Function.update m.upgradeApproval newWasmHash
          (if left = [] then none else some left)
        history := .upgradeRevoked signer newWasmHash :: m.history }
    else m
  | .cancelUpgrade newWasmHash =>
    { m with
      upgradeApproval := Function.update m.upgradeApproval newWasmHash none
      history := .upgradeCancelled newWasmHash :: m.history }
  | .upgrade newWasmHash => m.install newWasmHash

def Multisig.Accepts (m : Multisig) (h : Host) : GroupOp → Prop
  | .setMultisigConfig signers threshold =>
    ValidConfig signers threshold ∧ m.AdmitsConfig h signers threshold
  | .approveMultisigConfig signers threshold signer =>
    ValidConfig signers threshold ∧ m.signers.isSome ∧ signer ∉
      (m.configApproval (multisigConfigHash h (sortedMultisigSigners h signers) threshold)).getD []
  | .approveUpgrade signer newWasmHash => signer ∉ m.loadUpgradeApprovals newWasmHash
  | .upgrade newWasmHash => m.Quorate newWasmHash
  | _ => True

lemma GroupOp.invoke_ok {op : GroupOp} (hr : op.invoke h env s = .ok (u, t)) :
    s.multisig.Accepts h op ∧ t = { s with multisig := s.multisig.record h op } := by
  cases op with
  | setMultisigConfig signers threshold =>
    simp [invoke, Router.setMultisigConfig] at hr
    obtain ⟨-, hv, ha, rfl⟩ := hr
    exact ⟨⟨hv, ha⟩, rfl⟩
  | approveMultisigConfig signers threshold signer =>
    simp [invoke, Router.approveMultisigConfig] at hr
    obtain ⟨hv, _, ⟨hs, -⟩, -, -, hn, rfl⟩ := hr
    exact ⟨⟨hv, by simp [hs], hn⟩, rfl⟩
  | approveUpgrade signer newWasmHash =>
    simp [invoke, Router.approveUpgrade] at hr
    obtain ⟨-, -, -, -, hn, rfl⟩ := hr
    exact ⟨hn, rfl⟩
  | revokeUpgradeApproval signer newWasmHash =>
    simp [invoke, Router.revokeUpgradeApproval, Tx.whenever_ok] at hr
    obtain ⟨-, -, -, -, ⟨hm, rfl⟩ | ⟨hm, rfl⟩⟩ := hr
    · exact ⟨trivial, by simp [Multisig.record, Multisig.loadUpgradeApprovals, hm]⟩
    · exact ⟨trivial, by simp [Multisig.record, Multisig.loadUpgradeApprovals, hm]⟩
  | cancelUpgrade newWasmHash =>
    simp [invoke, Router.cancelUpgrade] at hr
    obtain ⟨-, rfl⟩ := hr
    exact ⟨trivial, rfl⟩
  | upgrade newWasmHash =>
    simp [invoke, Router.upgrade] at hr
    obtain ⟨n, v, hv, -, rfl⟩ := hr
    obtain ⟨hq, rfl⟩ := requireUpgradeAuthorized_ok.mp ⟨n, hv⟩
    exact ⟨hq, rfl⟩

def TimelockOp.executes : TimelockOp → List ℕ
  | .executeAction nonce => [nonce]
  | .executeBatchActions nonces => nonces
  | .queueAction _ | .cancelAction _ => []

def State.Finds (s : State) (env : Env) : List ℕ → List TimelockEntry → Prop :=
  List.Forall₂ fun nonce entry => s.timelock.Ripe env nonce entry ∧ s.multisig.Admits entry.action

lemma State.Finds.admits {nonces : List ℕ} {entries : List TimelockEntry} {entry : TimelockEntry}
    (hf : s.Finds env nonces entries) (he : entry ∈ entries) :
    s.multisig.Admits entry.action := by
  induction hf with
  | nil => simp at he
  | cons hhead _ ih =>
    rcases List.mem_cons.mp he with rfl | he
    · exact hhead.2
    · exact ih he

lemma TimelockOp.invoke_applies {I : State → Prop} {op : TimelockOp}
    (hl : ∀ s l, I s → I { s with timelock := l })
    (ha : s.TimelockOpen h env → op.executes.Nodup → ∀ entries, s.Finds env op.executes entries →
      ∀ entry ∈ entries, ∀ v w, I v → Applied h entry.action v w → I w)
    (hs : I s) (hr : op.invoke h env s = .ok (u, t)) : I t := by
  have hbatch : ∀ (items : List (ℕ × TimelockEntry)) (s : State), I s →
      (∀ item ∈ items, ∀ v w, I v → Applied h item.2.action v w → I w) →
      Tx.forEach (fun item => consumeEntry h env item.1 item.2) items s = .ok ((), t) → I t := by
    intro items
    induction items with
    | nil =>
      intro s hs _ hr
      exact Tx.forEach_nil.mp hr ▸ hs
    | cons item items ih =>
      intro s hs hi hr
      obtain ⟨v, hv, hr⟩ := Tx.forEach_cons.mp hr
      have happlied := applyAction_applied (consumeEntry_ok.mp hv)
      have hv := hi item List.mem_cons_self _ _ (hl s _ hs) happlied
      exact ih v hv (fun item hitem => hi item (List.mem_cons_of_mem _ hitem)) hr
  cases op with
  | queueAction action =>
    simp [invoke, Router.queueAction, requireTimelockOpen_ok, nextNonce] at hr
    obtain ⟨-, -, rfl⟩ := hr
    exact hl s _ hs
  | cancelAction nonce =>
    simp [invoke, Router.cancelAction] at hr
    obtain ⟨-, -, rfl⟩ := hr
    exact hl s _ hs
  | executeAction nonce =>
    obtain ⟨hopen, entry, hripe, hadmits, hr⟩ := executeAction_ok.mp hr
    have hfound : s.Finds env [nonce] [entry] := .cons ⟨hripe, hadmits⟩ .nil
    have hstep := ha hopen (List.nodup_singleton nonce) _ hfound entry (by simp)
    exact hstep _ _ (hl s _ hs) (applyAction_applied hr)
  | executeBatchActions nonces =>
    obtain ⟨hopen, hnodup, entries, hfound, hr⟩ := executeBatchActions_ok.mp hr
    refine hbatch _ s hs (fun item hitem => ?_) hr
    exact ha hopen hnodup _ hfound item.2 (List.of_mem_zip hitem).2

lemma TimelockOp.invoke_preserves {I : State → Prop}
    (hl : ∀ s l, I s → I { s with timelock := l })
    (ha : ∀ s t action, I s → Applied h action s t → I t)
    {op : TimelockOp} (hs : I s) (hr : op.invoke h env s = .ok (u, t)) : I t :=
  invoke_applies hl (fun _ _ _ _ entry _ v w => ha v w entry.action) hs hr

/-- A part of the settings that neither administration, nor queued actions, nor the treasury write. -/
structure Settings.Apart {β : Type} (f : Settings → β) : Prop where
  administer : ∀ c op, f (Settings.administer c op) = f c
  apply : ∀ c action, f (Settings.apply c action) = f c
  yields : ∀ (c : Settings) p, f { c with yieldPrincipal := p } = f c

/-- Only configuration changes such a part. -/
lemma Op.invoke_apart {β : Type} {f : Settings → β} (hf : Settings.Apart f) {op : Op}
    (hop : ∀ o, op ≠ .configure o) (hr : op.invoke h env s = .ok ((), t)) :
    f t.settings = f s.settings := by
  cases op with
  | administer op => rw [(AdminOp.invoke_administered hr).settings, hf.administer]
  | configure op => exact absurd rfl (hop op)
  | timelock op =>
    apply TimelockOp.invoke_preserves (I := fun t => f t.settings = f s.settings)
      (fun _ _ ht => ht) ?_ rfl hr
    intro v t action hv ha
    rw [ha.settings, hf.apply, hv]
  | group op => rw [(GroupOp.invoke_ok hr).2]
  | route op =>
    simp only [invoke, routing_ok] at hr
    obtain ⟨v, -, rfl⟩ := hr
    rfl
  | treasury op =>
    have hpre : IsPreorder State fun s t => f t.settings = f s.settings :=
      { refl := fun _ => rfl, trans := fun _ _ _ hst htv => htv.trans hst }
    exact TreasuryOp.invoke_respects (R := fun s t => f t.settings = f s.settings) (fun _ _ => rfl)
      (fun s p => hf.yields s.settings p) _ _ _ hr
  | outside call =>
    simp only [invoke, modifyTraffic_ok] at hr
    rw [hr]

end StellarTags.Router
