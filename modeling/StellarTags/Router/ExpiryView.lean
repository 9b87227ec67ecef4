import StellarTags.Router.DeadMansSwitch

/-! The view that tells whether the backup admin may take over. -/

namespace StellarTags.Router

open Library.Transactions Library.Integers Library.Runs Library.Tokens Soroban

/-- `saturating_sub` on the ledger's time. -/
def State.isDeadMansSwitchExpired (s : State) (env : Env) : Bool :=
  if s.settings.backupAdmin.isSome then
    let timeout := s.settings.dmsTimeout.getD 0
    let last := s.traffic.lastHeartbeat.getD 0
    decide (timeout ≤ env.timestamp - last)
  else false

/-- While a backup admin is set, so are the timeout, no shorter than the least one, and a heartbeat. -/
def State.Armable (s : State) : Prop :=
  s.settings.backupAdmin.isSome → ∃ timeout heartbeat, s.settings.dmsTimeout = some timeout ∧
    minDmsTimeout ≤ timeout ∧ s.traffic.lastHeartbeat = some heartbeat

variable {h : Host} {env : Env} {s t : State} {u : Unit}

lemma Ticks.weaken {signal : Bool} (ht : Ticks env signal s t) : Ticks env false s t := by
  intro harmed
  rcases ht harmed with hnow | ⟨-, hbefore, hsame⟩
  · exact .inl hnow
  · exact .inr ⟨rfl, hbefore, hsame⟩

lemma RoutingOp.invoke_ticking {op : RoutingOp} (hr : (Op.route op).invoke h env s = .ok ((), t)) :
    Ticks env false s t := by
  rcases invoke_beats hr with hbeats | ⟨-, hsettings, hsame⟩
  · exact hbeats false
  · exact .same (congrArg Settings.backupAdmin hsettings) hsame

/-- Whatever the call, a switch that is armed after it has the call's heartbeat or the one before. -/
lemma Op.invoke_ticking {op : Op} (hr : op.invoke h env s = .ok ((), t)) : Ticks env false s t := by
  cases op with
  | route op => exact RoutingOp.invoke_ticking hr
  | _ => exact (Op.invoke_ticks (by rintro _ ⟨⟩) hr).weaken

namespace State.Armable

lemma of_same (hs : s.Armable) (hb : t.settings.backupAdmin = s.settings.backupAdmin)
    (ht : t.settings.dmsTimeout = s.settings.dmsTimeout) (hticks : Ticks env false s t) :
    t.Armable := by
  intro harmed
  obtain ⟨timeout, heartbeat, htimeout, hmin, hbeat⟩ := hs (hb ▸ harmed)
  rcases hticks harmed with hnow | ⟨-, -, hsame⟩
  · exact ⟨timeout, env.timestamp, ht.trans htimeout, hmin, hnow⟩
  · exact ⟨timeout, heartbeat, ht.trans htimeout, hmin, hsame.trans hbeat⟩

lemma of_disarmed (hb : t.settings.backupAdmin = none) : t.Armable := by
  intro harmed
  simp [hb] at harmed

lemma of_armed {backup : Address} {timeoutSeconds : ℕ}
    (hr : applySetBackupAdmin env backup timeoutSeconds s = .ok (u, t)) : t.Armable := by
  simp [applySetBackupAdmin] at hr
  obtain ⟨hmin, -, -, -, rfl⟩ := hr
  exact fun _ => ⟨timeoutSeconds, env.timestamp, rfl, hmin, rfl⟩

end State.Armable

lemma AdminOp.invoke_armable {op : AdminOp} (hs : s.Armable) (hr : op.invoke h env s = .ok ((), t)) :
    t.Armable := by
  have hsettings := (AdminOp.invoke_administered hr).settings
  have hticks : Ticks env false s t := (AdminOp.invoke_ticks hr).weaken
  cases op with
  | setBackupAdminInternal backup timeoutSeconds =>
    obtain ⟨v, -, hr⟩ := Tx.bind_unit_ok.mp hr
    exact .of_armed hr
  | removeBackupAdmin =>
    apply State.Armable.of_disarmed
    rw [hsettings]
    rfl
  | claimAdmin claimant =>
    apply State.Armable.of_disarmed
    rw [hsettings]
    rfl
  | _ => exact hs.of_same (by rw [hsettings]; rfl) (by rw [hsettings]; rfl) hticks

lemma applyAction_armable {entry : TimelockEntry} (hs : s.Armable)
    (hr : applyAction h env entry.action s = .ok (u, t)) : t.Armable := by
  have hsettings := (applyAction_applied hr).settings
  obtain ⟨hbeat, hkeep⟩ := applyAction_heartbeat hr
  obtain ⟨queuedAt, action⟩ := entry
  cases action with
  | setBackupAdmin backup timeoutSeconds => exact .of_armed hr
  | _ =>
    have hticks : Ticks env false s t := .same (hkeep rfl) hbeat
    exact hs.of_same (hkeep rfl) (by rw [hsettings]; rfl) hticks

lemma consume_armable {items : List (ℕ × TimelockEntry)} (hs : s.Armable)
    (hr : Tx.forEach (fun item => consumeEntry h env item.1 item.2) items s = .ok ((), t)) :
    t.Armable := by
  induction items generalizing s with
  | nil =>
    obtain rfl := Tx.forEach_nil.mp hr
    exact hs
  | cons item items ih =>
    obtain ⟨v, hv, hr⟩ := Tx.forEach_cons.mp hr
    have hdropped : (s.dropEntry item.1).Armable := hs
    exact ih (applyAction_armable hdropped (consumeEntry_ok.mp hv)) hr

lemma TimelockOp.invoke_armable {op : TimelockOp} (hs : s.Armable)
    (hr : op.invoke h env s = .ok ((), t)) : t.Armable := by
  cases op with
  | queueAction action =>
    simp [invoke, Router.queueAction, requireTimelockOpen_ok, nextNonce] at hr
    obtain ⟨-, -, rfl⟩ := hr
    exact hs
  | cancelAction nonce =>
    simp [invoke, Router.cancelAction] at hr
    obtain ⟨-, -, rfl⟩ := hr
    exact hs
  | executeAction nonce =>
    obtain ⟨-, entry, -, -, hr⟩ := executeAction_ok.mp hr
    have hdropped : (s.dropEntry nonce).Armable := hs
    exact applyAction_armable hdropped hr
  | executeBatchActions nonces =>
    obtain ⟨-, -, entries, -, hr⟩ := executeBatchActions_ok.mp hr
    exact consume_armable hs hr

lemma Op.invoke_armable {op : Op} (hs : s.Armable) (hr : op.invoke h env s = .ok ((), t)) :
    t.Armable := by
  have hticks := Op.invoke_ticking hr
  cases op with
  | administer op => exact AdminOp.invoke_armable hs hr
  | timelock op => exact TimelockOp.invoke_armable hs hr
  | configure op =>
    obtain ⟨c, ⟨hkeeps, htimeout⟩, rfl⟩ := ConfigOp.invoke_keeps hr
    exact hs.of_same hkeeps.backupAdmin htimeout hticks
  | group op =>
    rw [(GroupOp.invoke_ok hr).2] at hticks ⊢
    exact hs.of_same rfl rfl hticks
  | route op =>
    obtain ⟨v, -, rfl⟩ := route_ok hr
    exact hs.of_same rfl rfl hticks
  | treasury op =>
    have hpre : IsPreorder State fun s t => t.settings.dmsTimeout = s.settings.dmsTimeout :=
      { refl := fun _ => rfl, trans := fun _ _ _ hst htv => htv.trans hst }
    have htimeout : t.settings.dmsTimeout = s.settings.dmsTimeout :=
      TreasuryOp.invoke_respects (R := fun s t => t.settings.dmsTimeout = s.settings.dmsTimeout)
        (fun _ _ => rfl) (fun _ _ => rfl) _ _ _ hr
    exact hs.of_same (TreasuryOp.invoke_peripheral s () t hr).settings.backupAdmin htimeout hticks
  | outside call =>
    simp only [invoke, modifyTraffic_ok] at hr
    subst hr
    exact hs.of_same rfl rfl hticks

lemma step_armable (call : Call) (hs : s.Armable) : (step h call s).Armable := by
  rcases step_cases h call s with hc | hr
  · rwa [hc]
  · exact Op.invoke_armable hs hr

lemma after_armable (h : Host) (tokens : Ledger Address Address) (calls : List Call) :
    (after h tokens calls).Armable := by
  have hfresh : (State.fresh tokens).Armable := .of_disarmed rfl
  have hstep (s : State) (call : Call) (hs : s.Armable) (_ : True) : (step h call s).Armable :=
    step_armable call hs
  exact run_invariant hstep hfresh (along_of_forall (step h) (fun _ _ => trivial) _ calls)

lemma claimAdmin_succeeds {claimant : Address} :
    Tx.succeeds (claimAdmin h env claimant) s = true ↔ s.Claimable h env claimant := by
  constructor
  · intro hr
    obtain ⟨t, ht⟩ := Tx.succeeds_unit.mp hr
    exact (claimAdmin_ok ht).1
  · rintro ⟨hauth, hbackup, timeout, heartbeat, htimeout, hbeat, hexpired⟩
    simp only [Tx.succeeds_unit, claimAdmin, requireAuth_bind_ok, Tx.read_bind, Tx.unwrap_bind_ok,
      Tx.reject_bind_ok, modifyAccess_bind, modifySettings_bind, modifyTraffic_ok, not_not, not_lt]
    exact ⟨_, hauth, claimant, hbackup, rfl, timeout, htimeout, heartbeat, hbeat, hexpired, rfl⟩

/-- The timeout is over for the view exactly when it is for the claim. -/
lemma expired_iff {timeout heartbeat now : ℕ} (hmin : minDmsTimeout ≤ timeout) (hnow : now < maxU64) :
    timeout ≤ now - heartbeat ↔ saturateU64 (heartbeat + timeout) ≤ now := by
  unfold minDmsTimeout at hmin
  unfold saturateU64
  omega

/-- In every state reached, before the end of time, the view is true exactly when a claim authorised by
the backup admin succeeds. -/
theorem expiry_predicts_claim (h : Host) (tokens : Ledger Address Address) (calls : List Call)
    (env : Env) (hnow : env.timestamp < maxU64) :
    let s := after h tokens calls
    (∀ backup, s.settings.backupAdmin = some backup → env.authorises h backup = true →
      (s.isDeadMansSwitchExpired env = true ↔ Tx.succeeds (claimAdmin h env backup) s = true)) ∧
    (s.settings.backupAdmin = none → s.isDeadMansSwitchExpired env = false ∧
      ∀ claimant, Tx.succeeds (claimAdmin h env claimant) s = false) := by
  intro s
  constructor
  · intro backup hbackup hauth
    have harmed : s.settings.backupAdmin.isSome := by rw [hbackup]; rfl
    obtain ⟨timeout, heartbeat, htimeout, hmin, hbeat⟩ := after_armable h tokens calls harmed
    have hview : s.isDeadMansSwitchExpired env = true ↔ timeout ≤ env.timestamp - heartbeat := by
      rw [State.isDeadMansSwitchExpired, if_pos harmed, htimeout, hbeat]
      exact decide_eq_true_iff
    rw [hview, expired_iff hmin hnow, claimAdmin_succeeds]
    constructor
    · intro hexpired
      exact ⟨hauth, hbackup, timeout, heartbeat, htimeout, hbeat, hexpired⟩
    · rintro ⟨-, -, timeout', heartbeat', htimeout', hbeat', hexpired⟩
      obtain rfl := Option.some.inj (htimeout.symm.trans htimeout')
      obtain rfl := Option.some.inj (hbeat.symm.trans hbeat')
      exact hexpired
  · intro hnone
    have hdisarmed : ¬ s.settings.backupAdmin.isSome := by simp [hnone]
    refine ⟨if_neg hdisarmed, fun claimant => ?_⟩
    rw [Bool.eq_false_iff, ne_eq, claimAdmin_succeeds]
    rintro ⟨-, hbackup, -⟩
    rw [hnone] at hbackup
    cases hbackup

section Examples

/-- A week after the payment the view tells of the claim that `⟨4⟩` can make. -/
theorem expiry_predicts_claim_week :
    let s := after .sample emptyLedger (armedWeek ++ [secondsLater 5 payTen])
    s.isDeadMansSwitchExpired (claimEnv 604804) = false ∧
      (s.isDeadMansSwitchExpired (claimEnv 604805) = true ↔
        Tx.succeeds (claimAdmin .sample (claimEnv 604805) ⟨4⟩) s = true) := by
  intro s
  refine ⟨by decide, ?_⟩
  have hpredicts := expiry_predicts_claim .sample emptyLedger
    (armedWeek ++ [secondsLater 5 payTen]) (claimEnv 604805) (by decide)
  exact hpredicts.1 ⟨4⟩ (by decide) (by decide)

end Examples

end StellarTags.Router
