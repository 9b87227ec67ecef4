import StellarTags.Router.RateLimits
import StellarTags.Router.Succession

/-! When the backup admin may take over: the heartbeat over any run in the order of time. -/

namespace StellarTags.Router

open Library.Transactions Library.Integers Library.Runs Library.Tokens Soroban

def TimelockEntry.arms (entry : TimelockEntry) : Bool :=
  match entry.action with
  | .setBackupAdmin _ _ => true
  | _ => false

/-- A call that the admin is taken to be alive by: a payment, a ping, a renewal or an arming. -/
def Signals (s : State) (call : Call) : Bool :=
  match call.op with
  | .route op => !op.payments.isEmpty
  | .administer .ping | .administer (.renewHeartbeat _)
  | .administer (.setBackupAdminInternal _ _) => true
  | .timelock op => op.executes.any fun nonce => (s.timelock.entry nonce).any (·.arms)
  | _ => false

/-- The time of a call that goes through, if it is such a signal. -/
def activity (h : Host) (s : State) (call : Call) : List ℕ :=
  if Tx.succeeds (call.op.invoke h call.env) s ∧ Signals s call then [call.env.timestamp] else []

/-- No payment gets past the checks of an entry point that renews no heartbeat, while the switch is
armed and the last heartbeat is older; and no claim is made at the end of time. -/
def Beats (h : Host) (s : State) (call : Call) : Prop :=
  match call.op with
  | .route _ => s.settings.backupAdmin.isSome →
    s.traffic.lastHeartbeat = some call.env.timestamp ∨ ∀ sender, Metered h sender s call
  | .administer (.claimAdmin _) => ∀ heartbeat timeout,
    s.traffic.lastHeartbeat = some heartbeat → s.settings.dmsTimeout = some timeout →
      heartbeat + timeout ≤ maxU64 ∨ call.env.timestamp < maxU64
  | _ => True

/-- While the switch is armed, the heartbeat is no older than any activity so far. -/
def Beating (log : List ℕ) (s : State) : Prop :=
  s.settings.backupAdmin.isSome → ∃ heartbeat, s.traffic.lastHeartbeat = some heartbeat ∧
    ∀ time ∈ log, time ≤ heartbeat

/-- If the switch is armed after a call, the heartbeat is the call's time, or else the one before
and the call is no signal. -/
def Ticks (env : Env) (signal : Bool) (s t : State) : Prop :=
  t.settings.backupAdmin.isSome → t.traffic.lastHeartbeat = some env.timestamp ∨
    signal = false ∧ s.settings.backupAdmin.isSome ∧
      t.traffic.lastHeartbeat = s.traffic.lastHeartbeat

variable {h : Host} {env : Env} {s t : State} {u : Unit}

lemma Beating.ticks {log : List ℕ} {signal : Bool} (hs : Beating log s)
    (hlog : ∀ time ∈ log, time ≤ env.timestamp) (ht : Ticks env signal s t) :
    Beating (log ++ if signal then [env.timestamp] else []) t := by
  intro harmed
  rcases ht harmed with hnow | ⟨rfl, hbefore, hsame⟩
  · refine ⟨env.timestamp, hnow, fun time ht => ?_⟩
    rcases List.mem_append.mp ht with hmem | hmem
    · exact hlog time hmem
    · cases signal <;> simp_all
  · obtain ⟨heartbeat, hb, hle⟩ := hs hbefore
    exact ⟨heartbeat, hsame.trans hb, by simpa using hle⟩

lemma Ticks.same (hb : t.settings.backupAdmin = s.settings.backupAdmin)
    (hh : t.traffic.lastHeartbeat = s.traffic.lastHeartbeat) : Ticks env false s t :=
  fun harmed => Or.inr ⟨rfl, hb ▸ harmed, hh⟩

section Administration

lemma AdminOp.invoke_ticks {op : AdminOp} (hr : op.invoke h env s = .ok ((), t)) :
    Ticks env (Signals s ⟨env, .administer op⟩) s t := by
  cases op with
  | setBackupAdminInternal backup timeoutSeconds =>
    simp [invoke, Router.setBackupAdminInternal, applySetBackupAdmin] at hr
    obtain ⟨-, -, -, -, -, rfl⟩ := hr
    exact fun _ => Or.inl rfl
  | removeBackupAdmin =>
    simp [invoke, Router.removeBackupAdmin] at hr
    obtain ⟨-, rfl⟩ := hr
    exact fun harmed => absurd harmed (by simp)
  | ping =>
    simp [invoke, Router.ping] at hr
    obtain ⟨-, rfl⟩ := hr
    exact fun harmed => Or.inl (if_pos harmed)
  | claimAdmin claimant =>
    simp [invoke, Router.claimAdmin] at hr
    obtain ⟨-, -, -, -, -, -, -, rfl⟩ := hr
    exact fun harmed => absurd harmed (by simp)
  | renewHeartbeat operator =>
    simp [invoke, Router.renewHeartbeat] at hr
    obtain ⟨-, -, -, rfl⟩ := hr
    exact fun _ => Or.inl rfl
  | initializeRouter admin platformTreasury feeBps feeCap maxAmount =>
    simp [invoke, Router.initializeRouter] at hr
    obtain ⟨-, -, rfl⟩ := hr
    exact .same rfl rfl
  | grantRole admin grantee role =>
    simp [invoke, Router.grantRole] at hr
    obtain ⟨-, -, rfl⟩ := hr
    exact .same rfl rfl
  | revokeRole admin grantee role =>
    simp [invoke, Router.revokeRole] at hr
    obtain ⟨-, -, -, rfl⟩ := hr
    exact .same rfl rfl
  | assignRole account role =>
    simp [invoke, Router.assignRole] at hr
    obtain ⟨-, rfl⟩ := hr
    exact .same rfl rfl
  | setAdmin newAdmin =>
    simp [invoke, Router.setAdmin, Tx.whenever_ok] at hr
    obtain ⟨_, ⟨-, -, -, -, rfl⟩ | ⟨-, rfl⟩, rfl⟩ := hr
    · exact .same rfl rfl
    · exact .same rfl rfl
  | transferAdmin newAdmin =>
    simp [invoke, Router.transferAdmin] at hr
    obtain ⟨-, -, -, rfl⟩ := hr
    exact .same rfl rfl
  | setHeartbeatOperator operator =>
    simp [invoke, Router.setHeartbeatOperator] at hr
    obtain ⟨-, rfl⟩ := hr
    exact .same rfl rfl
  | removeHeartbeatOperator =>
    simp [invoke, Router.removeHeartbeatOperator] at hr
    obtain ⟨-, rfl⟩ := hr
    exact .same rfl rfl

end Administration

section Timelock

lemma applyAction_heartbeat {entry : TimelockEntry}
    (hr : applyAction h env entry.action s = .ok (u, t)) :
    t.traffic.lastHeartbeat =
        (if entry.arms then some env.timestamp else s.traffic.lastHeartbeat) ∧
      (entry.arms = false → t.settings.backupAdmin = s.settings.backupAdmin) := by
  obtain ⟨queuedAt, action⟩ := entry
  cases action with
  | setBackupAdmin backup timeoutSeconds =>
    simp [applyAction, applySetBackupAdmin] at hr
    obtain ⟨-, -, -, -, rfl⟩ := hr
    simp [TimelockEntry.arms]
  | upgrade newWasmHash =>
    simp only [applyAction, applyUpgrade_ok] at hr
    obtain ⟨-, rfl⟩ := hr
    simp [TimelockEntry.arms]
  | setMultisigConfig signers threshold =>
    simp only [applyAction, storeMultisigConfig_ok] at hr
    obtain ⟨-, -, rfl⟩ := hr
    simp [TimelockEntry.arms]
  | _ =>
    simp only [applyAction, modifySettings_ok, modifyAccess_ok] at hr
    subst hr
    exact ⟨rfl, fun _ => rfl⟩

lemma consume_heartbeat {items : List (ℕ × TimelockEntry)}
    (hr : Tx.forEach (fun item => consumeEntry h env item.1 item.2) items s = .ok ((), t)) :
    Ticks env (items.any (·.2.arms)) s t := by
  induction items generalizing s with
  | nil =>
    obtain rfl := Tx.forEach_nil.mp hr
    exact .same rfl rfl
  | cons item items ih =>
    obtain ⟨v, hv, hr⟩ := Tx.forEach_cons.mp hr
    obtain ⟨hbeat, hkeep⟩ := applyAction_heartbeat (consumeEntry_ok.mp hv)
    intro harmed
    rcases ih hr harmed with hnow | ⟨hnone, hv, hsame⟩
    · exact Or.inl hnow
    · cases harms : item.2.arms with
      | true =>
        rw [harms] at hbeat
        exact Or.inl (hsame.trans hbeat)
      | false =>
        rw [harms] at hbeat
        refine Or.inr ⟨by simp [harms, hnone], hkeep harms ▸ hv, hsame.trans hbeat⟩

lemma State.Finds.any_arms {nonces : List ℕ} {entries : List TimelockEntry}
    (hf : s.Finds env nonces entries) :
    (nonces.any fun nonce => (s.timelock.entry nonce).any (·.arms)) =
      (nonces.zip entries).any (·.2.arms) := by
  induction hf with
  | nil => rfl
  | cons hhead _ ih => simp [hhead.1.1, ih]

lemma TimelockOp.invoke_ticks {op : TimelockOp} (hr : op.invoke h env s = .ok ((), t)) :
    Ticks env (Signals s ⟨env, .timelock op⟩) s t := by
  cases op with
  | queueAction action =>
    simp [invoke, Router.queueAction, requireTimelockOpen_ok, nextNonce] at hr
    obtain ⟨-, -, rfl⟩ := hr
    exact .same rfl rfl
  | cancelAction nonce =>
    simp [invoke, Router.cancelAction] at hr
    obtain ⟨-, -, rfl⟩ := hr
    exact .same rfl rfl
  | executeAction nonce =>
    obtain ⟨-, entry, hripe, -, hr⟩ := executeAction_ok.mp hr
    have hone : Tx.forEach (fun item => consumeEntry h env item.1 item.2) [(nonce, entry)] s =
        .ok ((), t) := by simpa [consumeEntry_ok] using hr
    have hsignals : Signals s ⟨env, .timelock (.executeAction nonce)⟩ = entry.arms := by
      simp [Signals, executes, hripe.1]
    rw [hsignals]
    simpa using consume_heartbeat hone
  | executeBatchActions nonces =>
    obtain ⟨-, -, entries, hfound, hr⟩ := executeBatchActions_ok.mp hr
    have hsignals : Signals s ⟨env, .timelock (.executeBatchActions nonces)⟩ =
        (nonces.zip entries).any (·.2.arms) := State.Finds.any_arms hfound
    rw [hsignals]
    exact consume_heartbeat hr

end Timelock

section Routing

variable {cfg : Settings} {α : Type} {m : Routing α}

/-- The call leaves its own time as the heartbeat, if the switch is armed. -/
abbrev Bumps (cfg : Settings) (env : Env) (m : Routing α) : Prop :=
  Tx.Ensures (fun _ => True) m fun _ t =>
    cfg.backupAdmin.isSome → t.lastHeartbeat = some env.timestamp

lemma bumpHeartbeat_bumps : Bumps cfg env (bumpHeartbeat cfg env) :=
  .whenever (fun _ => .update fun _ _ _ => rfl) fun hn _ _ hc => absurd hc hn

lemma withGuard_bumps (hm : Bumps cfg env m) : Bumps cfg env (withGuard m) := by
  refine .skip fun _ => .skip fun _ => .skip fun _ => .bind hm fun _ => ?_
  exact .bind (.update fun _ ht => ht) fun _ => .pure fun _ ht => ht

lemma routePayment_bumps {payment : Payment} : Bumps cfg env (routePayment h cfg env payment) := by
  apply withGuard_bumps
  refine .skip fun _ => .skip fun _ => .skip fun _ => .skip fun _ => .skip fun fees => ?_
  exact .skip fun _ => bumpHeartbeat_bumps

lemma routePayments_bumps {payments : List Payment} :
    Bumps cfg env (routePayments h cfg env payments) := by
  apply withGuard_bumps
  refine .skip fun _ => .skip fun seen => .skip fun fees => .skip fun _ => .skip fun _ => ?_
  exact bumpHeartbeat_bumps

lemma routePaymentWithQuote_bumps {sender recipient : Address} {quote : Quote}
    {makerPubkey : PublicKey} {signature : Signature} :
    Bumps cfg env
      (routePaymentWithQuote h cfg env sender recipient quote makerPubkey signature) := by
  apply withGuard_bumps
  refine .skip fun _ => .skip fun _ => .skip fun _ => .skip fun _ => .skip fun _ => ?_
  refine .skip fun used => .skip fun _ => .skip fun _ => .skip fun _ => .skip fun fees => ?_
  refine .skip fun _ => .skip fun _ => .skip fun _ => .skip fun _ => .skip fun _ => ?_
  refine .skip fun _ => .skip fun _ => .skip fun _ => .skip fun _ => .skip fun _ => ?_
  exact .skip fun _ => .bind bumpHeartbeat_bumps fun _ => .pure fun _ ht => ht

lemma routeMultihopSwap_bumps {sender recipient dex : Address} {amountIn : ℤ}
    {path : List Address} {floors : List ℤ} :
    Bumps cfg env (routeMultihopSwap h cfg env sender recipient dex amountIn path floors) := by
  apply withGuard_bumps
  refine .skip fun _ => .skip fun _ => .skip fun _ => .skip fun _ => .skip fun _ => ?_
  refine .skip fun _ => .skip fun _ => .skip fun _ => .skip fun _ => .skip fun _ => ?_
  refine .skip fun _ => .skip fun fees => .skip fun _ => .skip fun _ => .skip fun _ => ?_
  refine .skip fun _ => .skip fun _ => .skip fun _ => .skip fun _ => .skip fun _ => ?_
  exact .bind bumpHeartbeat_bumps fun _ => .pure fun _ ht => ht

lemma RoutingOp.payments_nil {op : RoutingOp} (hop : op.unlimited = true)
    (hk : ∀ sender, Metered h sender s ⟨env, .route op⟩)
    (hr : (Op.route op).invoke h env s = .ok ((), t)) : op.payments = [] := by
  refine List.eq_nil_iff_forall_not_mem.mpr fun payment hmem => ?_
  have hnone := List.countP_eq_zero.mp (RoutingOp.uncounted hop (hk payment.1) hr) payment hmem
  simp at hnone

lemma Ticks.of_bumps {α : Type} {m : Routing α} {a : α} {v : Traffic} {signal : Bool}
    (hm : Bumps s.settings env m) (hv : m s.traffic = .ok (a, v)) :
    Ticks env signal s { s with traffic := v } :=
  fun harmed => Or.inl (hm _ _ _ trivial hv harmed)

/-- A routing call renews the heartbeat, or it is one of those that never do. -/
lemma RoutingOp.invoke_beats {op : RoutingOp} (hr : (Op.route op).invoke h env s = .ok ((), t)) :
    (∀ signal, Ticks env signal s t) ∨ (op.unlimited = true ∨ op.payments = []) ∧
      t.settings = s.settings ∧ t.traffic.lastHeartbeat = s.traffic.lastHeartbeat := by
  obtain ⟨v, hv, rfl⟩ := route_ok hr
  have kept (hm : Tx.Respects Settles (op.invoke h env s.settings)) :
      v.lastHeartbeat = s.traffic.lastHeartbeat := (hm _ _ _ hv).heartbeat
  cases op with
  | routePayment payment => exact .inl fun _ => .of_bumps routePayment_bumps hv
  | routePayments payments => exact .inl fun _ => .of_bumps routePayments_bumps hv
  | routePaymentWithQuote sender recipient quote makerPubkey signature =>
    obtain ⟨amountOut, hv⟩ := Tx.void_ok.mp hv
    exact .inl fun _ => .of_bumps routePaymentWithQuote_bumps hv
  | routeMultihopSwap sender recipient dex amountIn path floors =>
    obtain ⟨amountOut, hv⟩ := Tx.void_ok.mp hv
    exact .inl fun _ => .of_bumps routeMultihopSwap_bumps hv
  | routePaymentMeta payment signerPubkey nonce deadline signature =>
    exact .inr ⟨.inl rfl, rfl, (Settles.routePaymentMeta hv).heartbeat⟩
  | routePaymentWithSwapRaw sender recipient dexRouter tokenIn tokenOut amountIn path minOut =>
    exact .inr ⟨.inl rfl, rfl, kept .routePaymentWithSwapRaw⟩
  | routePaymentWithSwap swap => exact .inr ⟨.inl rfl, rfl, kept (.void .routePaymentWithSwap)⟩
  | routePaymentsWithSwap swaps => exact .inr ⟨.inl rfl, rfl, kept (.void .routePaymentsWithSwap)⟩
  | routeSplitPaymentWithSwap sender recipient sellToken buyToken amountIn splits =>
    exact .inr ⟨.inl rfl, rfl, kept (.void .routeSplitPaymentWithSwap)⟩
  | quoteSwap dex sellToken buyToken => exact .inr ⟨.inr rfl, rfl, kept (.void .quoteSwap)⟩
  | withdrawRefund user token amount => exact .inr ⟨.inr rfl, rfl, kept .withdrawRefund⟩
  | claimAllRefunds user token => exact .inr ⟨.inr rfl, rfl, kept (.void .claimAllRefunds)⟩
  | migrateUserRecord user => exact .inr ⟨.inr rfl, rfl, kept (.void .migrateUserRecord)⟩

lemma RoutingOp.invoke_ticks {op : RoutingOp} (hk : Beats h s ⟨env, .route op⟩)
    (hr : (Op.route op).invoke h env s = .ok ((), t)) :
    Ticks env (Signals s ⟨env, .route op⟩) s t := by
  rcases invoke_beats hr with hbeats | ⟨hquiet, hsettings, hsame⟩
  · exact hbeats _
  · intro harmed
    rw [hsettings] at harmed
    rcases hquiet with hop | hnone
    · rcases hk harmed with hnow | hmetered
      · exact .inl (hsame.trans hnow)
      · exact .inr ⟨by simp [Signals, payments_nil hop hmetered hr], harmed, hsame⟩
    · exact .inr ⟨by simp [Signals, hnone], harmed, hsame⟩

end Routing

lemma Op.invoke_ticks {op : Op}
    (hroute : ∀ r, op = .route r → Ticks env (Signals s ⟨env, .route r⟩) s t)
    (hr : op.invoke h env s = .ok ((), t)) : Ticks env (Signals s ⟨env, op⟩) s t := by
  cases op with
  | administer op => exact AdminOp.invoke_ticks hr
  | configure op =>
    obtain ⟨c, hc, rfl⟩ := ConfigOp.invoke_frame hr
    exact .same hc.backupAdmin rfl
  | timelock op => exact TimelockOp.invoke_ticks hr
  | group op =>
    rw [(GroupOp.invoke_ok hr).2]
    exact .same rfl rfl
  | route op => exact hroute op rfl
  | treasury op =>
    have hkeeps := (TreasuryOp.invoke_peripheral s () t hr).settings
    exact .same hkeeps.backupAdmin (TreasuryOp.invoke_settles s () t hr).heartbeat
  | outside call =>
    simp only [invoke, modifyTraffic_ok] at hr
    subst hr
    exact .same rfl rfl

lemma step_beating {call : Call} {log : List ℕ} (hs : Beating log s)
    (hlog : ∀ time ∈ log, time ≤ call.env.timestamp) (hk : Beats h s call) :
    Beating (log ++ activity h s call) (step h call s) := by
  obtain ⟨env, op⟩ := call
  cases hr : Tx.succeeds (op.invoke h env) s with
  | false =>
    have hstep : step h ⟨env, op⟩ s = s := Tx.commit_of_fails hr
    rw [hstep, activity, if_neg (by simp [hr]), List.append_nil]
    exact hs
  | true =>
    obtain ⟨t, ht⟩ := Tx.succeeds_unit.mp hr
    have hstep : step h ⟨env, op⟩ s = t := Tx.commit_ok ht
    have hticks : Ticks env (Signals s ⟨env, op⟩) s t := by
      refine Op.invoke_ticks ?_ ht
      rintro r rfl
      exact RoutingOp.invoke_ticks hk ht
    rw [hstep]
    simpa [activity, hr] using hs.ticks hlog hticks

lemma step_timely {call : Call} {log : List ℕ} {now : ℕ}
    (hs : Beating log s ∧ ∀ time ∈ log, time ≤ now) (hle : now ≤ call.env.timestamp)
    (hk : Beats h s call) :
    Beating (log ++ activity h s call) (step h call s) ∧
      ∀ time ∈ log ++ activity h s call, time ≤ call.env.timestamp := by
  have hlog : ∀ time ∈ log, time ≤ call.env.timestamp := fun time hm => (hs.2 time hm).trans hle
  refine ⟨step_beating hs.1 hlog hk, fun time hm => ?_⟩
  rcases List.mem_append.mp hm with hm | hm
  · exact hlog time hm
  · unfold activity at hm
    split_ifs at hm
    · exact (List.mem_singleton.mp hm).le
    · cases hm

lemma run_beating {calls : List Call} {tokens : Ledger Address Address}
    (ht : (calls.map fun call => call.env.timestamp).Pairwise (· ≤ ·))
    (hk : Along (step h) (Beats h) (State.fresh tokens) calls) :
    Beating (trace (step h) (activity h) (State.fresh tokens) calls) (after h tokens calls) := by
  have hfresh : Beating [] (State.fresh tokens) ∧ ∀ time ∈ ([] : List ℕ), time ≤ 0 :=
    ⟨nofun, nofun⟩
  have htimes : (0 :: calls.map fun call => call.env.timestamp).Pairwise (· ≤ ·) :=
    List.pairwise_cons.mpr ⟨fun _ _ => Nat.zero_le _, ht⟩
  obtain ⟨later, hs, -⟩ := trace_invariant_timed
    (I := fun now log s => Beating log s ∧ ∀ time ∈ log, time ≤ now)
    (fun _ _ _ _ => step_timely) hfresh htimes hk
  exact hs

def claim (env : Env) (claimant : Address) : Call := ⟨env, .administer (.claimAdmin claimant)⟩

/-- While every payment renews the heartbeat, the backup admin takes over only when the timeout has
passed since the last activity. -/
theorem claim_admin_late (h : Host) (tokens : Ledger Address Address) (calls : List Call)
    (env : Env) (claimant : Address)
    (ht : ((calls ++ [claim env claimant]).map fun call => call.env.timestamp).Pairwise (· ≤ ·))
    (hk : Along (step h) (Beats h) (State.fresh tokens) (calls ++ [claim env claimant]))
    (hr : Tx.succeeds (claimAdmin h env claimant) (after h tokens calls) = true) :
    (after h tokens calls).settings.backupAdmin = some claimant ∧
      ∃ timeout, (after h tokens calls).settings.dmsTimeout = some timeout ∧
        ∀ time ∈ trace (step h) (activity h) (State.fresh tokens) calls,
          time + timeout ≤ env.timestamp := by
  obtain ⟨hbefore, hclaim, -⟩ := (along_append _ _ _ _ _).mp hk
  rw [List.map_append] at ht
  have hbeating := run_beating (List.pairwise_append.mp ht).1 hbefore
  obtain ⟨t, hr⟩ := Tx.succeeds_unit.mp hr
  obtain ⟨⟨-, hbackup, timeout, heartbeat, htimeout, hbeat, hexpired⟩, -⟩ := claimAdmin_ok hr
  refine ⟨hbackup, timeout, htimeout, fun time hm => ?_⟩
  obtain ⟨_, hb, hle⟩ := hbeating (by simp [hbackup])
  obtain rfl := Option.some.inj (hbeat.symm.trans hb)
  have hsum : heartbeat + timeout ≤ maxU64 ∨ env.timestamp < maxU64 :=
    hclaim heartbeat timeout hbeat htimeout
  have htime := hle time hm
  unfold saturateU64 at hexpired
  omega

section Examples

/-- `⟨4⟩` is armed as backup admin a week's silence after which it may take over. -/
def armedWeek : List Call :=
  allowed ++ [⟨signedBy [⟨1⟩], .administer (.setBackupAdminInternal ⟨4⟩ 604800)⟩]

def secondsLater (time : ℕ) (call : Call) : Call :=
  { call with env := { call.env with timestamp := time } }

def claimEnv (time : ℕ) : Env := { signedBy [⟨4⟩] with timestamp := time }

theorem claim_admin_late_after_payment :
    (after .sample emptyLedger (armedWeek ++ [secondsLater 5 payTen])).settings.backupAdmin =
        some ⟨4⟩ ∧
      ∃ timeout, (after .sample emptyLedger
          (armedWeek ++ [secondsLater 5 payTen])).settings.dmsTimeout = some timeout ∧
        ∀ time ∈ trace (step .sample) (activity .sample) (State.fresh emptyLedger)
          (armedWeek ++ [secondsLater 5 payTen]), time + timeout ≤ 604805 := by
  apply claim_admin_late .sample emptyLedger (armedWeek ++ [secondsLater 5 payTen])
    (claimEnv 604805) ⟨4⟩
  · decide
  · refine ⟨trivial, trivial, trivial, trivial, fun _ => Or.inr fun _ => trivial, ?_, trivial⟩
    rintro heartbeat timeout - -
    exact Or.inr (by decide)
  · decide

/-- A signed payment a second before does not keep `⟨4⟩` from taking over. -/
theorem signed_payment_unnoticed :
    let payment : MetaCall := ⟨⟨⟨2⟩, ⟨3⟩, ⟨20⟩, 10⟩, ⟨2⟩, 0, 604799, ⟨2⟩⟩
    let calls := armedWeek ++ [secondsLater 604799 (relay payment)]
    Tx.succeeds (claimAdmin .sample (claimEnv 604800) ⟨4⟩) (after .sample emptyLedger calls) =
        true ∧
      (after .sample emptyLedger calls).settings.dmsTimeout = some 604800 ∧
        604799 ∈ trace (step .sample) (activity .sample) (State.fresh emptyLedger) calls := by
  decide

end Examples

end StellarTags.Router
