import StellarTags.Library.Dockets
import StellarTags.Router.Bootstrap

/-! The timelock over runs: a docket of actions, each applied at most once and when it is due. -/

namespace StellarTags.Router

open Library.Transactions Library.Runs Library.Dockets Library.Integers Library.Tokens Soroban

def TimelockEntry.Due (entry : TimelockEntry) (time : ℕ) : Prop :=
  entry.queuedAt + secondsIn24h ≤ time

def State.taken (s : State) : TimelockOp → List (ℕ × TimelockEntry)
  | .executeAction nonce => ((s.timelock.entry nonce).map (nonce, ·)).toList
  | .executeBatchActions nonces =>
    nonces.filterMap fun nonce => (s.timelock.entry nonce).map (nonce, ·)
  | .queueAction _ | .cancelAction _ => []

def State.filings (s : State) (h : Host) (env : Env) (op : TimelockOp) :
    List (Event TimelockEntry) :=
  match op with
  | .queueAction action =>
    match queueAction h env action s with
    | .ok (nonce, _) => [.filed nonce ⟨env.timestamp, action⟩]
    | .error _ => []
  | .cancelAction nonce => [.struck nonce]
  | .executeAction _ | .executeBatchActions _ =>
    (s.taken op).map fun item => .served item.1 item.2 env.timestamp

def filings (h : Host) (s : State) (call : Call) : List (Event TimelockEntry) :=
  match call.op with
  | .timelock op => if Tx.succeeds (op.invoke h call.env) s then s.filings h call.env op else []
  | _ => []

/-- The queue is what the record leads to, and nothing is on record before there is an admin. -/
structure Docketed (log : List (Event TimelockEntry)) (s : State) : Prop where
  orderly : Orderly TimelockEntry.Due s.timelock.entry (s.timelock.nonce.getD 0) log
  started : s.access.admin.isSome ∨ log = []

/-- A call that takes entries meets an open contract, and applies their actions in order. -/
def AppliesTaken (h : Host) (s : State) (call : Call) : Prop :=
  ∀ op, call.op = .timelock op → Tx.succeeds (op.invoke h call.env) s = true → s.taken op ≠ [] →
    s.settings.isFrozenInternal = false ∧ s.settings.isPausedInternal = false ∧
      Tx.forEach (fun item => consumeEntry h call.env item.1 item.2) (s.taken op) s =
        .ok ((), step h call s)

variable {h : Host} {env : Env} {s t : State} {log : List (Event TimelockEntry)}

lemma nextNonce_ok {nonce : ℕ} : nextNonce s = .ok (nonce, t) ↔
    s.timelock.nonce.getD 0 + 1 ≤ maxU64 ∧ nonce = s.timelock.nonce.getD 0 + 1 ∧
      t = { s with timelock := { s.timelock with nonce := some nonce } } := by
  simp [nextNonce]
  grind

lemma queueAction_ok {action : ActionType} {nonce : ℕ}
    (hr : queueAction h env action s = .ok (nonce, t)) :
    nonce = s.timelock.nonce.getD 0 + 1 ∧ t = { s with timelock := ⟨some nonce,
      Function.update s.timelock.entry nonce (some ⟨env.timestamp, action⟩)⟩ } := by
  simp only [queueAction, Tx.bind_ok, requireTimelockOpen_ok, nextNonce_ok, modifyTimelock_ok,
    Tx.pure_ok] at hr
  obtain ⟨_, _, ⟨-, rfl⟩, _, _, ⟨-, rfl, rfl⟩, _, _, rfl, rfl, rfl⟩ := hr
  exact ⟨rfl, rfl⟩

lemma State.taken_batch {nonces : List ℕ} {entries : List TimelockEntry}
    (he : List.Forall₂ (fun nonce entry => s.timelock.Ripe env nonce entry ∧
      s.multisig.Admits entry.action) nonces entries) :
    s.taken (.executeBatchActions nonces) = nonces.zip entries := by
  simp only [State.taken]
  induction he with
  | nil => rfl
  | cons hhead _ ih => simp [hhead.1.1, ih]

lemma consumeEntry_timelock {nonce : ℕ} {entry : TimelockEntry} {u : Unit}
    (hr : consumeEntry h env nonce entry s = .ok (u, t)) :
    t.timelock = (s.dropEntry nonce).timelock :=
  (applyAction_applied (consumeEntry_ok.mp hr)).timelock

lemma consume_orderly {items : List (ℕ × TimelockEntry)}
    (hs : Orderly TimelockEntry.Due s.timelock.entry (s.timelock.nonce.getD 0) log)
    (hn : (items.map Prod.fst).Nodup)
    (hi : ∀ item ∈ items, s.timelock.entry item.1 = some item.2 ∧ item.2.Due env.timestamp)
    (hr : Tx.forEach (fun item => consumeEntry h env item.1 item.2) items s = .ok ((), t)) :
    Orderly TimelockEntry.Due t.timelock.entry (t.timelock.nonce.getD 0)
      (log ++ items.map fun item => .served item.1 item.2 env.timestamp) := by
  induction items generalizing s log with
  | nil =>
    obtain rfl := Tx.forEach_nil.mp hr
    simpa using hs
  | cons item items ih =>
    obtain ⟨v, hv, hr⟩ := Tx.forEach_cons.mp hr
    have hl := consumeEntry_timelock hv
    obtain ⟨hfresh, hnodup⟩ := List.nodup_cons.mp hn
    obtain ⟨hpending, hdue⟩ := hi item List.mem_cons_self
    have hserved := hs.serve hpending hdue
    have hv' : Orderly TimelockEntry.Due v.timelock.entry (v.timelock.nonce.getD 0)
        (log ++ [.served item.1 item.2 env.timestamp]) := by
      rw [hl]
      exact hserved
    have hrest : ∀ x ∈ items, v.timelock.entry x.1 = some x.2 ∧ x.2.Due env.timestamp := by
      intro x hx
      have hne : x.1 ≠ item.1 := fun he => hfresh (List.mem_map.mpr ⟨x, hx, he⟩)
      obtain ⟨hxp, hxd⟩ := hi x (List.mem_cons_of_mem _ hx)
      exact ⟨by simp [hl, State.dropEntry, hne, hxp], hxd⟩
    have htail := ih hv' hnodup hrest hr
    rwa [List.append_assoc] at htail

lemma TimelockOp.takes {op : TimelockOp} (hr : op.invoke h env s = .ok ((), t))
    (hn : s.taken op ≠ []) :
    s.TimelockOpen h env ∧ ((s.taken op).map Prod.fst).Nodup ∧
      (∀ item ∈ s.taken op, s.timelock.entry item.1 = some item.2 ∧ item.2.Due env.timestamp) ∧
      Tx.forEach (fun item => consumeEntry h env item.1 item.2) (s.taken op) s = .ok ((), t) := by
  cases op with
  | queueAction action => exact absurd rfl hn
  | cancelAction nonce => exact absurd rfl hn
  | executeAction nonce =>
    obtain ⟨hopen, entry, hripe, -, hr⟩ := executeAction_ok.mp hr
    have htaken : s.taken (.executeAction nonce) = [(nonce, entry)] := by
      simp [State.taken, hripe.1]
    rw [htaken]
    refine ⟨hopen, by simp, ?_, by simpa [consumeEntry_ok] using hr⟩
    simpa using ⟨hripe.1, hripe.2.2⟩
  | executeBatchActions nonces =>
    obtain ⟨hopen, hnodup, entries, hripe, hr⟩ := executeBatchActions_ok.mp hr
    rw [State.taken_batch hripe]
    have hlen : nonces.length = entries.length := hripe.length_eq
    refine ⟨hopen, ?_, fun item hi => ?_, hr⟩
    · rwa [List.map_fst_zip hlen.le]
    · have hitem := (List.forall₂_iff_zip.mp hripe).2 hi
      exact ⟨hitem.1.1, hitem.1.2.2⟩

lemma timelock_docketed {op : TimelockOp} (hs : Docketed log s)
    (hr : op.invoke h env s = .ok ((), t)) : Docketed (log ++ s.filings h env op) t := by
  have hadmin : t.access.admin.isSome := by
    obtain ⟨admin, ha, -⟩ := TimelockOp.invoke_admin hr
    apply TimelockOp.invoke_preserves (I := fun s => s.access.admin.isSome) (fun _ _ hs => hs) ?_
      (by simp [ha]) hr
    intro s t action hs ha
    rw [ha.access]
    exact (s.access.apply_admin action hs).1
  refine ⟨?_, Or.inl hadmin⟩
  have htakes : s.taken op ≠ [] → Orderly TimelockEntry.Due t.timelock.entry
      (t.timelock.nonce.getD 0)
      (log ++ (s.taken op).map fun item => .served item.1 item.2 env.timestamp) := by
    intro hn
    obtain ⟨-, hnodup, hdue, hr⟩ := TimelockOp.takes hr hn
    exact consume_orderly hs.orderly hnodup hdue hr
  cases op with
  | queueAction action =>
    obtain ⟨nonce, hr⟩ := Tx.void_ok.mp hr
    obtain ⟨hnonce, ht⟩ := queueAction_ok hr
    have hfiled : s.filings h env (.queueAction action) =
        [.filed nonce ⟨env.timestamp, action⟩] := by
      simp [State.filings, hr]
    rw [hfiled, ht]
    exact hs.orderly.file (by omega) _
  | cancelAction nonce =>
    simp only [TimelockOp.invoke, Router.cancelAction, Tx.bind_unit_ok, asAdmin_ok, Tx.read_bind,
      Tx.reject_ok, modifyTimelock_ok] at hr
    obtain ⟨_, ⟨_, -, -, rfl⟩, _, ⟨hsome, rfl⟩, rfl⟩ := hr
    obtain ⟨entry, he⟩ := Option.ne_none_iff_exists'.mp (by simpa using hsome)
    exact hs.orderly.strike he
  | executeAction nonce =>
    by_cases hn : s.taken (.executeAction nonce) = []
    · obtain ⟨-, entry, hripe, -⟩ := executeAction_ok.mp hr
      simp [State.taken, hripe.1] at hn
    · exact htakes hn
  | executeBatchActions nonces =>
    by_cases hn : s.taken (.executeBatchActions nonces) = []
    · obtain ⟨-, -, entries, hripe, hr⟩ := executeBatchActions_ok.mp hr
      rw [State.taken_batch hripe] at hn
      rw [hn] at hr
      obtain rfl := Tx.forEach_nil.mp hr
      simpa [State.filings, State.taken_batch hripe, hn] using hs.orderly
    · exact htakes hn

lemma step_docketed (call : Call) (hs : Docketed log s) :
    Docketed (log ++ filings h s call) (step h call s) := by
  obtain ⟨env, op⟩ := call
  cases hsucc : Tx.succeeds (op.invoke h env) s with
  | false =>
    have hstep : step h ⟨env, op⟩ s = s := Tx.commit_of_fails hsucc
    have hnone : filings h s ⟨env, op⟩ = [] := by
      cases op with
      | timelock op => exact if_neg (Bool.not_eq_true _ ▸ hsucc)
      | _ => rfl
    rw [hstep, hnone, List.append_nil]
    exact hs
  | true =>
    obtain ⟨t, hr⟩ := Tx.succeeds_unit.mp hsucc
    have hstep : step h ⟨env, op⟩ s = t := Tx.commit_ok hr
    rw [hstep]
    cases op with
    | timelock op =>
      have hfilings : filings h s ⟨env, .timelock op⟩ = s.filings h env op := if_pos hsucc
      rw [hfilings]
      exact timelock_docketed hs hr
    | administer op =>
      have ha := AdminOp.invoke_administered hr
      have hsome : t.access.admin.isSome ∨ log ++ filings h s ⟨env, .administer op⟩ = [] := by
        rcases hs.started with hs | hs
        · left
          rw [ha.access]
          exact admin_isSome_administer _ _ hs
        · exact Or.inr (by simp [hs, filings])
      refine ⟨?_, hsome⟩
      rw [ha.timelock]
      simp only [filings, List.append_nil]
      cases op with
      | initializeRouter admin platformTreasury feeBps feeCap maxAmount =>
        have hnone : s.access.admin = none := ha.authorised.1
        have hlog : log = [] := hs.started.resolve_left (by simp [hnone])
        obtain ⟨hentry, -⟩ := (hlog ▸ hs.orderly).of_nil
        simp only [Timelock.administer, hentry, hlog]
        exact .start
      | _ => exact hs.orderly
    | group op =>
      rw [(GroupOp.invoke_ok hr).2]
      exact ⟨by simpa [filings] using hs.orderly, by simpa [filings] using hs.started⟩
    | _ =>
      have hp := Op.invoke_peripheral (by simp) (by simp) (by simp) hr
      refine ⟨?_, ?_⟩
      · rw [hp.timelock]
        simpa [filings] using hs.orderly
      · rw [hp.access]
        simpa [filings] using hs.started

lemma appliesTaken (call : Call) : AppliesTaken h s call := by
  obtain ⟨env, op⟩ := call
  rintro op rfl hsucc hn
  obtain ⟨t, hr⟩ := Tx.succeeds_unit.mp hsucc
  have hstep : step h ⟨env, .timelock op⟩ s = t := Tx.commit_ok hr
  obtain ⟨hopen, -, -, hr⟩ := TimelockOp.takes hr hn
  exact ⟨hopen.1, hopen.2.1, hstep ▸ hr⟩

lemma consume_entry {items : List (ℕ × TimelockEntry)} (nonce : ℕ)
    (hr : Tx.forEach (fun item => consumeEntry h env item.1 item.2) items s = .ok ((), t)) :
    t.timelock.entry nonce = if nonce ∈ items.map Prod.fst then none else s.timelock.entry nonce := by
  induction items generalizing s with
  | nil =>
    obtain rfl := Tx.forEach_nil.mp hr
    simp
  | cons item items ih =>
    obtain ⟨v, hv, hr⟩ := Tx.forEach_cons.mp hr
    rw [ih hr, consumeEntry_timelock hv]
    simp only [List.map_cons, List.mem_cons, State.dropEntry]
    by_cases hi : nonce = item.1
    · simp [hi]
    · simp only [hi, false_or, ne_eq, not_false_eq_true, Function.update_of_ne]

/-- Nonces are fresh when they are assigned; only pending actions are applied or cancelled, once
each, and applied a day after they were queued, by a contract that is neither frozen nor halted;
a batch takes all its entries or none. -/
theorem timelock_is_orderly (h : Host) (tokens : Ledger Address Address) (calls : List Call) :
    (∀ before event later,
      trace (step h) (filings h) (State.fresh tokens) calls = before ++ event :: later →
        event.Follows TimelockEntry.Due before) ∧
      Along (step h) (AppliesTaken h) (State.fresh tokens) calls ∧
      ∀ env nonces, let s := after h tokens calls
        let t := step h ⟨env, .timelock (.executeBatchActions nonces)⟩ s
        (Tx.succeeds (executeBatchActions h env nonces) s = false → t = s) ∧
          (Tx.succeeds (executeBatchActions h env nonces) s = true → nonces.Nodup ∧
            ∀ nonce, if nonce ∈ nonces then
                (∃ entry, s.timelock.Ripe env nonce entry) ∧ t.timelock.entry nonce = none
              else t.timelock.entry nonce = s.timelock.entry nonce) := by
  have hfresh : Docketed [] (State.fresh tokens) := ⟨.start, Or.inr rfl⟩
  have hdocket := trace_invariant (I := Docketed) (fun _ _ call hs => step_docketed (h := h) call hs)
    hfresh calls
  refine ⟨fun before event later hl => hdocket.orderly.follows hl, ?_, fun env nonces => ?_⟩
  · exact along_of_forall _ (fun _ call => appliesTaken call) _ _
  · refine ⟨fun hfail => Tx.commit_of_fails hfail, fun hsucc => ?_⟩
    obtain ⟨t, hr⟩ := Tx.succeeds_unit.mp hsucc
    have hstep : step h ⟨env, .timelock (.executeBatchActions nonces)⟩ (after h tokens calls) = t :=
      Tx.commit_ok hr
    obtain ⟨-, hnodup, entries, hripe, hr⟩ := executeBatchActions_ok.mp hr
    refine ⟨hnodup, fun nonce => ?_⟩
    rw [hstep, consume_entry nonce hr, List.map_fst_zip hripe.length_eq.le]
    split_ifs with hn
    · have hdue : List.Forall₂ (fun nonce entry => (∃ ripe,
          (after h tokens calls).timelock.Ripe env nonce ripe) ∧ True) nonces entries :=
        hripe.imp fun _ entry he => ⟨⟨entry, he.1⟩, trivial⟩
      exact ⟨((List.forall₂_and_left _ _).mp hdue).1 nonce hn, rfl⟩
    · rfl

end StellarTags.Router
