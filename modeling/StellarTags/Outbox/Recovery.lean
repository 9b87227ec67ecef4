import StellarTags.Outbox.Leases

/-! No message is lost: what is not processed can be claimed again. -/

namespace StellarTags.Outbox

open Library.Runs Library.Tables

variable {config : Config} {w w' : World} {move : Move} {moves : List Move} {out log : List Delivery}
  {i j tick now : ℕ} {worker : Worker} {lease lease' : Lease} {m message : OutboxMessage}
  {todo rest : List OutboxMessage} {id : String}

def Processed (w : World) (id : String) : Prop :=
  ∃ m, find id w.messages = some m ∧ m.status = .processed

/-- A worker publishes the message under a lock that it holds. -/
def Claimed (w : World) (i : ℕ) (id : String) : Prop :=
  ∃ lease m, w.workers i = .publishing lease ∧ lease.message.id = id ∧
    find id w.messages = some m ∧ m.lockOwner = some lease.lockOwner

section Processing

/-- What a worker is about to record was published under its lock. -/
structure Logged (log : List Delivery) (w : World) : Prop where
  sound : Sound w
  logged : ∀ i lease processedAt, w.workers i = .published lease processedAt →
    ⟨i, lease.message.id, lease.lockOwner⟩ ∈ log

lemma logged_start : Logged [] {} where
  sound := sound_start
  logged _ _ _ h := by cases h

lemma Logged.step (h : Logged log w) (he : Effect config w move out w') :
    Logged (log ++ out) w' := by
  refine ⟨h.sound.effect he, fun j lease processedAt hj => List.mem_append.mpr ?_⟩
  have hother {i : ℕ} {worker : Worker} (hworker : ∀ lease t, worker ≠ .published lease t)
      (hj : Function.update w.workers i worker j = .published lease processedAt) :
      (⟨j, lease.message.id, lease.lockOwner⟩ : Delivery) ∈ log := by
    by_cases hji : j = i
    · subst hji
      rw [Function.update_self] at hj
      exact absurd hj (hworker _ _)
    · rw [Function.update_of_ne hji] at hj
      exact h.logged j lease processedAt hj
  cases he with
  | stays => exact .inl (h.logged j lease processedAt hj)
  | inserts => exact .inl (h.logged j lease processedAt hj)
  | waits i worker results hworker =>
    exact .inl (hother (fun lease t heq => by rw [heq] at hworker; cases hworker) hj)
  | claims => exact .inl (hother (by simp) hj)
  | misses => exact .inl (hother (by simp) hj)
  | throws => exact .inl (hother (by simp) hj)
  | processes => exact .inl (hother (by simp) hj)
  | fails => exact .inl (hother (by simp) hj)
  | returns i lease' results hworker =>
    dsimp only at hj
    by_cases hji : j = i
    · subst hji
      rw [Function.update_self] at hj
      obtain ⟨rfl, rfl⟩ := Worker.published.inj hj
      exact .inr (List.mem_singleton_self _)
    · rw [Function.update_of_ne hji] at hj
      exact .inl (h.logged j lease processedAt hj)

/-- The step after which a message is processed is the write of the worker that holds its lock. -/
lemma Effect.processed (he : Effect config w move out w') (hold : ¬ Processed w id)
    (hnew : Processed w' id) :
    ∃ i lease processedAt m, move.action = .resume i ∧ w.workers i = .published lease processedAt ∧
      lease.message.id = id ∧ find id w.messages = some m ∧ m.lockOwner = some lease.lockOwner := by
  obtain ⟨m', hm', hprocessed⟩ := hnew
  cases he with
  | stays => exact absurd ⟨m', hm', hprocessed⟩ hold
  | waits => exact absurd ⟨m', hm', hprocessed⟩ hold
  | misses => exact absurd ⟨m', hm', hprocessed⟩ hold
  | returns => exact absurd ⟨m', hm', hprocessed⟩ hold
  | throws => exact absurd ⟨m', hm', hprocessed⟩ hold
  | inserts id' =>
    rw [find, lookup_insert, Option.or_eq_some_iff] at hm'
    obtain hm' | ⟨-, hm'⟩ := hm'
    · exact absurd ⟨m', hm', hprocessed⟩ hold
    · split_ifs at hm'
      obtain rfl := Option.some.inj hm'
      cases hprocessed
  | claims i tick message rest m results haction hworker hm he =>
    dsimp only at hm'
    rw [find_claim_eq, Option.map_eq_some_iff] at hm'
    obtain ⟨old, hm', rfl⟩ := hm'
    refine absurd ⟨old, hm', ?_⟩ hold
    split_ifs at hprocessed <;> exact hprocessed
  | processes i lease processedAt results haction hworker =>
    dsimp only at hm'
    rw [find_record_eq (markProcessed_id processedAt), Option.map_eq_some_iff] at hm'
    obtain ⟨old, hm', rfl⟩ := hm'
    split_ifs at hprocessed with hcondition
    · rw [Bool.and_eq_true, decide_eq_true_eq, decide_eq_true_eq] at hcondition
      exact ⟨i, lease, processedAt, old, haction, hworker,
        hcondition.1.symm.trans (key_of_lookup hm'), hm', hcondition.2⟩
    · exact absurd ⟨old, hm', hprocessed⟩ hold
  | fails i lease nextAttemptAt error results hworker =>
    dsimp only at hm'
    rw [find_record_eq (markFailed_id nextAttemptAt error), Option.map_eq_some_iff] at hm'
    obtain ⟨old, hm', rfl⟩ := hm'
    split_ifs at hprocessed
    · cases hprocessed
    · exact absurd ⟨old, hm', hprocessed⟩ hold

end Processing

section Recovering

@[simp] lemma setWorker_messages (w : World) (i : ℕ) (worker : Worker) :
    (w.setWorker i worker).messages = w.messages := rfl

@[simp] lemma setWorker_workers (w : World) (i : ℕ) (worker : Worker) :
    (w.setWorker i worker).workers = Function.update w.workers i worker := rfl

@[simp] lemma count_messages (w : World) (i : ℕ) (change : BatchResult → BatchResult) :
    (w.count i change).messages = w.messages := rfl

@[simp] lemma count_workers (w : World) (i : ℕ) (change : BatchResult → BatchResult) :
    (w.count i change).workers = w.workers := rfl

/-- A move of one worker that works on without a fault while the clock shows its tick. -/
def Solo (i tick : ℕ) (move : Move) : Prop :=
  move.now = tick ∧
    (move.action = .poll i ∨ move.action = .resume i ∨ move.action = .returned i)

/-- A worker in the middle of a batch whose other messages, and one more, can be claimed. -/
structure Ready (i tick : ℕ) (id : String) (todo : List OutboxMessage) (w : World) : Prop where
  sound : Sound w
  worker : w.workers i = .claiming tick todo
  nodup : (todo.map OutboxMessage.id).Nodup
  eligible : ∀ m ∈ todo, ∃ m', find m.id w.messages = some m' ∧ eligible tick m' = true
  target : ∃ m, find id w.messages = some m ∧ Outbox.eligible tick m = true

lemma resume_claiming (config : Config) (now : ℕ) (h : Keyed OutboxMessage.id w.messages)
    (hworker : w.workers i = .claiming tick (message :: rest))
    (hm : find message.id w.messages = some m) (he : eligible tick m = true) :
    (w.resume config i now).workers =
        Function.update w.workers i (.publishing ⟨tick, message, w.drawn, now, rest⟩) ∧
      (w.resume config i now).messages = (claim config tick w.drawn message.id w.messages).2 := by
  have hcount : (claim config tick w.drawn message.id w.messages).1 = 1 := by
    rw [claim_fst config tick w.drawn message.id h, hm, Option.any_some, if_pos he]
  simp only [World.resume, hworker, World.tryClaim, if_pos hcount]
  exact ⟨rfl, rfl⟩

lemma claimed_of_claiming (h : Keyed OutboxMessage.id w.messages)
    (hworker : w.workers i = .claiming tick (message :: rest))
    (hm : find message.id w.messages = some m) (he : eligible tick m = true) :
    Claimed (step config ⟨now, .resume i⟩ w) i message.id := by
  obtain ⟨hworkers, hmessages⟩ := resume_claiming config now h hworker hm he
  refine ⟨⟨tick, message, w.drawn, now, rest⟩, { m with
    lockOwner := some w.drawn
    lockedUntil := some (tick + config.leaseMs) }, ?_, rfl, ?_, rfl⟩
  · exact (congrFun hworkers i).trans (Function.update_self _ _ _)
  · exact (congrArg (find message.id) hmessages).trans (find_claim hm he)

def serve (i tick : ℕ) : List Move :=
  [⟨tick, .resume i⟩, ⟨tick, .returned i⟩, ⟨tick, .resume i⟩]

lemma run_serve (config : Config) (h : Keyed OutboxMessage.id w.messages)
    (hworker : w.workers i = .claiming tick (message :: rest))
    (hm : find message.id w.messages = some m) (he : eligible tick m = true) :
    (run (step config) w (serve i tick)).workers i = .claiming tick rest ∧
      (run (step config) w (serve i tick)).messages =
        (record ⟨tick, message, w.drawn, tick, rest⟩ (markProcessed tick)
          (claim config tick w.drawn message.id w.messages).2).2 := by
  obtain ⟨hworkers, hmessages⟩ := resume_claiming config tick h hworker hm he
  have hpublishing := congrFun hworkers i
  rw [Function.update_self] at hpublishing
  have hreturned : step config ⟨tick, .returned i⟩ (w.resume config i tick) =
      (w.resume config i tick).setWorker i
        (.published ⟨tick, message, w.drawn, tick, rest⟩ tick) := by
    simp only [step, hpublishing]
  have hrun : run (step config) w (serve i tick) =
      ((w.resume config i tick).setWorker i
        (.published ⟨tick, message, w.drawn, tick, rest⟩ tick)).resume config i tick :=
    congrArg (World.resume config · i tick) hreturned
  rw [hrun]
  simp only [World.resume, setWorker_workers, Function.update_self, count_workers,
    count_messages, setWorker_messages, true_and]
  rw [← hmessages]
  rfl

lemma not_eligible_of_claim (config : Config) (tick lockOwner : ℕ) (m : OutboxMessage) :
    eligible tick { m with
      lockOwner := some lockOwner
      lockedUntil := some (tick + config.leaseMs) } = false := by
  simp [eligible]

lemma not_eligible_markProcessed (tick processedAt : ℕ) (m : OutboxMessage) :
    eligible tick (markProcessed processedAt m) = false := by
  simp [eligible, markProcessed]

/-- After one message of the batch the others can still be claimed, and fewer messages are left. -/
lemma Ready.serve (config : Config) (h : Ready i tick id (message :: rest) w) (hid : message.id ≠ id) :
    Ready i tick id rest (run (step config) w (serve i tick)) ∧
      (run (step config) w (Outbox.serve i tick)).messages.countP (Outbox.eligible tick) <
        w.messages.countP (Outbox.eligible tick) := by
  obtain ⟨m, hm, he⟩ := h.eligible message (by simp)
  obtain ⟨hworker, hmessages⟩ := run_serve config h.sound.keyed h.worker hm he
  have hother (k : String) (hk : k ≠ message.id) :
      find k (run (step config) w (Outbox.serve i tick)).messages = find k w.messages := by
    rw [hmessages, find_record_of_ne (markProcessed_id tick) hk, find_claim_of_ne hk]
  obtain ⟨hnew, hrest⟩ := List.nodup_cons.mp h.nodup
  refine ⟨⟨h.sound.run _, hworker, hrest, fun m hm => ?_, ?_⟩, ?_⟩
  · obtain ⟨m', hm', he'⟩ := h.eligible m (List.mem_cons_of_mem _ hm)
    have hne : m.id ≠ message.id := fun heq => hnew (heq ▸ List.mem_map_of_mem hm)
    exact ⟨m', (hother m.id hne).trans hm', he'⟩
  · obtain ⟨target, htarget, he'⟩ := h.target
    exact ⟨target, (hother id hid.symm).trans htarget, he'⟩
  · rw [hmessages]
    apply (countP_updateMany_le (fun m _ => not_eligible_markProcessed tick tick m) _).trans_lt
    have hmid : m.id = message.id := key_of_lookup hm
    apply countP_updateMany_lt (fun m _ => not_eligible_of_claim config tick w.drawn m)
      (mem_of_lookup hm) _ he
    simp [hmid, he]

lemma ready_of_idle (config : Config) (h : Sound w) (hworker : w.workers i = .idle)
    (htarget : ∃ m, find id w.messages = some m ∧ eligible tick m = true) :
    ∃ message rest,
      Ready i tick id (message :: rest) (run (step config) w [⟨tick, .poll i⟩, ⟨tick, .resume i⟩]) ∧
        (run (step config) w [⟨tick, .poll i⟩, ⟨tick, .resume i⟩]).messages = w.messages := by
  have hrun : run (step config) w [⟨tick, .poll i⟩, ⟨tick, .resume i⟩] =
      ((w.setWorker i (.finding tick)).count i fun _ => {}).setWorker i
        (.claiming tick (findCandidates config tick w.messages)) := by
    have hpoll : step config ⟨tick, .poll i⟩ w =
        (w.setWorker i (.finding tick)).count i fun _ => {} := if_pos hworker
    rw [run_cons, hpoll, run_cons, run_nil]
    simp only [step, World.resume, setWorker_workers, count_workers, Function.update_self,
      count_messages, setWorker_messages]
  have hmem (m : OutboxMessage) (hm : m ∈ findCandidates config tick w.messages) :
      m ∈ w.messages ∧ eligible tick m = true := by
    have hsorted := List.mem_of_mem_take hm
    rwa [List.mem_insertionSort, List.mem_filter] at hsorted
  have hnodup : ((findCandidates config tick w.messages).map OutboxMessage.id).Nodup := by
    apply List.Nodup.sublist ((List.take_sublist _ _).map _)
    rw [((List.perm_insertionSort _ _).map _).nodup_iff]
    exact h.keyed.sublist ((List.filter_sublist).map _)
  have hne : findCandidates config tick w.messages ≠ [] := by
    obtain ⟨m, hm, he⟩ := htarget
    have hsome : m ∈ (w.messages.filter (eligible tick)).insertionSort candidateOrder := by
      rw [List.mem_insertionSort, List.mem_filter]
      exact ⟨mem_of_lookup hm, he⟩
    intro hnil
    obtain hzero | hempty := List.take_eq_nil_iff.mp hnil
    · exact config.batchSize_pos.ne' hzero
    · rw [hempty] at hsome
      cases hsome
  obtain ⟨message, rest, hcandidates⟩ := List.exists_cons_of_ne_nil hne
  refine ⟨message, rest, ?_, by rw [hrun]; rfl⟩
  rw [hcandidates] at hnodup hmem
  have hsound : Sound (run (step config) w [⟨tick, .poll i⟩, ⟨tick, .resume i⟩]) := h.run _
  rw [hrun, hcandidates] at hsound ⊢
  refine ⟨hsound, Function.update_self _ _ _, hnodup, fun m hm => ?_, htarget⟩
  exact ⟨m, (h.keyed.lookup_eq_some).mpr ⟨(hmem m hm).1, rfl⟩, (hmem m hm).2⟩

/-- A worker gets to a message that can be claimed, through the batches of those before it. -/
lemma Ready.reaches (config : Config) (h : Ready i tick id todo w) :
    ∃ later, (∀ move ∈ later, Solo i tick move) ∧ Claimed (run (step config) w later) i id := by
  have hsolo : ∀ move ∈ Outbox.serve i tick, Solo i tick move := by simp [Outbox.serve, Solo]
  -- on how many messages can be claimed at all
  induction hn : w.messages.countP (Outbox.eligible tick) using Nat.strong_induction_on
    generalizing w todo with
  | _ n ih =>
    have hcons (w : World) (message : OutboxMessage) (rest : List OutboxMessage)
        (h : Ready i tick id (message :: rest) w)
        (hn : w.messages.countP (Outbox.eligible tick) = n) :
        ∃ later, (∀ move ∈ later, Solo i tick move) ∧ Claimed (run (step config) w later) i id := by
      by_cases hid : message.id = id
      · obtain ⟨m, hm, he⟩ := h.eligible message (by simp)
        refine ⟨[⟨tick, .resume i⟩], by simp [Solo], ?_⟩
        rw [← hid]
        exact claimed_of_claiming h.sound.keyed h.worker hm he
      · obtain ⟨hready, hfewer⟩ := h.serve config hid
        obtain ⟨later, hlater, hclaimed⟩ := ih _ (hn ▸ hfewer) hready rfl
        refine ⟨Outbox.serve i tick ++ later, fun move hmove => ?_, ?_⟩
        · exact (List.mem_append.mp hmove).elim (hsolo move) (hlater move)
        · rwa [run, List.foldl_append]
    cases todo with
    | cons message rest => exact hcons w message rest h hn
    | nil =>
      have hstop : step config ⟨tick, .resume i⟩ w = w.setWorker i .idle := by
        simp only [step, World.resume, h.worker]
      have hidle : (step config ⟨tick, .resume i⟩ w).workers i = .idle := by
        rw [hstop, setWorker_workers, Function.update_self]
      have hsame : (step config ⟨tick, .resume i⟩ w).messages = w.messages := by
        rw [hstop, setWorker_messages]
      obtain ⟨message, rest, hready, hmessages⟩ :=
        ready_of_idle config (h.sound.step _) hidle (hsame.symm ▸ h.target)
      obtain ⟨later, hlater, hclaimed⟩ := hcons _ message rest hready (by rw [hmessages, hsame, hn])
      have hpoll : ∀ move ∈ [⟨tick, .resume i⟩, ⟨tick, .poll i⟩, ⟨tick, .resume i⟩],
          Solo i tick move := by simp [Solo]
      refine ⟨[⟨tick, .resume i⟩, ⟨tick, .poll i⟩, ⟨tick, .resume i⟩] ++ later,
        fun move hmove => ?_, ?_⟩
      · exact (List.mem_append.mp hmove).elim (hpoll move) (hlater move)
      · rwa [run, List.foldl_append]

end Recovering

/-- A message is processed after its publish by the worker that holds its lock; one that is not can
be claimed once its backoff and its lock are over, and a restarted worker gets to it. -/
theorem messages_never_lost (config : Config) (moves : List Move) :
    (∀ move id, ¬ Processed (run (step config) {} moves) id →
      Processed (run (step config) {} (moves ++ [move])) id →
      ∃ i lease processedAt m, move.action = .resume i ∧
        (run (step config) {} moves).workers i = .published lease processedAt ∧
        lease.message.id = id ∧ find id (run (step config) {} moves).messages = some m ∧
        m.lockOwner = some lease.lockOwner ∧
        ⟨i, id, lease.lockOwner⟩ ∈ trace (step config) deliveries {} moves) ∧
      ∀ id m tick, find id (run (step config) {} moves).messages = some m →
        m.status ≠ .processed → m.nextAttemptAt ≤ tick →
        (∀ t, m.lockedUntil = some t → t < tick) →
        (∀ i message rest now,
          (run (step config) {} moves).workers i = .claiming tick (message :: rest) →
          message.id = id →
          Claimed (step config ⟨now, .resume i⟩ (run (step config) {} moves)) i id) ∧
        ∀ i now, ∃ later, (∀ move ∈ later, Solo i tick move) ∧
          Claimed (run (step config) (run (step config) {} moves) (⟨now, .crash i⟩ :: later)) i id := by
  have hlogged : Logged (trace (step config) deliveries {} moves) (run (step config) {} moves) :=
    trace_invariant (fun log w move h => h.step (step_effect h.sound.keyed move)) logged_start moves
  refine ⟨fun move id hold hnew => ?_, fun id m tick hm hstatus hnext hlock => ?_⟩
  · rw [run, List.foldl_append] at hnew
    obtain ⟨i, lease, processedAt, m, haction, hworker, rfl, hm, howner⟩ :=
      (step_effect hlogged.sound.keyed move).processed hold hnew
    exact ⟨i, lease, processedAt, m, haction, hworker, rfl, hm, howner,
      hlogged.logged i lease processedAt hworker⟩
  · have he : eligible tick m = true := eligible_iff.mpr ⟨hstatus, hnext, hlock⟩
    refine ⟨fun i message rest now hworker hid => ?_, fun i now => ?_⟩
    · subst hid
      exact claimed_of_claiming hlogged.sound.keyed hworker hm he
    · obtain ⟨message, rest, hready, -⟩ :=
        ready_of_idle (i := i) config (hlogged.sound.step ⟨now, .crash i⟩)
          (Function.update_self _ _ _) ⟨m, hm, he⟩
      obtain ⟨later, hlater, hclaimed⟩ := hready.reaches config
      have hpoll : ∀ move ∈ [⟨tick, .poll i⟩, ⟨tick, .resume i⟩], Solo i tick move := by
        simp [Solo]
      refine ⟨[⟨tick, .poll i⟩, ⟨tick, .resume i⟩] ++ later, fun move hmove => ?_, ?_⟩
      · exact (List.mem_append.mp hmove).elim (hpoll move) (hlater move)
      · rw [← List.cons_append, run, List.foldl_append]
        exact hclaimed

section Examples

/-- A worker claims a message and crashes. -/
def abandoned : List Move :=
  [⟨0, .insert "a"⟩, ⟨0, .poll 0⟩, ⟨0, .resume 0⟩, ⟨0, .resume 0⟩, ⟨5, .crash 0⟩]

theorem abandoned_claimed_again :
    ∃ later, Claimed (run (step tenMs) (run (step tenMs) {} abandoned) (⟨11, .crash 1⟩ :: later))
      1 "a" := by
  have hm : find "a" (run (step tenMs) {} abandoned).messages =
      some { newMessage "a" 0 with
        lockOwner := some 0
        lockedUntil := some 10 } := by decide
  obtain ⟨-, hrecover⟩ := messages_never_lost tenMs abandoned
  obtain ⟨-, hclaimed⟩ := hrecover "a" _ 11 hm (by decide) (by decide) (by decide)
  obtain ⟨later, -, hlater⟩ := hclaimed 1 11
  exact ⟨later, hlater⟩

end Examples

end StellarTags.Outbox
