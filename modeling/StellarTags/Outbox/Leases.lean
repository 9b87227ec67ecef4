import StellarTags.Outbox.Effects

/-! Whether the lease of a message lasts until its worker is done with it. -/

namespace StellarTags.Outbox

open Library.Runs Library.Tables

variable {config : Config} {w w' : World} {move : Move} {moves : List Move} {out log : List Delivery}
  {i j : ℕ} {worker : Worker} {lease lease' : Lease} {m : OutboxMessage} {id : String}

def published (log : List Delivery) (id : String) : ℕ := log.countP (·.id = id)

/-- No worker goes to claim a message by a tick that is past the lease under which another still has
it in hand. -/
def Covered (config : Config) (w : World) (move : Move) : Prop :=
  ∀ i tick message rest, move.action = .resume i → w.workers i = .claiming tick (message :: rest) →
    ∀ j lease, (w.workers j).lease? = some lease → lease.message.id = message.id →
      tick ≤ lease.tick + config.leaseMs

def NoCrash (move : Move) : Prop := ∀ i, move.action ≠ .crash i

def Holds (config : Config) (lease : Lease) (m : OutboxMessage) : Prop :=
  m.lockOwner = some lease.lockOwner ∧ m.lockedUntil = some (lease.tick + config.leaseMs) ∧
    m.status ≠ .processed

/-- What was published is recorded as processed, or is about to be. -/
def Told (w : World) (id : String) : Prop :=
  (∃ m, find id w.messages = some m ∧ m.status = .processed) ∨
    ∃ i lease processedAt, w.workers i = .published lease processedAt ∧ lease.message.id = id

lemma Told.mono (h : Told w id)
    (hmessages : ∀ m, find id w.messages = some m → m.status = .processed →
      ∃ m', find id w'.messages = some m' ∧ m'.status = .processed)
    (hworkers : ∀ i lease processedAt, w.workers i = .published lease processedAt →
      lease.message.id = id → w'.workers i = .published lease processedAt) : Told w' id := by
  obtain ⟨m, hm, hprocessed⟩ | ⟨i, lease, processedAt, hi, hid⟩ := h
  · exact .inl (hmessages m hm hprocessed)
  · exact .inr ⟨i, lease, processedAt, hworkers i lease processedAt hi hid, hid⟩

lemma Told.update {messages : List OutboxMessage} {drawn : ℕ} {results : ℕ → BatchResult}
    (h : Told w id)
    (hmessages : ∀ m, find id w.messages = some m → m.status = .processed → find id messages = some m)
    (hworker : ∀ lease processedAt, w.workers i = .published lease processedAt →
      lease.message.id ≠ id) :
    Told ⟨messages, drawn, Function.update w.workers i worker, results⟩ id := by
  refine h.mono (fun m hm hprocessed => ⟨m, hmessages m hm hprocessed, hprocessed⟩) ?_
  intro j lease processedAt hj hid
  have hne : j ≠ i := by
    rintro rfl
    exact hworker lease processedAt hj hid
  exact (Function.update_of_ne hne _ _).trans hj

structure Exclusive (config : Config) (log : List Delivery) (w : World) : Prop where
  sound : Sound w
  held : ∀ i lease, (w.workers i).lease? = some lease →
    ∃ m, find lease.message.id w.messages = some m ∧ Holds config lease m
  once : ∀ id, published log id ≤ 1
  told : ∀ id, 0 < published log id → Told w id

lemma exclusive_start (config : Config) : Exclusive config [] {} where
  sound := sound_start
  held _ _ h := by cases h
  once _ := Nat.zero_le _
  told _ h := absurd h (Nat.lt_irrefl 0)

section Steps

variable (h : Exclusive config log w)
include h

lemma Exclusive.alone (hi : (w.workers i).lease? = some lease)
    (hj : (w.workers j).lease? = some lease') (hid : lease.message.id = lease'.message.id) :
    i = j := by
  obtain ⟨m, hm, howner, -⟩ := h.held i lease hi
  obtain ⟨m', hm', howner', -⟩ := h.held j lease' hj
  rw [hid, hm'] at hm
  obtain rfl := Option.some.inj hm
  exact h.sound.apart i j lease lease' hi hj (Option.some.inj (howner.symm.trans howner'))

lemma Exclusive.unpublished (hlease : (w.workers i).lease? = some lease)
    (hworker : ∀ lease processedAt, w.workers i ≠ .published lease processedAt) :
    published log lease.message.id = 0 := by
  by_contra hpublished
  obtain ⟨m, hm, hprocessed⟩ | ⟨j, lease', processedAt, hj, hid⟩ :=
    h.told lease.message.id (Nat.pos_of_ne_zero hpublished)
  · obtain ⟨m', hm', -, -, hstatus⟩ := h.held i lease hlease
    rw [hm'] at hm
    exact hstatus (Option.some.inj hm ▸ hprocessed)
  · have hj' : (w.workers j).lease? = some lease' := by rw [hj]; rfl
    obtain rfl := h.alone hlease hj' hid.symm
    exact hworker lease' processedAt hj

lemma Exclusive.of_leases (hsound : Sound w')
    (hleases : ∀ i lease, (w'.workers i).lease? = some lease → (w.workers i).lease? = some lease ∧
      ∀ m, find lease.message.id w.messages = some m → find lease.message.id w'.messages = some m)
    (htold : ∀ id, 0 < published log id → Told w' id) : Exclusive config log w' where
  sound := hsound
  held i lease hlease := by
    obtain ⟨hold, hsame⟩ := hleases i lease hlease
    obtain ⟨m, hm, hholds⟩ := h.held i lease hold
    exact ⟨m, hsame m hm, hholds⟩
  once := h.once
  told := htold

lemma Exclusive.release {messages : List OutboxMessage} {results : ℕ → BatchResult}
    (hlease : (w.workers i).lease? = some lease) (hworker : worker.lease? = none)
    (hsound : Sound ⟨messages, w.drawn, Function.update w.workers i worker, results⟩)
    (hother : ∀ id, id ≠ lease.message.id → find id messages = find id w.messages)
    (htold : 0 < published log lease.message.id →
      ∃ m, find lease.message.id messages = some m ∧ m.status = .processed) :
    Exclusive config log ⟨messages, w.drawn, Function.update w.workers i worker, results⟩ := by
  apply h.of_leases hsound
  · intro j lease' hj
    obtain ⟨rfl, hnew⟩ | ⟨hne, hold⟩ := lease_update hj
    · rw [hworker] at hnew
      cases hnew
    · have hid : lease'.message.id ≠ lease.message.id := fun hid =>
        hne (h.alone hold hlease hid)
      exact ⟨hold, fun m hm => (hother _ hid).trans hm⟩
  · intro id hpublished
    by_cases hid : id = lease.message.id
    · subst hid
      exact .inl (htold hpublished)
    · refine (h.told id hpublished).update (fun m hm _ => (hother id hid).trans hm) ?_
      intro lease' processedAt hi hid'
      rw [hi] at hlease
      exact hid (hid' ▸ congrArg (·.message.id) (Option.some.inj hlease))

lemma Exclusive.claims {tick now : ℕ} {message : OutboxMessage} {rest : List OutboxMessage}
    {results : ℕ → BatchResult} (hcovered : ∀ j lease, (w.workers j).lease? = some lease →
      lease.message.id = message.id → tick ≤ lease.tick + config.leaseMs)
    (hworker : w.workers i = .claiming tick (message :: rest))
    (hm : find message.id w.messages = some m) (he : eligible tick m = true)
    (hsound : Sound ⟨(claim config tick w.drawn message.id w.messages).2, w.drawn + 1,
      Function.update w.workers i (.publishing ⟨tick, message, w.drawn, now, rest⟩), results⟩) :
    Exclusive config log ⟨(claim config tick w.drawn message.id w.messages).2, w.drawn + 1,
      Function.update w.workers i (.publishing ⟨tick, message, w.drawn, now, rest⟩), results⟩ := by
  obtain ⟨hstatus, -, hlock⟩ := eligible_iff.mp he
  -- the lock of a message in hand is not yet over by this tick
  have hfree : ∀ j lease, (w.workers j).lease? = some lease → lease.message.id ≠ message.id := by
    intro j lease hj hid
    obtain ⟨m', hm', -, hlocked, -⟩ := h.held j lease hj
    rw [hid, hm] at hm'
    obtain rfl := Option.some.inj hm'
    have hover := hlock _ hlocked
    have hcover := hcovered j lease hj hid
    omega
  refine ⟨hsound, fun j lease hj => ?_, h.once, fun id hpublished => ?_⟩
  · obtain ⟨rfl, hnew⟩ | ⟨-, hold⟩ := lease_update hj
    · obtain rfl := Option.some.inj hnew
      exact ⟨_, find_claim hm he, rfl, rfl, hstatus⟩
    · obtain ⟨m', hm', hholds⟩ := h.held j lease hold
      exact ⟨m', (find_claim_of_ne (hfree j lease hold)).trans hm', hholds⟩
  · refine (h.told id hpublished).update (fun m' hm' hprocessed => ?_) (by simp [hworker])
    rw [← hm']
    apply find_claim_of_ne
    rintro rfl
    rw [hm] at hm'
    exact hstatus (Option.some.inj hm' ▸ hprocessed)

lemma Exclusive.returns {now : ℕ} {results : ℕ → BatchResult}
    (hworker : w.workers i = .publishing lease)
    (hsound : Sound ⟨w.messages, w.drawn, Function.update w.workers i (.published lease now), results⟩) :
    Exclusive config (log ++ [⟨i, lease.message.id, lease.lockOwner⟩])
      ⟨w.messages, w.drawn, Function.update w.workers i (.published lease now), results⟩ := by
  have hnew : published log lease.message.id = 0 :=
    h.unpublished (by rw [hworker]; rfl) (by simp [hworker])
  have hcount (id : String) : published (log ++ [⟨i, lease.message.id, lease.lockOwner⟩]) id =
      published log id + if lease.message.id = id then 1 else 0 := by
    simp [published, List.countP_cons]
  refine ⟨hsound, fun j lease' hj => ?_, fun id => ?_, fun id hpublished => ?_⟩
  · apply h.held j lease'
    obtain ⟨rfl, hlease⟩ | ⟨-, hold⟩ := lease_update hj
    · rw [hworker]
      exact hlease
    · exact hold
  · rw [hcount]
    split_ifs with hid
    · rw [← hid, hnew]
    · exact h.once id
  · by_cases hid : lease.message.id = id
    · exact .inr ⟨i, lease, now, Function.update_self _ _ _, hid⟩
    · rw [hcount, if_neg hid] at hpublished
      exact (h.told id hpublished).update (fun m hm _ => hm) (by simp [hworker])

/-- A worker that has nothing published in hand does something else. -/
lemma Exclusive.turns {drawn : ℕ} {results : ℕ → BatchResult}
    (hold : ∀ lease processedAt, w.workers i ≠ .published lease processedAt)
    (hworker : ∀ lease, worker.lease? = some lease → (w.workers i).lease? = some lease)
    (hsound : Sound ⟨w.messages, drawn, Function.update w.workers i worker, results⟩) :
    Exclusive config log ⟨w.messages, drawn, Function.update w.workers i worker, results⟩ := by
  apply h.of_leases hsound
  · exact fun j lease hj => ⟨leases_of_update hworker j lease hj, fun m hm => hm⟩
  · exact fun id hpublished => (h.told id hpublished).update (fun m hm _ => hm)
      fun lease processedAt hi => absurd hi (hold lease processedAt)

lemma Exclusive.step (hcrash : NoCrash move) (hcovered : Covered config w move)
    (he : Effect config w move out w') : Exclusive config (log ++ out) w' := by
  have hsound := h.sound.effect he
  cases he with
  | stays results =>
    rw [List.append_nil]
    exact h.of_leases hsound (fun _ _ hlease => ⟨hlease, fun _ hm => hm⟩) fun id hid =>
      (h.told id hid).mono (fun m hm hprocessed => ⟨m, hm, hprocessed⟩) fun _ _ _ hj _ => hj
  | inserts id results =>
    rw [List.append_nil]
    have hkeep (id' : String) (m : OutboxMessage) (hm : find id' w.messages = some m) :
        find id' (insert OutboxMessage.id (newMessage id move.now) w.messages) = some m :=
      lookup_insert_of_some hm _
    exact h.of_leases hsound (fun _ _ hlease => ⟨hlease, fun m => hkeep _ m⟩) fun id hid =>
      (h.told id hid).mono (fun m hm hprocessed => ⟨m, hkeep _ m hm, hprocessed⟩)
        fun _ _ _ hj _ => hj
  | waits i worker results hworker hold =>
    rw [List.append_nil]
    have hnone := hold.resolve_right (hcrash i)
    apply h.turns _ _ hsound
    · intro lease processedAt hi
      rw [hi] at hnone
      cases hnone
    · simp [hworker]
  | misses i tick message rest results hworker =>
    rw [List.append_nil]
    exact h.turns (by simp [hworker]) (by simp [Worker.lease?]) hsound
  | throws i lease nextAttemptAt error results hworker =>
    rw [List.append_nil]
    exact h.turns (by simp [hworker]) (by simp [Worker.lease?, hworker]) hsound
  | claims i tick message rest m results haction hworker hm he =>
    rw [List.append_nil]
    exact h.claims (hcovered i tick message rest haction hworker) hworker hm he hsound
  | returns i lease results hworker => exact h.returns hworker hsound
  | processes i lease processedAt results haction hworker =>
    rw [List.append_nil]
    have hlease : (w.workers i).lease? = some lease := by rw [hworker]; rfl
    obtain ⟨m, hm, howner, -, -⟩ := h.held i lease hlease
    exact h.release hlease rfl hsound (fun id hid => find_record_of_ne (markProcessed_id processedAt) hid)
      fun _ => ⟨_, find_record (markProcessed_id processedAt) hm howner, rfl⟩
  | fails i lease nextAttemptAt error results hworker =>
    rw [List.append_nil]
    have hlease : (w.workers i).lease? = some lease := by rw [hworker]; rfl
    exact h.release hlease rfl hsound (fun id hid => find_record_of_ne (markFailed_id nextAttemptAt error) hid)
      fun hpublished => absurd (h.unpublished hlease (by simp [hworker])) hpublished.ne'

end Steps

section Examples

/-- The lease under which a publisher comes back. -/
def ending (w : World) (move : Move) : Option Lease :=
  match move.action with
  | .returned i | .threw i _ =>
    match w.workers i with
    | .publishing lease => some lease
    | _ => none
  | _ => none

/-- A publisher comes back in less than the time of a lease. -/
def Prompt (config : Config) (w : World) (move : Move) : Prop :=
  ∀ lease ∈ ending w move, move.now < lease.since + config.leaseMs

instance (config : Config) (w : World) (move : Move) : Decidable (Prompt config w move) :=
  inferInstanceAs (Decidable (∀ lease ∈ ending w move, _))

def tenMs : Config := ⟨25, 10, by decide, by decide⟩

def oneMessage : List Move :=
  [⟨0, .insert "a"⟩, ⟨0, .poll 0⟩, ⟨0, .resume 0⟩, ⟨0, .resume 0⟩, ⟨9, .returned 0⟩]

/-- Two messages in one batch; another worker finds the second one when the lease is over. -/
def lateBatch : List Move :=
  [⟨0, .insert "a"⟩, ⟨0, .insert "b"⟩, ⟨0, .poll 0⟩, ⟨0, .resume 0⟩, ⟨0, .resume 0⟩,
    ⟨9, .returned 0⟩, ⟨9, .resume 0⟩, ⟨9, .resume 0⟩, ⟨11, .poll 1⟩, ⟨11, .resume 1⟩,
    ⟨11, .resume 1⟩, ⟨12, .returned 1⟩, ⟨17, .returned 0⟩]

end Examples

end StellarTags.Outbox
