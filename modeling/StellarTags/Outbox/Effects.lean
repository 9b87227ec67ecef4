import StellarTags.Outbox.Worker

/-! What a step of the outbox can do, and whose lock is whose. -/

namespace StellarTags.Outbox

open Library.Runs Library.Tables

variable {config : Config} {w w' : World} {move : Move} {out : List Delivery} {i j tick now : ℕ}
  {worker : Worker} {lease lease' : Lease} {m message : OutboxMessage} {rest : List OutboxMessage}
  {messages : List OutboxMessage} {id : String}

def Worker.lease? : Worker → Option Lease
  | .publishing lease | .published lease _ | .failed lease _ _ => some lease
  | _ => none

abbrev find (id : String) (messages : List OutboxMessage) : Option OutboxMessage :=
  lookup OutboxMessage.id id messages

section Tables

variable {tick lockOwner : ℕ} {change : OutboxMessage → OutboxMessage}

lemma eligible_iff : eligible tick m = true ↔
    m.status ≠ .processed ∧ m.nextAttemptAt ≤ tick ∧ ∀ t, m.lockedUntil = some t → t < tick := by
  unfold eligible
  cases hstatus : m.status <;> cases hlock : m.lockedUntil <;> simp

lemma claim_fst (config : Config) (tick lockOwner : ℕ) (id : String)
    (h : Keyed OutboxMessage.id messages) :
    (claim config tick lockOwner id messages).1 =
      if (find id messages).any (eligible tick) then 1 else 0 := by
  have hid : ∀ m : OutboxMessage, (decide (m.id = id) && eligible tick m) = true → m.id = id := by
    simp +contextual
  rw [claim, h.updateMany_fst hid]
  cases hfind : find id messages with
  | none => simp only [hfind, Option.any_none]
  | some m =>
    have hid : m.id = id := key_of_lookup hfind
    simp only [hfind, Option.any_some, hid, decide_true, Bool.true_and]

lemma find_claim_eq (k : String) : find k (claim config tick lockOwner id messages).2 =
    (find k messages).map fun m =>
      if (decide (m.id = id) && eligible tick m) = true then { m with
        lockOwner := some lockOwner
        lockedUntil := some (tick + config.leaseMs) } else m :=
  lookup_updateMany (by intro m _; rfl) k messages

lemma find_claim_of_ne {k : String} (hk : k ≠ id) :
    find k (claim config tick lockOwner id messages).2 = find k messages :=
  lookup_updateMany_of_ne (k := id) (fun _ _ => rfl) (by simp +contextual) hk

lemma find_claim (hm : find id messages = some m) (he : eligible tick m = true) :
    find id (claim config tick lockOwner id messages).2 = some { m with
      lockOwner := some lockOwner
      lockedUntil := some (tick + config.leaseMs) } :=
  lookup_updateMany_self (fun _ _ => rfl) hm (by simp [he, show m.id = id from key_of_lookup hm])

@[simp] lemma markProcessed_id (processedAt : ℕ) (m : OutboxMessage) :
    (markProcessed processedAt m).id = m.id := rfl

@[simp] lemma markFailed_id (nextAttemptAt : ℕ) (error : String) (m : OutboxMessage) :
    (markFailed nextAttemptAt error m).id = m.id := rfl

lemma keyed_claim (h : Keyed OutboxMessage.id messages) :
    Keyed OutboxMessage.id (claim config tick lockOwner id messages).2 :=
  h.updateMany fun _ _ => rfl

lemma find_record_eq (hchange : ∀ m, (change m).id = m.id) (k : String) :
    find k (record lease change messages).2 = (find k messages).map fun m =>
      if (decide (m.id = lease.message.id) && decide (m.lockOwner = some lease.lockOwner)) = true
        then change m else m :=
  lookup_updateMany (fun m _ => hchange m) k messages

lemma find_record_of_ne {k : String} (hchange : ∀ m, (change m).id = m.id)
    (hk : k ≠ lease.message.id) : find k (record lease change messages).2 = find k messages :=
  lookup_updateMany_of_ne (k := lease.message.id) (fun m _ => hchange m) (by simp +contextual) hk

lemma find_record (hchange : ∀ m, (change m).id = m.id)
    (hm : find lease.message.id messages = some m) (howner : m.lockOwner = some lease.lockOwner) :
    find lease.message.id (record lease change messages).2 = some (change m) :=
  lookup_updateMany_self (fun m _ => hchange m) hm
    (by simp [howner, show m.id = lease.message.id from key_of_lookup hm])

lemma keyed_record (h : Keyed OutboxMessage.id messages) (hchange : ∀ m, (change m).id = m.id) :
    Keyed OutboxMessage.id (record lease change messages).2 :=
  h.updateMany fun m _ => hchange m

end Tables

/-- What a step publishes, and what it makes of the messages, the tokens and the workers. -/
inductive Effect (config : Config) (w : World) (move : Move) : List Delivery → World → Prop
  | stays (results) : Effect config w move [] ⟨w.messages, w.drawn, w.workers, results⟩
  | inserts (id : String) (results) :
    Effect config w move []
      ⟨insert OutboxMessage.id (newMessage id move.now) w.messages, w.drawn, w.workers, results⟩
  | waits (i : ℕ) (worker : Worker) (results) (hworker : worker.lease? = none)
    (hold : (w.workers i).lease? = none ∨ move.action = .crash i) :
    Effect config w move [] ⟨w.messages, w.drawn, Function.update w.workers i worker, results⟩
  | claims (i tick : ℕ) (message : OutboxMessage) (rest : List OutboxMessage) (m : OutboxMessage)
    (results) (haction : move.action = .resume i)
    (hworker : w.workers i = .claiming tick (message :: rest))
    (hm : find message.id w.messages = some m) (he : eligible tick m = true) :
    Effect config w move []
      ⟨(claim config tick w.drawn message.id w.messages).2, w.drawn + 1,
        Function.update w.workers i (.publishing ⟨tick, message, w.drawn, move.now, rest⟩), results⟩
  | misses (i tick : ℕ) (message : OutboxMessage) (rest : List OutboxMessage) (results)
    (hworker : w.workers i = .claiming tick (message :: rest)) :
    Effect config w move []
      ⟨w.messages, w.drawn + 1, Function.update w.workers i (.claiming tick rest), results⟩
  | returns (i : ℕ) (lease : Lease) (results) (hworker : w.workers i = .publishing lease) :
    Effect config w move [⟨i, lease.message.id, lease.lockOwner⟩]
      ⟨w.messages, w.drawn, Function.update w.workers i (.published lease move.now), results⟩
  | throws (i : ℕ) (lease : Lease) (nextAttemptAt : ℕ) (error : String) (results)
    (hworker : w.workers i = .publishing lease) :
    Effect config w move []
      ⟨w.messages, w.drawn, Function.update w.workers i (.failed lease nextAttemptAt error), results⟩
  | processes (i : ℕ) (lease : Lease) (processedAt : ℕ) (results)
    (haction : move.action = .resume i) (hworker : w.workers i = .published lease processedAt) :
    Effect config w move []
      ⟨(record lease (markProcessed processedAt) w.messages).2, w.drawn,
        Function.update w.workers i (.claiming lease.tick lease.rest), results⟩
  | fails (i : ℕ) (lease : Lease) (nextAttemptAt : ℕ) (error : String) (results)
    (hworker : w.workers i = .failed lease nextAttemptAt error) :
    Effect config w move []
      ⟨(record lease (markFailed nextAttemptAt error) w.messages).2, w.drawn,
        Function.update w.workers i (.claiming lease.tick lease.rest), results⟩

lemma resume_effect (h : Keyed OutboxMessage.id w.messages) (i now : ℕ) :
    Effect config w ⟨now, .resume i⟩ [] (w.resume config i now) := by
  unfold World.resume
  cases hworker : w.workers i with
  | idle => exact .stays w.results
  | publishing lease => exact .stays w.results
  | finding tick => exact .waits i _ _ rfl (.inl (by rw [hworker]; rfl))
  | claiming tick candidates =>
    cases candidates with
    | nil => exact .waits i _ _ rfl (.inl (by rw [hworker]; rfl))
    | cons message rest =>
      have hcount := claim_fst config tick w.drawn message.id h
      simp only [World.tryClaim]
      by_cases hany : (find message.id w.messages).any (eligible tick) = true
      · obtain ⟨m, hm, he⟩ := (Option.any_eq_true _ _).mp hany
        rw [if_pos (hcount.trans (if_pos hany))]
        exact .claims i tick message rest m _ rfl hworker hm he
      · have hzero := hcount.trans (if_neg hany)
        have hsame : (claim config tick w.drawn message.id w.messages).2 = w.messages :=
          updateMany_of_fst_eq_zero hzero
        rw [hzero, if_neg (by decide), hsame]
        exact .misses i tick message rest _ hworker
  | published lease processedAt => exact .processes i lease processedAt _ rfl hworker
  | failed lease nextAttemptAt error => exact .fails i lease nextAttemptAt error _ hworker

lemma step_effect (h : Keyed OutboxMessage.id w.messages) (move : Move) :
    Effect config w move (deliveries w move) (step config move w) := by
  obtain ⟨now, action⟩ := move
  cases action with
  | insert id => exact .inserts id _
  | poll i =>
    simp only [step, deliveries]
    split_ifs with hidle
    · exact .waits i _ _ rfl (.inl (by rw [hidle]; rfl))
    · exact .stays _
  | resume i => exact resume_effect h i now
  | returned i =>
    simp only [step, deliveries]
    cases hworker : w.workers i with
    | publishing lease => exact .returns i lease _ hworker
    | _ => exact .stays _
  | threw i error =>
    simp only [step, deliveries]
    cases hworker : w.workers i with
    | publishing lease => exact .throws i lease _ error _ hworker
    | _ => exact .stays _
  | crash i => exact .waits i _ _ rfl (.inr rfl)

section Locks

/-- Messages are told apart by their ids, and workers by their tokens. -/
structure Sound (w : World) : Prop where
  keyed : Keyed OutboxMessage.id w.messages
  fresh : ∀ i lease, (w.workers i).lease? = some lease → lease.lockOwner < w.drawn
  apart : ∀ i j lease lease', (w.workers i).lease? = some lease →
    (w.workers j).lease? = some lease' → lease.lockOwner = lease'.lockOwner → i = j

lemma lease_update {workers : ℕ → Worker}
    (h : (Function.update workers i worker j).lease? = some lease) :
    j = i ∧ worker.lease? = some lease ∨ j ≠ i ∧ (workers j).lease? = some lease := by
  by_cases hj : j = i
  · subst hj
    rw [Function.update_self] at h
    exact .inl ⟨rfl, h⟩
  · rw [Function.update_of_ne hj] at h
    exact .inr ⟨hj, h⟩

lemma sound_start : Sound {} where
  keyed := keyed_nil
  fresh _ _ h := by cases h
  apart _ _ _ _ h := by cases h

lemma Sound.of_leases (h : Sound w) (hkeyed : Keyed OutboxMessage.id w'.messages)
    (hdrawn : w.drawn ≤ w'.drawn)
    (hleases : ∀ i lease, (w'.workers i).lease? = some lease → (w.workers i).lease? = some lease) :
    Sound w' where
  keyed := hkeyed
  fresh i lease hlease := (h.fresh i lease (hleases i lease hlease)).trans_le hdrawn
  apart i j lease lease' hi hj := h.apart i j lease lease' (hleases i lease hi) (hleases j lease' hj)

lemma leases_of_update {workers : ℕ → Worker} (hworker : ∀ lease, worker.lease? = some lease →
      (workers i).lease? = some lease) (j : ℕ) (lease : Lease)
    (h : (Function.update workers i worker j).lease? = some lease) :
    (workers j).lease? = some lease := by
  obtain ⟨rfl, hnew⟩ | ⟨-, hold⟩ := lease_update h
  · exact hworker lease hnew
  · exact hold

lemma Sound.effect (h : Sound w) (he : Effect config w move out w') : Sound w' := by
  cases he with
  | stays => exact h.of_leases h.keyed le_rfl fun _ _ h => h
  | inserts id => exact h.of_leases (h.keyed.insert _) le_rfl fun _ _ h => h
  | waits i worker results hworker hold =>
    exact h.of_leases h.keyed le_rfl (leases_of_update (by simp [hworker]))
  | misses i tick message rest results hworker =>
    exact h.of_leases h.keyed (Nat.le_succ _) (leases_of_update (by simp [Worker.lease?]))
  | returns i lease results hworker =>
    exact h.of_leases h.keyed le_rfl (leases_of_update (by simp [Worker.lease?, hworker]))
  | throws i lease nextAttemptAt error results hworker =>
    exact h.of_leases h.keyed le_rfl (leases_of_update (by simp [Worker.lease?, hworker]))
  | processes i lease processedAt results haction hworker =>
    exact h.of_leases (keyed_record h.keyed (markProcessed_id processedAt)) le_rfl
      (leases_of_update (by simp [Worker.lease?]))
  | fails i lease nextAttemptAt error results hworker =>
    exact h.of_leases (keyed_record h.keyed (markFailed_id nextAttemptAt error)) le_rfl
      (leases_of_update (by simp [Worker.lease?]))
  | claims i tick message rest m results haction hworker hm he =>
    refine ⟨keyed_claim h.keyed, fun j lease hj => ?_, fun j k lease lease' hj hk heq => ?_⟩
    · obtain ⟨rfl, hnew⟩ | ⟨-, hold⟩ := lease_update hj
      · obtain rfl := Option.some.inj hnew
        exact Nat.lt_succ_self _
      · exact (h.fresh j lease hold).trans (Nat.lt_succ_self _)
    · obtain ⟨rfl, hnew⟩ | ⟨-, hold⟩ := lease_update hj <;>
        obtain ⟨rfl, hnew'⟩ | ⟨-, hold'⟩ := lease_update hk
      · rfl
      · obtain rfl := Option.some.inj hnew
        exact absurd heq.symm (h.fresh k lease' hold').ne
      · obtain rfl := Option.some.inj hnew'
        exact absurd heq (h.fresh j lease hold).ne
      · exact h.apart j k lease lease' hold hold' heq

lemma Sound.step (h : Sound w) (move : Move) : Sound (Outbox.step config move w) :=
  h.effect (step_effect h.keyed move)

lemma Sound.run (h : Sound w) (moves : List Move) : Sound (run (Outbox.step config) w moves) :=
  run_invariant (P := fun _ _ => True) (fun _ move h _ => h.step move) h
    (along_of_forall _ (fun _ _ => trivial) _ _)

end Locks

end StellarTags.Outbox
