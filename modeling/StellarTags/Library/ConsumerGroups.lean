import StellarTags.Library.Runs
import Mathlib.Data.List.Nodup

/-! Streams that the workers of a group share: every entry is handed to one of them, who acknowledges it or
does not. -/

namespace StellarTags.Library.ConsumerGroups

open Runs

section Model

/-- Entries are numbered in the order in which they came. -/
structure Group (ε : Type) where
  entries : List ε := []
  /-- How many entries have been trimmed. -/
  trimmed : ℕ := 0
  /-- The entries before this one will not be handed out any more. -/
  delivered : ℕ := 0
  /-- Handed out and not acknowledged. -/
  pending : List ℕ := []
  /-- What a worker has still to take up. -/
  batches : ℕ → List ℕ := fun _ => []
  /-- What a worker is at. -/
  current : ℕ → Option ℕ := fun _ => none

inductive Move (ε : Type)
  | add (entry : ε)
  | trim (count : ℕ)
  | read (worker count : ℕ)
  /-- Entries are handed out and the worker never hears of it. -/
  | lost (count : ℕ)
  | take (worker : ℕ)
  | ack (worker : ℕ)
  | leave (worker : ℕ)
  | crash (worker : ℕ)

inductive Event
  | handed (id : ℕ)
  | taken (id : ℕ)
  | acked (id : ℕ)
  deriving DecidableEq

variable {ε : Type}

namespace Group

variable (g : Group ε)

def start : ℕ := max g.delivered g.trimmed

/-- The entries that are handed out next. -/
def fresh (count : ℕ) : List ℕ := List.range' g.start (min count (g.entries.length - g.start))

def handOut (count : ℕ) : Group ε :=
  { g with delivered := g.start + (g.fresh count).length, pending := g.pending ++ g.fresh count }

def setBatch (worker : ℕ) (batch : List ℕ) : Group ε :=
  { g with batches := Function.update g.batches worker batch }

def setCurrent (worker : ℕ) (id : Option ℕ) : Group ε :=
  { g with current := Function.update g.current worker id }

/-- What a worker takes up next, and what is left to it then. -/
def next (worker : ℕ) : Option (ℕ × List ℕ) :=
  match g.current worker, g.batches worker with
  | none, id :: rest => some (id, rest)
  | _, _ => none

lemma batches_setBatch (worker w : ℕ) (batch : List ℕ) :
    (g.setBatch worker batch).batches w = if w = worker then batch else g.batches w :=
  Function.update_apply ..

lemma current_setCurrent (worker w : ℕ) (id : Option ℕ) :
    (g.setCurrent worker id).current w = if w = worker then id else g.current w :=
  Function.update_apply ..

lemma next_eq_some {g : Group ε} {worker id : ℕ} {rest : List ℕ} :
    g.next worker = some (id, rest) ↔ g.current worker = none ∧ g.batches worker = id :: rest := by
  rw [next.eq_def]
  cases g.current worker with
  | some => simp
  | none => cases g.batches worker <;> simp

end Group

/-- A worker reads when it has nothing left to do. -/
def step (move : Move ε) (g : Group ε) : Group ε :=
  match move with
  | .add entry => { g with entries := g.entries ++ [entry] }
  | .trim count => { g with trimmed := max g.trimmed (min count g.entries.length) }
  | .read worker count =>
    if g.batches worker = [] then (g.handOut count).setBatch worker (g.fresh count) else g
  | .lost count => g.handOut count
  | .take worker =>
    match g.next worker with
    | none => g
    | some (id, rest) => (g.setBatch worker rest).setCurrent worker (some id)
  | .ack worker =>
    match g.current worker with
    | none => g
    | some id => { g.setCurrent worker none with pending := g.pending.filter (· ≠ id) }
  | .leave worker => g.setCurrent worker none
  | .crash worker => (g.setBatch worker []).setCurrent worker none

def emit (g : Group ε) (move : Move ε) : List Event :=
  match move with
  | .read worker count => if g.batches worker = [] then (g.fresh count).map .handed else []
  | .lost count => (g.fresh count).map .handed
  | .take worker => ((g.next worker).map fun p => .taken p.1).toList
  | .ack worker => ((g.current worker).map .acked).toList
  | .add _ | .trim _ | .leave _ | .crash _ => []

section Updates

variable {g : Group ε} {worker id : ℕ} {rest : List ℕ} (k : ℕ)

lemma current_take (h : g.next worker = some (id, rest)) :
    (step (.take worker) g).current k = if k = worker then some id else g.current k := by
  rw [step, h]
  exact Group.current_setCurrent ..

lemma emit_take (h : g.next worker = some (id, rest)) :
    emit g (.take worker) = [.taken id] := by
  rw [emit, h]
  rfl

lemma emit_ack (h : g.current worker = some id) : emit g (.ack worker) = [.acked id] := by
  rw [emit, h]
  rfl

lemma current_ack : (step (.ack worker) g).current k = if k = worker then none else g.current k := by
  rw [step.eq_def]
  cases hcurrent : g.current worker with
  | none =>
    simp only [hcurrent]
    split_ifs with hk
    · rw [hk, hcurrent]
    · rfl
  | some id =>
    simp only [hcurrent]
    exact Group.current_setCurrent ..

lemma current_leave : (step (.leave worker) g).current k = if k = worker then none else g.current k :=
  Group.current_setCurrent ..

lemma current_crash : (step (.crash worker) g).current k = if k = worker then none else g.current k :=
  Group.current_setCurrent ..

end Updates

end Model

section Safety

variable {ε : Type} {g : Group ε} {log : List Event}

/-- The entries that were handed out, that were taken up, and that were acknowledged, in order. -/
def handedOf (log : List Event) : List ℕ :=
  log.filterMap fun | .handed id => some id | _ => none

def takenOf (log : List Event) : List ℕ :=
  log.filterMap fun | .taken id => some id | _ => none

def ackedOf (log : List Event) : List ℕ :=
  log.filterMap fun | .acked id => some id | _ => none

/-- What holds however many workers read, fail and start again: every entry is handed out once at most,
and is taken up once at most, by whom it was handed to. -/
structure Orderly (log : List Event) (g : Group ε) : Prop where
  handed_nodup : (handedOf log).Nodup
  handed_lt : ∀ id ∈ handedOf log, id < g.delivered
  delivered_le : g.delivered ≤ g.entries.length
  trimmed_le : g.trimmed ≤ g.entries.length
  taken_nodup : (takenOf log).Nodup
  taken_handed : ∀ id ∈ takenOf log, id ∈ handedOf log
  acked_taken : ∀ id ∈ ackedOf log, id ∈ takenOf log
  current_taken : ∀ worker id, g.current worker = some id → id ∈ takenOf log
  batch_nodup : ∀ worker, (g.batches worker).Nodup
  batch_handed : ∀ worker, ∀ id ∈ g.batches worker, id ∈ handedOf log ∧ id ∉ takenOf log
  batch_apart : ∀ worker other, worker ≠ other → ∀ id ∈ g.batches worker, id ∉ g.batches other
  pending_iff : ∀ id, id ∈ g.pending ↔ id ∈ handedOf log ∧ id ∉ ackedOf log

variable {worker count id : ℕ} {batch rest : List ℕ}

section Logs

variable (a b : List Event) (l : List ℕ)

@[simp] lemma handedOf_append : handedOf (a ++ b) = handedOf a ++ handedOf b := List.filterMap_append

@[simp] lemma takenOf_append : takenOf (a ++ b) = takenOf a ++ takenOf b := List.filterMap_append

@[simp] lemma ackedOf_append : ackedOf (a ++ b) = ackedOf a ++ ackedOf b := List.filterMap_append

@[simp] lemma handedOf_map : handedOf (l.map .handed) = l := by
  rw [handedOf, List.filterMap_map]
  exact List.filterMap_some

@[simp] lemma takenOf_map : takenOf (l.map .handed) = [] := by
  rw [takenOf, List.filterMap_map]
  exact List.filterMap_eq_nil_iff.mpr fun _ _ => rfl

@[simp] lemma ackedOf_map : ackedOf (l.map .handed) = [] := by
  rw [ackedOf, List.filterMap_map]
  exact List.filterMap_eq_nil_iff.mpr fun _ _ => rfl

end Logs

lemma mem_fresh : id ∈ g.fresh count ↔ g.start ≤ id ∧ id < g.start + (g.fresh count).length := by
  rw [Group.fresh, List.mem_range'_1, List.length_range']

namespace Orderly

lemma init : Orderly [] ({} : Group ε) where
  handed_nodup := List.nodup_nil
  handed_lt _ h := absurd h List.not_mem_nil
  delivered_le := Nat.le_refl 0
  trimmed_le := Nat.le_refl 0
  taken_nodup := List.nodup_nil
  taken_handed _ h := absurd h List.not_mem_nil
  acked_taken _ h := absurd h List.not_mem_nil
  current_taken _ _ h := absurd h (Option.some_ne_none _).symm
  batch_nodup _ := List.nodup_nil
  batch_handed _ _ h := absurd h List.not_mem_nil
  batch_apart _ _ _ _ h := absurd h List.not_mem_nil
  pending_iff _ := iff_of_false List.not_mem_nil fun h => absurd h.1 List.not_mem_nil

lemma not_handed_of_fresh (h : Orderly log g) (hid : id ∈ g.fresh count) : id ∉ handedOf log := by
  intro hmem
  have hlt := h.handed_lt id hmem
  exact absurd (Nat.lt_of_le_of_lt (mem_fresh.mp hid).1 hlt) (Nat.not_lt.mpr (Nat.le_max_left ..))

lemma handOut (h : Orderly log g) (count : ℕ) :
    Orderly (log ++ (g.fresh count).map .handed) (g.handOut count) := by
  have hstart : g.start ≤ g.entries.length := Nat.max_le.mpr ⟨h.delivered_le, h.trimmed_le⟩
  have hdelivered : g.delivered ≤ g.start + (g.fresh count).length :=
    Nat.le_trans (Nat.le_max_left ..) (Nat.le_add_right ..)
  have hmore : ∀ id ∈ handedOf log, id ∈ handedOf (log ++ (g.fresh count).map .handed) := by
    intro id hid
    rw [handedOf_append]
    exact List.mem_append_left _ hid
  have htaken : takenOf (log ++ (g.fresh count).map .handed) = takenOf log := by
    rw [takenOf_append, takenOf_map, List.append_nil]
  have hacked : ackedOf (log ++ (g.fresh count).map .handed) = ackedOf log := by
    rw [ackedOf_append, ackedOf_map, List.append_nil]
  refine ⟨?_, ?_, ?_, h.trimmed_le, htaken ▸ h.taken_nodup, ?_, ?_, htaken ▸ h.current_taken,
    h.batch_nodup, ?_, h.batch_apart, ?_⟩
  · rw [handedOf_append, handedOf_map]
    refine List.nodup_append.mpr ⟨h.handed_nodup, List.nodup_range', ?_⟩
    rintro a ha _ hb rfl
    exact h.not_handed_of_fresh hb ha
  · intro id hid
    rw [handedOf_append, handedOf_map] at hid
    obtain hid | hid := List.mem_append.mp hid
    · exact Nat.lt_of_lt_of_le (h.handed_lt id hid) hdelivered
    · exact (mem_fresh.mp hid).2
  · change g.start + (g.fresh count).length ≤ g.entries.length
    rw [Group.fresh, List.length_range']
    omega
  · intro id hid
    rw [htaken] at hid
    exact hmore id (h.taken_handed id hid)
  · rw [htaken, hacked]
    exact h.acked_taken
  · intro worker id hid
    obtain ⟨hhanded, hnew⟩ := h.batch_handed worker id hid
    rw [htaken]
    exact ⟨hmore id hhanded, hnew⟩
  · intro id
    change id ∈ g.pending ++ g.fresh count ↔ _
    rw [hacked, handedOf_append, handedOf_map, List.mem_append, List.mem_append, h.pending_iff,
      or_and_right]
    refine or_congr_right ⟨fun hid => ⟨hid, fun hmem => ?_⟩, And.left⟩
    exact h.not_handed_of_fresh hid (h.taken_handed id (h.acked_taken id hmem))

/-- A worker's batch becomes any part of what it was, or entries that nobody has. -/
lemma setBatch (h : Orderly log g) (hbatch : batch.Nodup)
    (hhanded : ∀ id ∈ batch, id ∈ handedOf log ∧ id ∉ takenOf log)
    (hapart : ∀ other, worker ≠ other → ∀ id ∈ batch, id ∉ g.batches other) :
    Orderly log (g.setBatch worker batch) := by
  refine { h with
    batch_nodup := fun w => ?_
    batch_handed := fun w => ?_
    batch_apart := fun v w hvw id hid => ?_ }
  · rw [g.batches_setBatch]
    split_ifs
    · exact hbatch
    · exact h.batch_nodup w
  · rw [g.batches_setBatch]
    split_ifs
    · exact hhanded
    · exact h.batch_handed w
  · rw [g.batches_setBatch] at hid ⊢
    by_cases hv : v = worker
    · have hw : w ≠ worker := fun hw => hvw (hv.trans hw.symm)
      rw [if_pos hv] at hid
      rw [if_neg hw]
      exact hapart w hw.symm id hid
    · rw [if_neg hv] at hid
      split_ifs
      · exact fun hmem => hapart v (Ne.symm hv) id hmem hid
      · exact h.batch_apart v w hvw id hid

lemma setCurrent {next : Option ℕ} (h : Orderly log g)
    (hnext : ∀ id, next = some id → id ∈ takenOf log) : Orderly log (g.setCurrent worker next) :=
  { h with
    current_taken := fun w id hid => by
      rw [g.current_setCurrent] at hid
      split_ifs at hid
      · exact hnext id hid
      · exact h.current_taken w id hid }

lemma leave (h : Orderly log g) (worker : ℕ) : Orderly log (g.setCurrent worker none) :=
  h.setCurrent fun _ hid => absurd hid (Option.some_ne_none _).symm

lemma read (h : Orderly log g) (worker count : ℕ) :
    Orderly (log ++ (g.fresh count).map .handed)
      ((g.handOut count).setBatch worker (g.fresh count)) := by
  refine (h.handOut count).setBatch List.nodup_range' (fun id hid => ⟨?_, ?_⟩)
    fun other _ id hid hmem => ?_
  · rw [handedOf_append, handedOf_map]
    exact List.mem_append_right _ hid
  · rw [takenOf_append, takenOf_map, List.append_nil]
    exact fun hmem => h.not_handed_of_fresh hid (h.taken_handed id hmem)
  · exact h.not_handed_of_fresh hid (h.batch_handed other id hmem).1

lemma take (h : Orderly log g) (hbatch : g.batches worker = id :: rest) :
    Orderly (log ++ [.taken id]) ((g.setBatch worker rest).setCurrent worker (some id)) := by
  have hmem : id ∈ g.batches worker := hbatch ▸ List.mem_cons_self
  obtain ⟨hhanded, hnew⟩ := h.batch_handed worker id hmem
  obtain ⟨hid, hrest⟩ := List.nodup_cons.mp (hbatch ▸ h.batch_nodup worker)
  have hsub : ∀ j ∈ rest, j ∈ g.batches worker := fun j hj => hbatch ▸ List.mem_cons_of_mem id hj
  have hset : Orderly log (g.setBatch worker rest) :=
    h.setBatch hrest (fun j hj => h.batch_handed worker j (hsub j hj))
      fun other hother j hj => h.batch_apart worker other hother j (hsub j hj)
  have hhandedOf : handedOf (log ++ [.taken id]) = handedOf log :=
    (handedOf_append ..).trans (List.append_nil _)
  have htakenOf : takenOf (log ++ [.taken id]) = takenOf log ++ [id] := takenOf_append ..
  have hackedOf : ackedOf (log ++ [.taken id]) = ackedOf log :=
    (ackedOf_append ..).trans (List.append_nil _)
  have hmore : ∀ j ∈ takenOf log, j ∈ takenOf (log ++ [.taken id]) := fun j hj =>
    htakenOf ▸ List.mem_append_left _ hj
  have hgroup : Orderly (log ++ [.taken id]) (g.setBatch worker rest) := by
    refine ⟨hhandedOf ▸ h.handed_nodup, hhandedOf ▸ h.handed_lt, h.delivered_le, h.trimmed_le, ?_, ?_,
      ?_, fun w j hj => hmore j (h.current_taken w j hj), hset.batch_nodup, fun w j hj => ?_,
      hset.batch_apart, ?_⟩
    · rw [htakenOf]
      refine List.nodup_append.mpr ⟨h.taken_nodup, List.nodup_singleton _, ?_⟩
      rintro a ha _ hb rfl
      exact hnew (List.mem_singleton.mp hb ▸ ha)
    · intro j hj
      rw [htakenOf] at hj
      rw [hhandedOf]
      obtain hj | hj := List.mem_append.mp hj
      · exact h.taken_handed j hj
      · rwa [List.mem_singleton.mp hj]
    · rw [hackedOf]
      exact fun j hj => hmore j (h.acked_taken j hj)
    · obtain ⟨hj', hnot⟩ := hset.batch_handed w j hj
      rw [hhandedOf, htakenOf]
      refine ⟨hj', fun hmem' => ?_⟩
      obtain hmem' | hmem' := List.mem_append.mp hmem'
      · exact hnot hmem'
      · obtain rfl := List.mem_singleton.mp hmem'
        rw [g.batches_setBatch] at hj
        split_ifs at hj with hw
        · exact hid hj
        · exact h.batch_apart w worker hw j hj hmem
    · rw [hhandedOf, hackedOf]
      exact h.pending_iff
  refine hgroup.setCurrent fun j hj => ?_
  obtain rfl := Option.some.inj hj
  rw [htakenOf]
  exact List.mem_append_right _ (List.mem_singleton_self _)

lemma ack (h : Orderly log g) (hcurrent : g.current worker = some id) :
    Orderly (log ++ [.acked id])
      { g.setCurrent worker none with pending := g.pending.filter (· ≠ id) } := by
  have hhandedOf : handedOf (log ++ [.acked id]) = handedOf log :=
    (handedOf_append ..).trans (List.append_nil _)
  have htakenOf : takenOf (log ++ [.acked id]) = takenOf log :=
    (takenOf_append ..).trans (List.append_nil _)
  have hackedOf : ackedOf (log ++ [.acked id]) = ackedOf log ++ [id] := ackedOf_append ..
  have hleft := h.leave worker
  refine ⟨hhandedOf ▸ h.handed_nodup, hhandedOf ▸ h.handed_lt, h.delivered_le, h.trimmed_le,
    htakenOf ▸ h.taken_nodup, ?_, ?_, htakenOf ▸ hleft.current_taken, h.batch_nodup, ?_, h.batch_apart,
    fun j => ?_⟩
  · rw [htakenOf, hhandedOf]
    exact h.taken_handed
  · intro j hj
    rw [hackedOf] at hj
    rw [htakenOf]
    obtain hj | hj := List.mem_append.mp hj
    · exact h.acked_taken j hj
    · rw [List.mem_singleton.mp hj]
      exact h.current_taken worker id hcurrent
  · rw [hhandedOf, htakenOf]
    exact h.batch_handed
  · rw [hhandedOf, hackedOf, List.mem_append, List.mem_singleton, not_or, ← and_assoc,
      ← h.pending_iff, List.mem_filter, decide_eq_true_eq]

lemma step (h : Orderly log g) (move : Move ε) :
    Orderly (log ++ emit g move) (ConsumerGroups.step move g) := by
  rw [ConsumerGroups.step.eq_def, emit.eq_def]
  cases move with
  | add entry =>
    have hle : g.entries.length ≤ (g.entries ++ [entry]).length := by simp
    rw [List.append_nil]
    exact { h with
      delivered_le := Nat.le_trans h.delivered_le hle
      trimmed_le := Nat.le_trans h.trimmed_le hle }
  | trim count =>
    rw [List.append_nil]
    exact { h with trimmed_le := Nat.max_le.mpr ⟨h.trimmed_le, Nat.min_le_right ..⟩ }
  | read worker count =>
    simp only
    split_ifs
    · exact h.read worker count
    · rwa [List.append_nil]
  | lost count => exact h.handOut count
  | take worker =>
    simp only
    cases hnext : g.next worker with
    | none => exact (List.append_nil log).symm ▸ h
    | some p => exact h.take (Group.next_eq_some.mp hnext).2
  | ack worker =>
    simp only
    cases hcurrent : g.current worker with
    | none => exact (List.append_nil log).symm ▸ h
    | some id => exact h.ack hcurrent
  | leave worker =>
    rw [List.append_nil]
    exact h.leave worker
  | crash worker =>
    rw [List.append_nil]
    have hset : Orderly log (g.setBatch worker []) :=
      h.setBatch List.nodup_nil (fun id hid => absurd hid List.not_mem_nil)
        fun _ _ id hid => absurd hid List.not_mem_nil
    exact hset.leave worker

end Orderly

/-- Handed out to somebody who has it no more, and did not acknowledge it. -/
structure Forsaken (log : List Event) (g : Group ε) (id : ℕ) : Prop where
  handed : id ∈ handedOf log
  not_acked : id ∉ ackedOf log
  batches : ∀ worker, id ∉ g.batches worker
  current : ∀ worker, g.current worker ≠ some id

namespace Forsaken

lemma setBatch (h : Forsaken log g id) (hbatch : id ∉ batch) :
    Forsaken log (g.setBatch worker batch) id :=
  { h with
    batches := fun w => by
      rw [g.batches_setBatch]
      split_ifs
      · exact hbatch
      · exact h.batches w }

lemma setCurrent {next : Option ℕ} (h : Forsaken log g id) (hnext : next ≠ some id) :
    Forsaken log (g.setCurrent worker next) id :=
  { h with
    current := fun w => by
      rw [g.current_setCurrent]
      split_ifs
      · exact hnext
      · exact h.current w }

lemma append {more : List Event} (h : Forsaken log g id) (hmore : id ∉ ackedOf more) :
    Forsaken (log ++ more) g id := by
  refine ⟨?_, ?_, h.batches, h.current⟩
  · rw [handedOf_append]
    exact List.mem_append_left _ h.handed
  · rw [ackedOf_append, List.mem_append, not_or]
    exact ⟨h.not_acked, hmore⟩

lemma handOut (h : Forsaken log g id) (count : ℕ) :
    Forsaken (log ++ (g.fresh count).map .handed) (g.handOut count) id := by
  have hmore : Forsaken (log ++ (g.fresh count).map .handed) g id :=
    h.append (by rw [ackedOf_map]; exact List.not_mem_nil)
  exact ⟨hmore.handed, hmore.not_acked, h.batches, h.current⟩

/-- Nobody will take it up again. -/
lemma step (h : Orderly log g) (hid : Forsaken log g id) (move : Move ε) :
    Forsaken (log ++ emit g move) (ConsumerGroups.step move g) id ∧ id ∉ takenOf (emit g move) := by
  rw [ConsumerGroups.step.eq_def, emit.eq_def]
  cases move with
  | add | trim =>
    have hmore : Forsaken (log ++ []) g id := hid.append List.not_mem_nil
    exact ⟨⟨hmore.handed, hmore.not_acked, hid.batches, hid.current⟩, List.not_mem_nil⟩
  | read worker count =>
    simp only
    split_ifs
    · rw [takenOf_map]
      have hfresh : id ∉ g.fresh count := fun hmem => h.not_handed_of_fresh hmem hid.handed
      exact ⟨(hid.handOut count).setBatch hfresh, List.not_mem_nil⟩
    · exact ⟨hid.append List.not_mem_nil, List.not_mem_nil⟩
  | lost count =>
    simp only
    rw [takenOf_map]
    exact ⟨hid.handOut count, List.not_mem_nil⟩
  | take worker =>
    simp only
    cases hnext : g.next worker with
    | none => exact ⟨hid.append List.not_mem_nil, List.not_mem_nil⟩
    | some p =>
      have hbatch := (Group.next_eq_some.mp hnext).2
      have hne : p.1 ≠ id := fun heq => hid.batches worker (hbatch ▸ heq ▸ List.mem_cons_self)
      have hrest : id ∉ p.2 := fun hmem => hid.batches worker (hbatch ▸ List.mem_cons_of_mem p.1 hmem)
      have hmore : Forsaken (log ++ [.taken p.1]) g id := hid.append List.not_mem_nil
      refine ⟨(hmore.setBatch hrest).setCurrent fun heq => hne (Option.some.inj heq), fun hmem => ?_⟩
      exact hne (List.mem_singleton.mp hmem).symm
  | ack worker =>
    simp only
    cases hcurrent : g.current worker with
    | none => exact ⟨hid.append List.not_mem_nil, List.not_mem_nil⟩
    | some j =>
      have hne : id ≠ j := fun heq => hid.current worker (heq ▸ hcurrent)
      have hmore : Forsaken (log ++ [.acked j]) g id :=
        hid.append fun hmem => hne (List.mem_singleton.mp hmem)
      have hleft : Forsaken (log ++ [.acked j]) (g.setCurrent worker none) id :=
        hmore.setCurrent (Option.some_ne_none _).symm
      exact ⟨⟨hleft.handed, hleft.not_acked, hleft.batches, hleft.current⟩, List.not_mem_nil⟩
  | leave worker =>
    exact ⟨(hid.append List.not_mem_nil).setCurrent (Option.some_ne_none _).symm, List.not_mem_nil⟩
  | crash worker =>
    have hmore : Forsaken (log ++ []) g id := hid.append List.not_mem_nil
    have hset : Forsaken (log ++ []) (g.setBatch worker []) id := hmore.setBatch List.not_mem_nil
    exact ⟨hset.setCurrent (Option.some_ne_none _).symm, List.not_mem_nil⟩

end Forsaken

lemma Orderly.run (h : Orderly log g) (moves : List (Move ε)) :
    Orderly (log ++ trace ConsumerGroups.step emit g moves) (Runs.run ConsumerGroups.step g moves) :=
  trace_invariant (fun _ _ move h => h.step move) h moves

lemma Forsaken.run (h : Orderly log g) (hid : Forsaken log g id) (moves : List (Move ε)) :
    Forsaken (log ++ trace ConsumerGroups.step emit g moves) (Runs.run ConsumerGroups.step g moves) id ∧
      id ∉ takenOf (trace ConsumerGroups.step emit g moves) := by
  induction moves generalizing log g with
  | nil => exact ⟨hid.append List.not_mem_nil, List.not_mem_nil⟩
  | cons move moves ih =>
    obtain ⟨hnext, hnot⟩ := hid.step h move
    obtain ⟨hlast, hlater⟩ := ih (h.step move) hnext
    rw [trace, ← List.append_assoc, takenOf_append, List.mem_append, not_or]
    exact ⟨hlast, hnot, hlater⟩

end Safety

end StellarTags.Library.ConsumerGroups
