import Mathlib.Data.List.Flatten
import StellarTags.Batching.Queue

/-! Every accepted payment is in one place, and its promise is settled from there. -/

namespace StellarTags.Batching

open Library.Runs

variable {config : Config} {host : Host} {w : World} {move : Move} {log : List (ℕ × Settlement)}
  {items : List Item} {item : Item} {batch : Batch} {i j n : ℕ}

def World.line (w : World) : List ℕ :=
  (w.batches.flatMap Batch.items ++ w.queue).map Item.promise

def Batch.settles (batch : Batch) (operationIndex : ℕ) (item : Item) : List Settlement :=
  (batch.outcome.map fun outcome => outcome.settles batch.items.length operationIndex item).toList

structure Sound (config : Config) (log : List (ℕ × Settlement)) (w : World) : Prop where
  line : w.line.Pairwise (· < ·)
  accepted : ∀ n ∈ w.line, n < w.accepted
  size : ∀ batch ∈ w.batches, batch.items ≠ [] ∧ batch.items.length ≤ config.maxBatchSize
  waiting : ∀ item ∈ w.queue, settled item.promise log = []
  batched : ∀ batch ∈ w.batches, ∀ j item, batch.items[j]? = some item →
    settled item.promise log = batch.settles j item
  cleared : ∀ n < w.accepted, n ∉ w.line → settled n log = [.rejected "Queue cleared"]
  fresh : ∀ n, w.accepted ≤ n → settled n log = []
  timer : w.queue ≠ [] → w.timer = true

lemma sound_start (config : Config) : Sound config [] {} where
  line := List.Pairwise.nil
  accepted _ h := by cases h
  size _ h := by cases h
  waiting _ h := by cases h
  batched _ h := by cases h
  cleared _ h := by cases h
  fresh _ _ := rfl
  timer h := absurd rfl h

lemma Sound.nodup (h : Sound config log w) : w.line.Nodup := h.line.imp ne_of_lt

lemma Sound.push (h : Sound config log w) (host : Host) (now : ℕ) (data : PaymentData) :
    Sound config log { w with
      queue := w.queue ++ [newItem host w.accepted now data]
      timer := true
      accepted := w.accepted + 1 } := by
  have hline : World.line { w with
      queue := w.queue ++ [newItem host w.accepted now data]
      timer := true
      accepted := w.accepted + 1 } = w.line ++ [w.accepted] := by
    simp [World.line, newItem]
  refine ⟨?_, ?_, h.size, ?_, h.batched, ?_, fun n hn => h.fresh n ((Nat.le_succ _).trans hn),
    fun _ => rfl⟩
  · rw [hline, List.pairwise_append]
    refine ⟨h.line, List.pairwise_singleton _ _, fun n hn new hnew => ?_⟩
    rw [List.mem_singleton.mp hnew]
    exact h.accepted n hn
  · rw [hline]
    intro n hn
    obtain hn | hn := List.mem_append.mp hn
    · exact (h.accepted n hn).trans (Nat.lt_succ_self _)
    · rw [List.mem_singleton.mp hn]
      exact Nat.lt_succ_self _
  · intro item hitem
    obtain hitem | hitem := List.mem_append.mp hitem
    · exact h.waiting item hitem
    · rw [List.mem_singleton.mp hitem]
      exact h.fresh w.accepted le_rfl
  · rw [hline]
    intro n hn hnone
    rw [List.mem_append, not_or, List.mem_singleton] at hnone
    exact h.cleared n (lt_of_le_of_ne (Nat.lt_succ_iff.mp hn) hnone.2) hnone.1

lemma Sound.takeBatch (h : Sound config log { w with timer := true }) (hqueue : w.queue ≠ []) :
    Sound config log (w.takeBatch config) := by
  have hbatch : w.queue.take config.maxBatchSize ≠ [] := by
    rw [Ne, List.take_eq_nil_iff]
    exact not_or.mpr ⟨config.maxBatchSize_pos.ne', hqueue⟩
  have htake : w.takeBatch config = { w with
      queue := w.queue.drop config.maxBatchSize
      timer := !(w.queue.drop config.maxBatchSize).isEmpty
      batches := w.batches ++ [⟨w.queue.take config.maxBatchSize, none⟩] } := if_neg hbatch
  have hline : (w.takeBatch config).line = w.line := by
    rw [htake, World.line, World.line, List.flatMap_append, List.flatMap_singleton,
      List.append_assoc, List.take_append_drop]
  refine ⟨hline ▸ h.line, ?_, ?_, ?_, ?_, ?_, ?_, ?_⟩
  · rw [hline, htake]
    exact h.accepted
  · rw [htake]
    intro batch hmem
    obtain hmem | hmem := List.mem_append.mp hmem
    · exact h.size batch hmem
    · rw [List.mem_singleton.mp hmem]
      exact ⟨hbatch, List.length_take_le _ _⟩
  · rw [htake]
    exact fun item hitem => h.waiting item (List.mem_of_mem_drop hitem)
  · rw [htake]
    intro batch hmem j item hitem
    obtain hmem | hmem := List.mem_append.mp hmem
    · exact h.batched batch hmem j item hitem
    · rw [List.mem_singleton.mp hmem] at hitem ⊢
      exact h.waiting item (List.mem_of_mem_take (List.mem_of_getElem? hitem))
  · rw [hline, htake]
    exact h.cleared
  · rw [htake]
    exact h.fresh
  · rw [htake]
    intro hrest
    simpa using hrest

lemma Sound.enqueue (h : Sound config log w) (now : ℕ) (paymentData : Option PaymentData) :
    Sound config log (w.enqueue config host now paymentData) := by
  unfold World.enqueue
  cases validate host paymentData with
  | error error => exact h
  | ok data =>
    have hpushed := h.push host now data
    dsimp only
    split_ifs with hfull htimer
    · exact Sound.takeBatch hpushed (by simp)
    · exact (show w.timer = true from htimer) ▸ hpushed
    · exact hpushed

lemma Sound.disarm (h : Sound config log w) (hempty : w.queue = []) :
    Sound config log { w with timer := false } :=
  { h with timer := fun hqueue => absurd hempty hqueue }

lemma Sound.arm (h : Sound config log w) : Sound config log { w with timer := true } :=
  { h with timer := fun _ => rfl }

lemma Sound.flush (h : Sound config log w) : Sound config log (w.flush config) := by
  unfold World.flush
  split_ifs with hempty
  · exact h.disarm hempty
  · exact h.arm.takeBatch hempty

lemma Sound.timerFires (h : Sound config log w) : Sound config log (w.timerFires config) := by
  unfold World.timerFires
  split_ifs with htimer hempty
  · exact h.disarm hempty
  · exact h.arm.takeBatch hempty
  · exact h

lemma Sound.clear (h : Sound config log w) :
    Sound config (log ++ w.queue.map fun item => (item.promise, .rejected "Queue cleared"))
      w.clear := by
  have hline : w.line = w.clear.line ++ w.queue.map Item.promise := by
    simp [World.line, World.clear]
  have hnodup := h.nodup
  rw [hline, List.nodup_append] at hnodup
  obtain ⟨-, hqueue, hdisjoint⟩ := hnodup
  have hkeys : (w.queue.map fun item => (item.promise, Settlement.rejected "Queue cleared")).map
      Prod.fst = w.queue.map Item.promise := by simp
  have hother {n : ℕ} (hn : n ∉ w.queue.map Item.promise) :
      settled n (log ++ w.queue.map fun item => (item.promise, .rejected "Queue cleared")) =
        settled n log := by
    have hnone : settled n (w.queue.map fun item =>
        (item.promise, Settlement.rejected "Queue cleared")) = [] := settled_eq_nil (hkeys ▸ hn)
    rw [settled_append, hnone, List.append_nil]
  refine ⟨?_, ?_, h.size, (fun _ hmem => by cases hmem), ?_, ?_, ?_, fun hne => absurd rfl hne⟩
  · have hsorted := h.line
    rw [hline, List.pairwise_append] at hsorted
    exact hsorted.1
  · intro n hn
    exact h.accepted n (hline ▸ List.mem_append_left _ hn)
  · intro batch hmem j item hitem
    rw [hother, h.batched batch hmem j item hitem]
    intro hn
    refine hdisjoint item.promise ?_ _ hn rfl
    rw [World.line, World.clear, List.append_nil]
    exact List.mem_map_of_mem (List.mem_flatMap.mpr ⟨batch, hmem, List.mem_of_getElem? hitem⟩)
  · intro n hn hnone
    by_cases hin : n ∈ w.queue.map Item.promise
    · obtain ⟨item, hitem, rfl⟩ := List.mem_map.mp hin
      have hcall : (item.promise, Settlement.rejected "Queue cleared") ∈
          w.queue.map fun item => (item.promise, Settlement.rejected "Queue cleared") :=
        List.mem_map_of_mem hitem
      rw [settled_append, h.waiting item hitem, settled_of_mem (hkeys ▸ hqueue) hcall]
      rfl
    · rw [hother hin]
      apply h.cleared n hn
      rw [hline, List.mem_append, not_or]
      exact ⟨hnone, hin⟩
  · intro n hn
    rw [hother, h.fresh n hn]
    intro hin
    exact absurd (h.accepted n (hline ▸ List.mem_append_right _ hin)) hn.not_gt

lemma Sound.finish (h : Sound config log w) (hbatch : w.batches[i]? = some ⟨items, none⟩)
    (outcome : Outcome) :
    Sound config (log ++ items.mapIdx fun j item =>
      (item.promise, outcome.settles items.length j item)) (w.finish i outcome) := by
  obtain ⟨hi, hget⟩ := List.getElem?_eq_some_iff.mp hbatch
  have hsplit : w.batches = w.batches.take i ++ ⟨items, none⟩ :: w.batches.drop (i + 1) := by
    rw [← hget, List.cons_getElem_drop_succ, List.take_append_drop]
  have hfinish : w.finish i outcome = { w with
      batches := w.batches.take i ++ ⟨items, some outcome⟩ :: w.batches.drop (i + 1) } := by
    rw [World.finish, hbatch]
    simp only [List.set_eq_take_append_cons_drop, if_pos hi]
  generalize w.batches.take i = before at hsplit hfinish
  generalize w.batches.drop (i + 1) = after at hsplit hfinish
  have hline : (w.finish i outcome).line = w.line := by
    simp [hfinish, World.line, hsplit]
  have hkeys : (items.mapIdx fun j item =>
      (item.promise, outcome.settles items.length j item)).map Prod.fst =
        items.map Item.promise := by
    apply List.ext_getElem?
    intro j
    rw [List.getElem?_map, List.getElem?_mapIdx, List.getElem?_map, Option.map_map]
    rfl
  have hnodup := h.nodup
  rw [World.line, hsplit] at hnodup
  simp only [List.flatMap_append, List.flatMap_cons, List.append_assoc, List.map_append,
    List.nodup_append, List.mem_append] at hnodup
  obtain ⟨-, ⟨hitems, -, hlater⟩, hearlier⟩ := hnodup
  have hother {n : ℕ} (hn : n ∉ items.map Item.promise) :
      settled n (log ++ items.mapIdx fun j item =>
        (item.promise, outcome.settles items.length j item)) = settled n log := by
    have hnone : settled n (items.mapIdx fun j item =>
        (item.promise, outcome.settles items.length j item)) = [] := settled_eq_nil (hkeys ▸ hn)
    rw [settled_append, hnone, List.append_nil]
  have helsewhere {batch : Batch} (hbatch : batch ∈ before ∨ batch ∈ after) {item : Item}
      (hitem : item ∈ batch.items) : item.promise ∉ items.map Item.promise := by
    intro hin
    obtain hbatch | hbatch := hbatch
    · refine hearlier item.promise ?_ item.promise (.inl hin) rfl
      exact List.mem_map_of_mem (List.mem_flatMap.mpr ⟨batch, hbatch, hitem⟩)
    · refine hlater item.promise hin item.promise (.inl ?_) rfl
      exact List.mem_map_of_mem (List.mem_flatMap.mpr ⟨batch, hbatch, hitem⟩)
  refine ⟨hline ▸ h.line, ?_, ?_, ?_, ?_, ?_, ?_, ?_⟩
  · rw [hline, hfinish]
    exact h.accepted
  · rw [hfinish]
    intro batch hmem
    rw [List.mem_append, List.mem_cons] at hmem
    obtain hmem | rfl | hmem := hmem
    · exact h.size batch (by simp [hsplit, hmem])
    · exact h.size ⟨items, none⟩ (by simp [hsplit])
    · exact h.size batch (by simp [hsplit, hmem])
  · rw [hfinish]
    intro item hitem
    rw [hother, h.waiting item hitem]
    intro hin
    exact hlater item.promise hin item.promise (.inr (List.mem_map_of_mem hitem)) rfl
  · rw [hfinish]
    intro batch hmem j item hitem
    rw [List.mem_append, List.mem_cons] at hmem
    obtain hmem | rfl | hmem := hmem
    · rw [hother (helsewhere (.inl hmem) (List.mem_of_getElem? hitem))]
      exact h.batched batch (by simp [hsplit, hmem]) j item hitem
    · have hcall : (item.promise, outcome.settles items.length j item) ∈
          items.mapIdx fun j item => (item.promise, outcome.settles items.length j item) := by
        rw [List.mem_iff_getElem?]
        exact ⟨j, by rw [List.getElem?_mapIdx, hitem]; rfl⟩
      have hpending := h.batched ⟨items, none⟩ (by simp [hsplit]) j item hitem
      rw [settled_append, hpending, settled_of_mem (hkeys ▸ hitems) hcall]
      rfl
    · rw [hother (helsewhere (.inr hmem) (List.mem_of_getElem? hitem))]
      exact h.batched batch (by simp [hsplit, hmem]) j item hitem
  · rw [hline, hfinish]
    intro n hn hnone
    rw [hother, h.cleared n hn hnone]
    intro hin
    apply hnone
    simp [World.line, hsplit, List.mem_map.mp hin]
  · rw [hfinish]
    intro n hn
    rw [hother, h.fresh n hn]
    intro hin
    have hline : n ∈ w.line := by simp [World.line, hsplit, List.mem_map.mp hin]
    exact absurd (h.accepted n hline) hn.not_gt
  · rw [hfinish]
    exact h.timer

lemma Sound.step (h : Sound config log w) (host : Host) (move : Move) :
    Sound config (log ++ settlements w move) (Batching.step config host move w) := by
  unfold Batching.step settlements
  cases move.action with
  | enqueue paymentData => simpa only [List.append_nil] using h.enqueue move.now paymentData
  | timer => simpa only [List.append_nil] using h.timerFires
  | flush => simpa only [List.append_nil] using h.flush
  | clear => exact h.clear
  | finish i outcome =>
    dsimp only
    cases hbatch : w.batches[i]? with
    | none => simpa only [World.finish, hbatch, List.append_nil] using h
    | some batch =>
      obtain ⟨items, _ | done⟩ := batch
      · exact h.finish hbatch outcome
      · simpa only [World.finish, hbatch, List.append_nil] using h

/-- Where an accepted payment is, and the calls that have settled its promise. -/
inductive Place (w : World) (n : ℕ) : List Settlement → Prop
  | queued (item : Item) : item ∈ w.queue → item.promise = n → Place w n []
  | batched (i j : ℕ) (batch : Batch) (item : Item) : w.batches[i]? = some batch →
      batch.items[j]? = some item → item.promise = n → Place w n (batch.settles j item)
  | cleared : n ∉ w.line → Place w n [.rejected "Queue cleared"]

lemma Sound.place (h : Sound config log w) (hn : n < w.accepted) : Place w n (settled n log) := by
  by_cases hin : n ∈ w.line
  · obtain ⟨item, hitem, rfl⟩ := List.mem_map.mp hin
    obtain hitem | hitem := List.mem_append.mp hitem
    · obtain ⟨batch, hbatch, hitem⟩ := List.mem_flatMap.mp hitem
      obtain ⟨i, hi⟩ := List.mem_iff_getElem?.mp hbatch
      obtain ⟨j, hj⟩ := List.mem_iff_getElem?.mp hitem
      rw [h.batched batch hbatch j item hj]
      exact .batched i j batch item hi hj rfl
    · rw [h.waiting item hitem]
      exact .queued item hitem rfl
  · rw [h.cleared n hn hin]
    exact .cleared hin

end StellarTags.Batching
