import Mathlib.Data.List.Flatten
import StellarTags.Settlement.Calls

/-! Where the items of the engine are: every one in one place. -/

namespace StellarTags.Settlement

open Library.Runs Library.Tables Platform

variable {host : Host} {options : Options} {w : World} {move : Move} {e : Engine}
  {calls : List ShardCall} {call next : ShardCall} {log ids rest : List ℕ} {id k s now i : ℕ}
  {item : OutboxItem} {change : OutboxItem → OutboxItem} {payload : Payload} {key : String}

section Items

/-- A change that leaves it to an item which it is, where it belongs and what it pays. -/
structure Keeps (change : OutboxItem → OutboxItem) : Prop where
  id : ∀ item, (change item).id = item.id
  shardId : ∀ item, (change item).shardId = item.shardId
  payload : ∀ item, (change item).payload = item.payload

lemma keeps_startItem (now : ℕ) : Keeps (startItem now) :=
  ⟨fun _ => rfl, fun _ => rfl, fun _ => rfl⟩

lemma keeps_settle (now : ℕ) : Keeps (settle now) := ⟨fun _ => rfl, fun _ => rfl, fun _ => rfl⟩

lemma keeps_retry (now : ℕ) (message : String) (status : Status) :
    Keeps (retry now message status) := ⟨fun _ => rfl, fun _ => rfl, fun _ => rfl⟩

lemma keeps_countAttempt : Keeps countAttempt := ⟨fun _ => rfl, fun _ => rfl, fun _ => rfl⟩

lemma keeps_attachReceipt (receipt : Receipt) : Keeps (attachReceipt receipt) :=
  ⟨fun _ => rfl, fun _ => rfl, fun _ => rfl⟩

lemma item?_update (hchange : Keeps change) (k : ℕ) :
    (e.update id change).item? k = if k = id then (e.item? id).map change else e.item? k := by
  unfold Engine.item? Engine.update
  by_cases hk : k = id
  · subst hk
    rw [if_pos rfl, lookup_updateMany fun item _ => hchange.id item]
    cases hitem : lookup OutboxItem.id k e.items with
    | none => rfl
    | some item => simp [show item.id = k from key_of_lookup hitem]
  · rw [if_neg hk]
    exact lookup_updateMany_of_ne (k := id) (fun item _ => hchange.id item) (by simp) hk

lemma item?_update_of_ne (hchange : Keeps change) (hk : k ≠ id) :
    (e.update id change).item? k = e.item? k := by
  rw [item?_update hchange, if_neg hk]

lemma exists_item?_iff {next : Engine} {found : OutboxItem} {P : OutboxItem → Prop}
    (hitems : next.item? k = if k = id then some found else e.item? k) :
    (∃ item, next.item? k = some item ∧ P item) ↔
      if k = id then P found else ∃ item, e.item? k = some item ∧ P item := by
  rw [hitems]
  by_cases hk : k = id
  · rw [if_pos hk, if_pos hk]
    exact ⟨fun ⟨item, hitem, hP⟩ => Option.some.inj hitem ▸ hP, fun hP => ⟨found, rfl, hP⟩⟩
  · rw [if_neg hk, if_neg hk]

lemma forall_update {P : OutboxItem → Prop} (h : ∀ item ∈ e.items, P item)
    (hchange : ∀ item, P item → P (change item)) : ∀ item ∈ (e.update id change).items, P item := by
  intro item hitem
  obtain ⟨old, hold, rfl⟩ := List.mem_map.mp hitem
  split_ifs
  · exact hchange old (h old hold)
  · exact h old hold

lemma map_id_update (hchange : Keeps change) :
    (e.update id change).items.map OutboxItem.id = e.items.map OutboxItem.id := by
  rw [Engine.update, updateMany, List.map_map]
  apply List.map_congr_left
  intro item _
  rw [Function.comp_apply]
  split_ifs
  · exact hchange.id item
  · rfl

lemma not_mem_drawn (hfresh : ∀ item ∈ e.items, item.id < e.drawn) : e.item? e.drawn = none := by
  rw [Engine.item?, lookup, List.find?_eq_none]
  intro item hitem heq
  exact absurd (of_decide_eq_true heq) (hfresh item hitem).ne

lemma items_insert (hfresh : ∀ item ∈ e.items, item.id < e.drawn) :
    (e.insert host options now payload key).items =
      e.items ++ [newItem host options e.drawn now payload key] := by
  have hnone : ¬ (lookup OutboxItem.id e.drawn e.items).isSome := by
    rw [show lookup OutboxItem.id e.drawn e.items = none from not_mem_drawn hfresh]
    exact Bool.false_ne_true
  exact if_neg hnone

lemma item?_insert (host : Host) (options : Options) (now : ℕ) (payload : Payload) (key : String)
    (hfresh : ∀ item ∈ e.items, item.id < e.drawn) (k : ℕ) :
    (e.insert host options now payload key).item? k =
      if k = e.drawn then some (newItem host options e.drawn now payload key) else e.item? k := by
  have hnone := not_mem_drawn hfresh
  unfold Engine.item? lookup at hnone ⊢
  rw [items_insert hfresh, List.find?_append]
  change (List.find? _ e.items).or (List.find? _ [_]) = _
  by_cases hk : k = e.drawn
  · subst hk
    rw [hnone, if_pos rfl, Option.none_or]
    simp [newItem]
  · rw [if_neg hk]
    simp [newItem, Ne.symm hk]

end Items

section Taking

lemma start_eq (now : ℕ) (e : Engine) (hnodup : ids.Nodup)
    (hwait : ∀ id ∈ ids, ∃ item, e.item? id = some item ∧ item.status.Waiting) :
    (Engine.start now ids e).1 = ids ∧
      (∀ k, (Engine.start now ids e).2.item? k =
        if k ∈ ids then (e.item? k).map (startItem now) else e.item? k) ∧
      (Engine.start now ids e).2.items.map OutboxItem.id = e.items.map OutboxItem.id ∧
      (Engine.start now ids e).2 = { e with items := (Engine.start now ids e).2.items } := by
  induction ids generalizing e with
  | nil => simp [Engine.start]
  | cons id ids ih =>
    obtain ⟨item, hitem, hwaiting⟩ := hwait id (by simp)
    obtain ⟨hnew, hrest⟩ := List.nodup_cons.mp hnodup
    have hother (k : ℕ) (hk : k ≠ id) : (e.update id (startItem now)).item? k = e.item? k :=
      item?_update_of_ne (keeps_startItem now) hk
    obtain ⟨hids, hitems, hmap, hsame⟩ := ih (e.update id (startItem now)) hrest
      fun k hk => by
        rw [hother k fun heq => hnew (heq ▸ hk)]
        exact hwait k (List.mem_cons_of_mem _ hk)
    have hstart : Engine.start now (id :: ids) e =
        (id :: (Engine.start now ids (e.update id (startItem now))).1,
          (Engine.start now ids (e.update id (startItem now))).2) := by
      rw [Engine.start]
      simp only [hitem, if_pos hwaiting]
    rw [hstart]
    refine ⟨by rw [hids], fun k => ?_, hmap.trans (map_id_update (keeps_startItem now)), ?_⟩
    · rw [hitems]
      by_cases hk : k = id
      · subst hk
        rw [if_neg hnew, if_pos (List.mem_cons_self ..), item?_update (keeps_startItem now), if_pos rfl]
      · rw [hother k hk]
        simp [hk]
    · exact hsame.trans rfl

lemma forall_start {P : OutboxItem → Prop} (now : ℕ) (ids : List ℕ) (h : ∀ item ∈ e.items, P item)
    (hchange : ∀ item, P item → P (startItem now item)) :
    ∀ item ∈ (Engine.start now ids e).2.items, P item := by
  induction ids generalizing e with
  | nil => exact h
  | cons id ids ih =>
    rw [Engine.start]
    cases hitem : e.item? id with
    | none => exact ih h
    | some item =>
      by_cases hwait : item.status.Waiting
      · simpa only [if_pos hwait] using ih (forall_update h hchange)
      · simpa only [if_neg hwait] using ih h

end Taking

section Soundness

/-- Where the items are, by their status, after so many were settled. -/
structure Sound (host : Host) (options : Options) (log : List ℕ) (e : Engine)
    (calls : List ShardCall) : Prop where
  ids : (e.items.map OutboxItem.id).Pairwise (· < ·)
  drawn : ∀ item ∈ e.items, item.id < e.drawn
  shard : ∀ item ∈ e.items, item.shardId = computeShard host options item.payload.shardKey
  queue : ∀ s, (e.shards s).Nodup
  mem_shards : ∀ s id, id ∈ e.shards s ↔
    ∃ item, e.item? id = some item ∧ item.shardId = s ∧ item.status.Waiting
  mem_dlq : ∀ id, id ∈ e.dlq ↔ ∃ item, e.item? id = some item ∧ item.status = .dlq
  taken : (calls.flatMap ShardCall.todo).Nodup
  mem_taken : ∀ call ∈ calls, ∀ id ∈ call.todo,
    ∃ item, e.item? id = some item ∧ item.status = .processing ∧ item.shardId = call.shardId
  settled : log.Nodup
  mem_log : ∀ id ∈ log, ∃ item, e.item? id = some item ∧ item.status = .settled

lemma sound_start (host : Host) (options : Options) (adaptiveBatchSize : ℕ) :
    Sound host options [] { adaptiveBatchSize } [] where
  ids := List.Pairwise.nil
  drawn _ h := by cases h
  shard _ h := by cases h
  queue _ := List.nodup_nil
  mem_shards _ _ := by simp [Engine.item?]
  mem_dlq _ := by simp [Engine.item?]
  taken := List.nodup_nil
  mem_taken _ h := by cases h
  settled := List.nodup_nil
  mem_log _ h := by cases h

lemma Sound.keyed (h : Sound host options log e calls) : Keyed OutboxItem.id e.items :=
  h.ids.imp ne_of_lt

lemma mem_of_item? (hitem : e.item? id = some item) : item ∈ e.items ∧ item.id = id :=
  ⟨mem_of_lookup hitem, key_of_lookup hitem⟩

lemma Sound.ne_drawn (h : Sound host options log e calls) (hitem : e.item? id = some item) :
    id ≠ e.drawn := by
  obtain ⟨hmem, rfl⟩ := mem_of_item? hitem
  exact (h.drawn item hmem).ne

lemma Sound.insert (h : Sound host options log e calls) (now : ℕ) (payload : Payload)
    (key : String) : Sound host options log (e.insert host options now payload key) calls := by
  have hitems := item?_insert host options now payload key h.drawn
  have hkeep {k : ℕ} {item : OutboxItem} (hitem : e.item? k = some item) :
      (e.insert host options now payload key).item? k = some item := by
    rw [hitems, if_neg (h.ne_drawn hitem), hitem]
  have hnew (s : ℕ) : e.drawn ∉ e.shards s := fun hmem => by
    obtain ⟨item, hitem, -⟩ := (h.mem_shards s _).mp hmem
    exact h.ne_drawn hitem rfl
  have hshards (s : ℕ) : (e.insert host options now payload key).shards s = e.shards s ++
      if s = computeShard host options payload.shardKey then [e.drawn] else [] := by
    change Function.update e.shards (computeShard host options payload.shardKey) _ s = _
    by_cases hs : s = computeShard host options payload.shardKey
    · subst hs
      rw [Function.update_self, if_pos rfl]
      rfl
    · rw [Function.update_of_ne hs, if_neg hs, List.append_nil]
  have mem_shards (s id : ℕ) : id ∈ (e.insert host options now payload key).shards s ↔
      id ∈ e.shards s ∨ id = e.drawn ∧ s = computeShard host options payload.shardKey := by
    rw [hshards, List.mem_append]
    by_cases hs : s = computeShard host options payload.shardKey <;> simp [hs]
  refine ⟨?_, ?_, ?_, fun s => ?_, fun s id => ?_, fun id => ?_, h.taken, fun call hcall id hid => ?_,
    h.settled, fun id hid => ?_⟩
  · rw [items_insert h.drawn, List.map_append, List.pairwise_append]
    refine ⟨h.ids, List.pairwise_singleton _ _, fun id hid new hmem => ?_⟩
    obtain ⟨item, hitem, rfl⟩ := List.mem_map.mp hid
    rw [List.mem_singleton.mp hmem]
    exact h.drawn item hitem
  · intro item hitem
    rw [items_insert h.drawn] at hitem
    obtain hitem | hitem := List.mem_append.mp hitem
    · exact (h.drawn item hitem).trans (Nat.lt_succ_self _)
    · rw [List.mem_singleton.mp hitem]
      exact Nat.lt_succ_self _
  · intro item hitem
    rw [items_insert h.drawn] at hitem
    obtain hitem | hitem := List.mem_append.mp hitem
    · exact h.shard item hitem
    · rw [List.mem_singleton.mp hitem]
      rfl
  · rw [hshards, List.nodup_append]
    refine ⟨h.queue s, by split_ifs <;> simp, fun id hid new hmem heq => ?_⟩
    split_ifs at hmem
    · rw [heq, List.mem_singleton.mp hmem] at hid
      exact hnew s hid
    · cases hmem
  · rw [mem_shards, exists_item?_iff (hitems id)]
    by_cases hid : id = e.drawn
    · subst hid
      rw [if_pos rfl, or_iff_right (hnew s)]
      exact ⟨fun hs => ⟨hs.2.symm, .inl rfl⟩, fun hs => ⟨rfl, hs.1.symm⟩⟩
    · rw [if_neg hid, ← h.mem_shards]
      exact or_iff_left fun hmem => hid hmem.1
  · rw [exists_item?_iff (hitems id)]
    by_cases hid : id = e.drawn
    · subst hid
      rw [if_pos rfl]
      refine iff_of_false (fun hmem => ?_) (fun hstatus => by cases hstatus)
      obtain ⟨item, hitem, -⟩ := (h.mem_dlq _).mp hmem
      exact h.ne_drawn hitem rfl
    · rw [if_neg hid]
      exact h.mem_dlq id
  · obtain ⟨item, hitem, hstatus⟩ := h.mem_taken call hcall id hid
    exact ⟨item, hkeep hitem, hstatus⟩
  · obtain ⟨item, hitem, hstatus⟩ := h.mem_log id hid
    exact ⟨item, hkeep hitem, hstatus⟩

lemma Sound.keep (h : Sound host options log e calls) (id : ℕ) (hkeeps : Keeps change)
    (hstatus : ∀ item, (change item).status = item.status) :
    Sound host options log (e.update id change) calls := by
  have hsome {k : ℕ} {P : OutboxItem → Prop} (hP : ∀ item, P (change item) ↔ P item) :
      (∃ item, (e.update id change).item? k = some item ∧ P item) ↔
        ∃ item, e.item? k = some item ∧ P item := by
    rw [item?_update hkeeps]
    by_cases hk : k = id
    · subst hk
      simp [hP]
    · simp [hk]
  refine ⟨?_, forall_update h.drawn ?_, forall_update h.shard ?_, h.queue, fun s id => ?_,
    fun id => ?_, h.taken, fun call hcall id hid => ?_, h.settled, fun id hid => ?_⟩
  · rw [map_id_update hkeeps]
    exact h.ids
  · intro item hitem
    rwa [hkeeps.id]
  · intro item hitem
    rwa [hkeeps.shardId, hkeeps.payload]
  · exact (h.mem_shards s id).trans (hsome fun item => by rw [hkeeps.shardId, hstatus]).symm
  · exact (h.mem_dlq id).trans (hsome fun item => by rw [hstatus]).symm
  · exact (hsome fun item => by rw [hkeeps.shardId, hstatus]).mpr (h.mem_taken call hcall id hid)
  · exact (hsome fun item => by rw [hstatus]).mpr (h.mem_log id hid)

lemma Sound.attachReceipts (h : Sound host options log e calls) (receipt : ℕ → Receipt)
    (index : ℕ) (ids : List ℕ) :
    Sound host options log (Engine.attachReceipts receipt index ids e) calls := by
  induction ids generalizing e index with
  | nil => exact h
  | cons id ids ih =>
    exact ih (h.keep id (keeps_attachReceipt (receipt index)) fun _ => rfl) (index + 1)

lemma Sound.books (h : Sound host options log e calls) (batches : List BatchRecord)
    (lastBatchHash : String) (adaptiveBatchSize : ℕ) {drawn : ℕ} (hdrawn : e.drawn ≤ drawn) :
    Sound host options log { e with batches, lastBatchHash, adaptiveBatchSize, drawn } calls :=
  { h with drawn := fun item hitem => (h.drawn item hitem).trans_le hdrawn }

lemma exists_split (hcall : calls[i]? = some call) : ∃ before after,
    calls = before ++ call :: after ∧ ∀ next, calls.set i next = before ++ next :: after := by
  obtain ⟨hi, rfl⟩ := List.getElem?_eq_some_iff.mp hcall
  refine ⟨calls.take i, calls.drop (i + 1), ?_, fun next => List.set_eq_take_append_cons_drop.trans
    (if_pos hi)⟩
  rw [List.cons_getElem_drop_succ, List.take_append_drop]

lemma Sound.setCall (h : Sound host options log e calls) (hcall : calls[i]? = some call)
    (htodo : next.todo = call.todo) (hshard : next.shardId = call.shardId) :
    Sound host options log e (calls.set i next) := by
  refine { h with taken := ?_, mem_taken := fun other hother id hid => ?_ }
  · obtain ⟨before, after, rfl, hset⟩ := exists_split hcall
    have htaken := h.taken
    rw [hset]
    simpa [htodo] using htaken
  · obtain hother | rfl := List.mem_or_eq_of_mem_set hother
    · exact h.mem_taken other hother id hid
    · rw [hshard]
      exact h.mem_taken call (List.mem_of_getElem? hcall) id (htodo ▸ hid)

lemma Sound.finish (h : Sound host options log e calls) (hcall : calls[i]? = some call)
    (batchTimestamp : ℕ) (latency : Latency) :
    Sound host options log (e.finish host call batchTimestamp latency).1
      (calls.set i (e.finish host call batchTimestamp latency).2) := by
  unfold Engine.finish
  dsimp only
  split_ifs
  · exact (h.books e.batches e.lastBatchHash _ le_rfl).setCall hcall rfl rfl
  · exact ((h.books _ _ _ (Nat.le_succ _)).attachReceipts _ _ _).setCall hcall rfl rfl

def Engine.taken (e : Engine) (s : ℕ) : List ℕ :=
  (e.shards s).take (min (e.shards s).length e.adaptiveBatchSize)

def Engine.left (e : Engine) (s : ℕ) : List ℕ :=
  (e.shards s).drop (min (e.shards s).length e.adaptiveBatchSize)

lemma taken_append_left (e : Engine) (s : ℕ) : e.taken s ++ e.left s = e.shards s :=
  List.take_append_drop _ _

lemma takeBatch_eq (h : Sound host options log e calls) (s now : ℕ) :
    (e.takeBatch s now).1 = e.taken s ∧
      (∀ k, (e.takeBatch s now).2.item? k =
        if k ∈ e.taken s then (e.item? k).map (startItem now) else e.item? k) ∧
      (e.takeBatch s now).2.items.map OutboxItem.id = e.items.map OutboxItem.id ∧
      (e.takeBatch s now).2 = { e with
        shards := Function.update e.shards s (e.left s)
        items := (e.takeBatch s now).2.items } :=
  start_eq now { e with shards := Function.update e.shards s (e.left s) }
    ((h.queue s).sublist (List.take_sublist _ _)) fun id hid =>
      ((h.mem_shards s id).mp (List.mem_of_mem_take hid)).imp fun _ hitem => ⟨hitem.1, hitem.2.2⟩

lemma Sound.takeBatch (h : Sound host options log e calls) (hshard : call.shardId = s)
    (htodo : call.todo = (e.takeBatch s now).1) :
    Sound host options log (e.takeBatch s now).2 (calls ++ [call]) := by
  obtain ⟨htaken, hitems, hids, hsame⟩ := takeBatch_eq h s now
  have hdrawn : ∀ item ∈ (e.takeBatch s now).2.items, item.id < e.drawn :=
    forall_start now _ h.drawn fun item hitem => hitem
  have hshards : ∀ item ∈ (e.takeBatch s now).2.items,
      item.shardId = computeShard host options item.payload.shardKey :=
    forall_start now _ h.shard fun item hitem => hitem
  generalize e.takeBatch s now = started at *
  obtain ⟨todo, next⟩ := started
  dsimp only at *
  subst htaken
  have hnodup : (e.taken s ++ e.left s).Nodup := taken_append_left e s ▸ h.queue s
  obtain ⟨htaken, hleft, hdisjoint⟩ := List.nodup_append.mp hnodup
  have hwait : ∀ id ∈ e.taken s, ∃ item, e.item? id = some item ∧ item.shardId = s ∧
      item.status.Waiting := fun id hid => (h.mem_shards s id).mp (List.mem_of_mem_take hid)
  -- what is taken waited, so it is nowhere else
  have hother {k : ℕ} {item : OutboxItem} (hitem : e.item? k = some item)
      (hstatus : ¬ item.status.Waiting) : k ∉ e.taken s := fun hk => by
    obtain ⟨item', hitem', -, hwaiting⟩ := hwait k hk
    rw [hitem] at hitem'
    exact hstatus (Option.some.inj hitem' ▸ hwaiting)
  have hkeep {k : ℕ} {item : OutboxItem} (hitem : e.item? k = some item)
      (hstatus : ¬ item.status.Waiting) : next.item? k = some item := by
    rw [hitems, if_neg (hother hitem hstatus), hitem]
  have hfound {P : OutboxItem → Prop} (k : ℕ) (hP : ∀ item, ¬ P (startItem now item)) :
      (∃ item, next.item? k = some item ∧ P item) ↔
        (∃ item, e.item? k = some item ∧ P item) ∧ k ∉ e.taken s := by
    rw [hitems]
    by_cases hk : k ∈ e.taken s
    · simp [hk, hP]
    · simp [hk]
  have hqueues : next.shards = Function.update e.shards s (e.left s) := congrArg Engine.shards hsame
  have hdead : next.dlq = e.dlq := by rw [hsame]
  have hnext : next.drawn = e.drawn := by rw [hsame]
  refine ⟨hids ▸ h.ids, hnext ▸ hdrawn, hshards, fun t => ?_, fun t k => ?_, fun k => ?_, ?_, ?_,
    h.settled, fun id hid => ?_⟩
  · rw [hqueues]
    by_cases ht : t = s
    · rw [ht, Function.update_self]
      exact hleft
    · rw [Function.update_of_ne ht]
      exact h.queue t
  · rw [hqueues, hfound k (by simp [startItem, Status.Waiting]), ← h.mem_shards]
    by_cases ht : t = s
    · subst ht
      rw [Function.update_self, ← taken_append_left, List.mem_append]
      exact ⟨fun hmem => ⟨.inr hmem, fun hk => hdisjoint k hk k hmem rfl⟩,
        fun ⟨hmem, hk⟩ => hmem.resolve_left hk⟩
    · rw [Function.update_of_ne ht, iff_self_and]
      intro hmem hk
      obtain ⟨item, hitem, hshardId, -⟩ := hwait k hk
      obtain ⟨item', hitem', hshardId', -⟩ := (h.mem_shards t k).mp hmem
      obtain rfl := Option.some.inj (hitem.symm.trans hitem')
      exact ht (hshardId'.symm.trans hshardId)
  · rw [hdead, hfound k (by simp [startItem]), ← h.mem_dlq, iff_self_and]
    intro hmem
    obtain ⟨item, hitem, hstatus⟩ := (h.mem_dlq k).mp hmem
    exact hother hitem (by rw [hstatus]; decide)
  · rw [List.flatMap_append, List.flatMap_singleton, htodo, List.nodup_append]
    refine ⟨h.taken, htaken, ?_⟩
    rintro id hid _ hnew rfl
    obtain ⟨call', hcall', hid⟩ := List.mem_flatMap.mp hid
    obtain ⟨item, hitem, hstatus, -⟩ := h.mem_taken call' hcall' id hid
    exact hother hitem (by rw [hstatus]; decide) hnew
  · intro call' hcall' id hid
    obtain hcall' | hcall' := List.mem_append.mp hcall'
    · obtain ⟨item, hitem, hstatus, hitemShard⟩ := h.mem_taken call' hcall' id hid
      exact ⟨item, hkeep hitem (by rw [hstatus]; decide), hstatus, hitemShard⟩
    · rw [List.mem_singleton.mp hcall', htodo] at hid
      obtain ⟨item, hitem, hshardId, -⟩ := hwait id hid
      refine ⟨startItem now item, ?_, rfl, ?_⟩
      · rw [hitems, if_pos hid, hitem, Option.map_some]
      · rw [List.mem_singleton.mp hcall', hshard]
        exact hshardId
  · obtain ⟨item, hitem, hstatus⟩ := h.mem_log id hid
    exact ⟨item, hkeep hitem (by rw [hstatus]; decide), hstatus⟩

/-- After an attempt the item is where its status says. -/
lemma Sound.attempted {out : List ℕ} {e' : Engine} (h : Sound host options log e calls)
    (hkeeps : Keeps change) (hcall : calls[i]? = some call) (htodo : call.todo = id :: rest)
    (hitem : e.item? id = some item) (hitems : e'.items = (e.update id change).items)
    (hdrawn : e'.drawn = e.drawn) (hnext : next.todo.Sublist rest)
    (hshard : next.shardId = call.shardId) (hqueue : ∀ s, (e'.shards s).Nodup)
    (hshards : ∀ s k, k ∈ e'.shards s ↔
      k ∈ e.shards s ∨ k = id ∧ s = item.shardId ∧ (change item).status.Waiting)
    (hdlq : ∀ k, k ∈ e'.dlq ↔ k ∈ e.dlq ∨ k = id ∧ (change item).status = .dlq)
    (hout : out = if (change item).status = .settled then [id] else []) :
    Sound host options (log ++ out) e' (calls.set i next) := by
  obtain ⟨before, after, hcalls, hset⟩ := exists_split hcall
  have hmem : call ∈ calls := List.mem_of_getElem? hcall
  obtain ⟨item', hitem', hprocessing, hitemShard⟩ := h.mem_taken call hmem id (by simp [htodo])
  obtain rfl := Option.some.inj (hitem.symm.trans hitem')
  have hlookup (k : ℕ) : e'.item? k = if k = id then some (change item) else e.item? k := by
    rw [Engine.item?, hitems, ← Engine.item?, item?_update hkeeps, hitem, Option.map_some]
  have hself : e'.item? id = some (change item) := by rw [hlookup, if_pos rfl]
  -- an item that is elsewhere is another one
  have hne {k : ℕ} {other : OutboxItem} (hother : e.item? k = some other)
      (hstatus : other.status ≠ .processing) : k ≠ id := by
    rintro rfl
    rw [hitem] at hother
    exact hstatus (Option.some.inj hother ▸ hprocessing)
  have htaken := h.taken
  rw [hcalls, List.flatMap_append, List.flatMap_cons, htodo] at htaken
  have hsub : ((calls.set i next).flatMap ShardCall.todo).Sublist
      (before.flatMap ShardCall.todo ++ (rest ++ after.flatMap ShardCall.todo)) := by
    rw [hset, List.flatMap_append, List.flatMap_cons]
    exact (List.Sublist.refl _).append (hnext.append (List.Sublist.refl _))
  have hmiddle := List.nodup_middle.mp htaken
  rw [List.nodup_cons] at hmiddle
  refine ⟨?_, ?_, ?_, hqueue, fun s k => ?_, fun k => ?_, hmiddle.2.sublist hsub,
    fun other hother k hk => ?_, ?_, fun k hk => ?_⟩
  · rw [hitems, map_id_update hkeeps]
    exact h.ids
  · rw [hitems, hdrawn]
    exact forall_update h.drawn fun item hitem => by rwa [hkeeps.id]
  · rw [hitems]
    exact forall_update h.shard fun item hitem => by rwa [hkeeps.shardId, hkeeps.payload]
  · rw [hshards, exists_item?_iff (hlookup k)]
    by_cases hk : k = id
    · subst hk
      have hnone : k ∉ e.shards s := fun hmem => by
        obtain ⟨other, hother, -, hwaiting⟩ := (h.mem_shards s k).mp hmem
        exact hne hother (by rintro hstatus; rw [hstatus] at hwaiting; revert hwaiting; decide) rfl
      rw [if_pos rfl, or_iff_right hnone, hkeeps.shardId]
      exact ⟨fun hnew => ⟨hnew.2.1.symm, hnew.2.2⟩, fun hnew => ⟨rfl, hnew.1.symm, hnew.2⟩⟩
    · rw [if_neg hk, ← h.mem_shards]
      exact or_iff_left fun hnew => hk hnew.1
  · rw [hdlq, exists_item?_iff (hlookup k)]
    by_cases hk : k = id
    · subst hk
      have hnone : k ∉ e.dlq := fun hmem => by
        obtain ⟨other, hother, hstatus⟩ := (h.mem_dlq k).mp hmem
        exact hne hother (by rw [hstatus]; decide) rfl
      rw [if_pos rfl, or_iff_right hnone]
      exact ⟨fun hnew => hnew.2, fun hstatus => ⟨rfl, hstatus⟩⟩
    · rw [if_neg hk, ← h.mem_dlq]
      exact or_iff_left fun hnew => hk hnew.1
  · have hk' : k ∈ before.flatMap ShardCall.todo ++ (rest ++ after.flatMap ShardCall.todo) :=
      hsub.subset (List.mem_flatMap.mpr ⟨other, hother, hk⟩)
    have hkid : k ≠ id := fun heq => hmiddle.1 (heq ▸ hk')
    rw [hlookup, if_neg hkid]
    obtain hother | rfl := List.mem_or_eq_of_mem_set hother
    · exact h.mem_taken other hother k hk
    · rw [hshard]
      exact h.mem_taken call hmem k (htodo ▸ List.mem_cons_of_mem _ (hnext.subset hk))
  · rw [hout, List.nodup_append]
    refine ⟨h.settled, by split_ifs <;> simp, fun k hk new hnew heq => ?_⟩
    split_ifs at hnew
    · obtain ⟨other, hother, hstatus⟩ := h.mem_log k hk
      exact hne hother (by rw [hstatus]; decide) (heq.trans (List.mem_singleton.mp hnew))
    · cases hnew
  · obtain hk | hk := List.mem_append.mp hk
    · obtain ⟨other, hother, hstatus⟩ := h.mem_log k hk
      exact ⟨other, by rw [hlookup, if_neg (hne hother (by rw [hstatus]; decide)), hother], hstatus⟩
    · rw [hout] at hk
      split_ifs at hk with hstatus
      · rw [List.mem_singleton.mp hk]
        exact ⟨_, hself, hstatus⟩
      · cases hk

lemma fail_eq (hitem : e.item? id = some item) (s now : ℕ) (message : String) (fatal : Bool) :
    e.fail options s id now message fatal =
      if isFatal options item fatal then
        { e.update id (retry now message .dlq) with dlq := e.dlq ++ [id] }
      else { e.update id (retry now message .failed) with
        shards := Function.update e.shards s (e.shards s ++ [id]) } := by
  unfold Engine.fail
  rw [hitem]

lemma Sound.attempt (h : Sound host options log e calls) (hcall : calls[i]? = some call)
    (htodo : call.todo = id :: rest) (now : ℕ) (result : Attempt) :
    Sound host options (log ++ result.out id) (e.attempt options call now id rest result).1
      (calls.set i (e.attempt options call now id rest result).2) := by
  obtain ⟨item, hitem, hprocessing, hshard⟩ :=
    h.mem_taken call (List.mem_of_getElem? hcall) id (by simp [htodo])
  cases result with
  | returns =>
    exact h.attempted (keeps_settle now) hcall htodo hitem rfl rfl (List.Sublist.refl _) rfl h.queue
      (by simp [settle, Status.Waiting, Engine.attempt, Engine.update])
      (by simp [settle, Engine.attempt, Engine.update]) rfl
  | throwsNothing =>
    exact h.attempted keeps_countAttempt hcall htodo hitem rfl rfl (List.nil_sublist _) rfl h.queue
      (by simp [countAttempt, hprocessing, Status.Waiting, Engine.attempt, Engine.update])
      (by simp [countAttempt, hprocessing, Engine.attempt, Engine.update])
      (by simp [countAttempt, hprocessing, Attempt.out])
  | throws message fatal =>
    rw [Engine.attempt, fail_eq hitem, Attempt.out]
    by_cases hfatal : isFatal options item fatal
    · rw [if_pos hfatal]
      exact h.attempted (keeps_retry now message .dlq) hcall htodo hitem rfl rfl
        (List.Sublist.refl _) rfl h.queue (by simp [retry, Status.Waiting, Engine.update])
        (by simp [retry]) rfl
    · rw [if_neg hfatal]
      have hnew (s : ℕ) : id ∉ e.shards s := fun hmem => by
        obtain ⟨other, hother, -, hwaiting⟩ := (h.mem_shards s id).mp hmem
        rw [hitem] at hother
        rw [← Option.some.inj hother, hprocessing] at hwaiting
        revert hwaiting
        decide
      refine h.attempted (keeps_retry now message .failed) hcall htodo hitem rfl rfl
        (List.Sublist.refl _) rfl (fun s => ?_) (fun s k => ?_) (by simp [retry, Engine.update]) rfl
      · dsimp only
        by_cases hs : s = call.shardId
        · subst hs
          rw [Function.update_self, List.nodup_append]
          refine ⟨h.queue _, List.nodup_singleton _, fun k hk new hid heq => hnew call.shardId ?_⟩
          rwa [← List.mem_singleton.mp hid, ← heq]
        · rw [Function.update_of_ne hs]
          exact h.queue s
      · dsimp only
        by_cases hs : s = call.shardId
        · subst hs
          simp [retry, Status.Waiting, hshard]
        · rw [Function.update_of_ne hs]
          simp [hshard, hs]

end Soundness

end StellarTags.Settlement
