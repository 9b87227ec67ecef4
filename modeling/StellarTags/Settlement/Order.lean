import StellarTags.Settlement.Accounts

/-! In which order the payments of one account and asset are settled. -/

namespace StellarTags.Settlement

open Library.Runs Library.Tables Platform

variable {host : Host} {options : Options} {w : World} {move : Move} {e e' : Engine}
  {calls : List ShardCall} {call next : ShardCall} {log ids rest : List ℕ} {id k s now i : ℕ}
  {item : OutboxItem} {change : OutboxItem → OutboxItem} {key : String}

def Engine.keyOf (e : Engine) (id : ℕ) : Option String :=
  (e.item? id).map fun item => item.payload.shardKey

def Engine.keyed (e : Engine) (key : String) (ids : List ℕ) : List ℕ :=
  ids.filter fun id => decide (e.keyOf id = some key)

/-- What was settled of each shard key was settled in the order in which it was enqueued. -/
def InOrder (e : Engine) (log : List ℕ) : Prop :=
  ∀ key, (e.keyed key log).Sublist (e.items.map OutboxItem.id)

/-- No batch takes an item while another call has one of its shard key in hand; and no item goes back
to the queue while another of its shard key waits there or in the rest of its batch. -/
def Fifo (options : Options) (w : World) (move : Move) : Prop :=
  match move.action with
  | .processShard s => ∀ id ∈ w.engine.taken s, ∀ call ∈ w.shardCalls, ∀ id' ∈ call.todo,
    w.engine.keyOf id ≠ w.engine.keyOf id'
  | .attempt i (.throws _ fatal) _ _ => ∀ call ∈ w.shardCalls[i]?, ∀ id ∈ call.todo.head?,
    ∀ item ∈ w.engine.item? id, isFatal options item fatal = false →
      ∀ id' ∈ call.todo.tail ++ w.engine.shards call.shardId,
        w.engine.keyOf id ≠ w.engine.keyOf id'
  | _ => True

instance (options : Options) (w : World) (move : Move) : Decidable (Fifo options w move) := by
  unfold Fifo
  split <;> infer_instance

/-- The items of a shard key that are settled, in hand or queued, in this order. -/
def lineOf (host : Host) (options : Options) (log : List ℕ) (e : Engine) (calls : List ShardCall)
    (key : String) : List ℕ :=
  e.keyed key (log ++ (calls.flatMap ShardCall.todo ++ e.shards (computeShard host options key)))

structure Ordered (host : Host) (options : Options) (log : List ℕ) (e : Engine)
    (calls : List ShardCall) : Prop where
  sound : Sound host options log e calls
  line : ∀ key, (lineOf host options log e calls key).Pairwise (· < ·)
  alone : calls.Pairwise fun c d => ∀ id ∈ c.todo, ∀ id' ∈ d.todo, e.keyOf id ≠ e.keyOf id'

section Keys

lemma keyed_append (e : Engine) (key : String) (ids ids' : List ℕ) :
    e.keyed key (ids ++ ids') = e.keyed key ids ++ e.keyed key ids' := List.filter_append ..

lemma keyed_cons (e : Engine) (key : String) (id : ℕ) (ids : List ℕ) :
    e.keyed key (id :: ids) = (if e.keyOf id = some key then [id] else []) ++ e.keyed key ids := by
  unfold Engine.keyed
  rw [List.filter_cons]
  by_cases h : e.keyOf id = some key <;> simp [h]

lemma keyed_eq_nil (h : ∀ id ∈ ids, e.keyOf id ≠ some key) : e.keyed key ids = [] := by
  simpa [Engine.keyed] using h

lemma keyed_congr (h : ∀ id ∈ ids, e'.keyOf id = e.keyOf id) (key : String) :
    e'.keyed key ids = e.keyed key ids := by
  apply List.filter_congr
  intro id hid
  rw [h id hid]

lemma keyOf_update (hkeeps : Keeps change) (id : ℕ) : (e.update id change).keyOf = e.keyOf := by
  funext k
  unfold Engine.keyOf
  rw [item?_update hkeeps]
  split_ifs with hk
  · subst hk
    cases e.item? k with
    | none => rfl
    | some item => simp [hkeeps.payload]
  · rfl

lemma keyOf_attachReceipts (receipt : ℕ → Receipt) (index : ℕ) (ids : List ℕ) :
    (Engine.attachReceipts receipt index ids e).keyOf = e.keyOf := by
  induction ids generalizing e index with
  | nil => rfl
  | cons id ids ih =>
    exact (ih (index + 1)).trans (keyOf_update (keeps_attachReceipt (receipt index)) id)

lemma shards_attachReceipts (receipt : ℕ → Receipt) (index : ℕ) (ids : List ℕ) :
    (Engine.attachReceipts receipt index ids e).shards = e.shards := by
  induction ids generalizing e index with
  | nil => rfl
  | cons id ids ih => exact ih (index + 1)

lemma keyOf_takeBatch (h : Sound host options log e calls) (s now : ℕ) :
    (e.takeBatch s now).2.keyOf = e.keyOf := by
  funext k
  unfold Engine.keyOf
  rw [(takeBatch_eq h s now).2.1]
  split_ifs
  · rw [Option.map_map]
    rfl
  · rfl

lemma keyOf_finish (host : Host) (e : Engine) (call : ShardCall) (batchTimestamp : ℕ) (latency : Latency) :
    (e.finish host call batchTimestamp latency).1.keyOf = e.keyOf := by
  unfold Engine.finish
  dsimp only
  split_ifs
  · rfl
  · exact keyOf_attachReceipts _ _ _

lemma shards_finish (batchTimestamp : ℕ) (latency : Latency) :
    (e.finish host call batchTimestamp latency).1.shards = e.shards := by
  unfold Engine.finish
  dsimp only
  split_ifs
  · rfl
  · exact shards_attachReceipts _ _ _

lemma Sound.shard_of_keyOf (h : Sound host options log e calls) (hitem : e.item? id = some item)
    (hkey : e.keyOf id = some key) : item.shardId = computeShard host options key := by
  rw [Engine.keyOf, hitem, Option.map_some, Option.some_inj] at hkey
  rw [h.shard item (mem_of_item? hitem).1, hkey]

end Keys

section Steps

lemma ordered_start (host : Host) (options : Options) (adaptiveBatchSize : ℕ) :
    Ordered host options [] { adaptiveBatchSize } [] where
  sound := sound_start host options adaptiveBatchSize
  line _ := List.Pairwise.nil
  alone := List.Pairwise.nil

lemma Sound.item_of_line (h : Sound host options log e calls)
    (hid : id ∈ log ++ (calls.flatMap ShardCall.todo ++ e.shards s)) :
    ∃ item, e.item? id = some item := by
  rw [List.mem_append, List.mem_append, List.mem_flatMap] at hid
  obtain hid | ⟨call, hcall, hid⟩ | hid := hid
  · obtain ⟨item, hitem, -⟩ := h.mem_log id hid
    exact ⟨item, hitem⟩
  · obtain ⟨item, hitem, -⟩ := h.mem_taken call hcall id hid
    exact ⟨item, hitem⟩
  · obtain ⟨item, hitem, -⟩ := (h.mem_shards s id).mp hid
    exact ⟨item, hitem⟩

lemma Ordered.insert (h : Ordered host options log e calls) (now : ℕ) (payload : Payload)
    (idempotencyKey : String) :
    Ordered host options log (e.insert host options now payload idempotencyKey) calls := by
  have hitems := item?_insert host options now payload idempotencyKey h.sound.drawn
  have hold {id : ℕ} (hid : ∃ item, e.item? id = some item) :
      (e.insert host options now payload idempotencyKey).keyOf id = e.keyOf id := by
    obtain ⟨item, hitem⟩ := hid
    rw [Engine.keyOf, hitems, if_neg (h.sound.ne_drawn hitem), Engine.keyOf]
  refine ⟨h.sound.insert now payload idempotencyKey, fun key => ?_, ?_⟩
  · have hline : lineOf host options log (e.insert host options now payload idempotencyKey) calls key =
        lineOf host options log e calls key ++
          (e.insert host options now payload idempotencyKey).keyed key
            (if computeShard host options key = computeShard host options payload.shardKey
              then [e.drawn] else []) := by
      rw [lineOf, lineOf, ← keyed_congr fun id hid => hold (h.sound.item_of_line hid), ← keyed_append,
        List.append_assoc, List.append_assoc]
      congr 3
      change Function.update e.shards (computeShard host options payload.shardKey) _ _ = _
      by_cases hs : computeShard host options key = computeShard host options payload.shardKey
      · rw [hs, Function.update_self, if_pos rfl]
        rfl
      · rw [Function.update_of_ne hs, if_neg hs, List.append_nil]
    rw [hline, List.pairwise_append]
    refine ⟨h.line key, ?_, fun id hid new hnew => ?_⟩
    · apply List.Pairwise.sublist (List.filter_sublist)
      split_ifs <;> simp
    · obtain ⟨item, hitem⟩ := h.sound.item_of_line (List.mem_of_mem_filter hid)
      have hnew := List.mem_of_mem_filter hnew
      split_ifs at hnew
      · rw [List.mem_singleton.mp hnew, ← (mem_of_item? hitem).2]
        exact h.sound.drawn item (mem_of_item? hitem).1
      · cases hnew
  · apply h.alone.imp_of_mem
    intro c d hc hd hcd id hid id' hid'
    obtain ⟨item, hitem, -⟩ := h.sound.mem_taken c hc id hid
    obtain ⟨item', hitem', -⟩ := h.sound.mem_taken d hd id' hid'
    rw [hold ⟨item, hitem⟩, hold ⟨item', hitem'⟩]
    exact hcd id hid id' hid'

lemma Ordered.takeBatch (h : Ordered host options log e calls) (hshard : call.shardId = s)
    (htodo : call.todo = (e.takeBatch s now).1)
    (hfifo : ∀ id ∈ e.taken s, ∀ call ∈ calls, ∀ id' ∈ call.todo, e.keyOf id ≠ e.keyOf id') :
    Ordered host options log (e.takeBatch s now).2 (calls ++ [call]) := by
  obtain ⟨htaken, -, -, hsame⟩ := takeBatch_eq h.sound s now
  have hkeyOf := keyOf_takeBatch h.sound s now
  rw [htaken] at htodo
  refine ⟨h.sound.takeBatch hshard (htodo.trans htaken.symm), fun key => ?_, ?_⟩
  · have hqueues : (e.takeBatch s now).2.shards = Function.update e.shards s (e.left s) := by
      rw [hsame]
    have hline : lineOf host options log (e.takeBatch s now).2 (calls ++ [call]) key =
        lineOf host options log e calls key := by
      rw [lineOf, lineOf, keyed_congr fun id _ => congrFun hkeyOf id, hqueues, List.flatMap_append,
        List.flatMap_singleton, htodo, List.append_assoc, keyed_append, keyed_append,
        keyed_append _ _ log, keyed_append _ _ (calls.flatMap _)]
      congr 2
      by_cases hs : computeShard host options key = s
      · rw [hs, Function.update_self, taken_append_left]
      · have hnone : e.keyed key (e.taken s) = [] := by
          apply keyed_eq_nil
          intro id hid hkey
          obtain ⟨item, hitem, hitemShard, -⟩ :=
            (h.sound.mem_shards s id).mp (List.mem_of_mem_take hid)
          exact hs ((h.sound.shard_of_keyOf hitem hkey).symm.trans hitemShard)
        rw [Function.update_of_ne hs, keyed_append, hnone, List.nil_append]
    rw [hline]
    exact h.line key
  · rw [hkeyOf, List.pairwise_append]
    refine ⟨h.alone, List.pairwise_singleton _ _, fun c hc d hd id hid id' hid' heq => ?_⟩
    rw [List.mem_singleton.mp hd, htodo] at hid'
    exact hfifo id' hid' c hc id hid heq.symm

lemma Ordered.alone_set (h : Ordered host options log e calls) (hcall : calls[i]? = some call)
    (hnext : next.todo.Sublist call.todo) :
    (calls.set i next).Pairwise fun c d => ∀ id ∈ c.todo, ∀ id' ∈ d.todo, e.keyOf id ≠ e.keyOf id' := by
  obtain ⟨before, after, rfl, hset⟩ := exists_split hcall
  have halone := h.alone
  rw [hset]
  rw [List.pairwise_append, List.pairwise_cons] at halone ⊢
  obtain ⟨hbefore, ⟨hcallAfter, hafter⟩, hacross⟩ := halone
  refine ⟨hbefore, ⟨fun d hd id hid => hcallAfter d hd id (hnext.subset hid), hafter⟩,
    fun c hc d hd id hid id' hid' => ?_⟩
  obtain rfl | hd := List.mem_cons.mp hd
  · exact hacross c hc call (List.mem_cons_self ..) id hid id' (hnext.subset hid')
  · exact hacross c hc d (List.mem_cons_of_mem _ hd) id hid id' hid'

lemma Ordered.finish (h : Ordered host options log e calls) (hcall : calls[i]? = some call)
    (batchTimestamp : ℕ) (latency : Latency) :
    Ordered host options log (e.finish host call batchTimestamp latency).1
      (calls.set i (e.finish host call batchTimestamp latency).2) := by
  have hkeyOf := keyOf_finish host e call batchTimestamp latency
  have htodo : (e.finish host call batchTimestamp latency).2.todo = call.todo := by
    unfold Engine.finish
    dsimp only
    split_ifs <;> rfl
  refine ⟨h.sound.finish hcall batchTimestamp latency, fun key => ?_, ?_⟩
  · have hline : lineOf host options log (e.finish host call batchTimestamp latency).1
        (calls.set i (e.finish host call batchTimestamp latency).2) key =
          lineOf host options log e calls key := by
      obtain ⟨before, after, rfl, hset⟩ := exists_split hcall
      rw [lineOf, lineOf, keyed_congr fun id _ => congrFun hkeyOf id, shards_finish, hset,
        List.flatMap_append, List.flatMap_cons, htodo, List.flatMap_append, List.flatMap_cons]
    rw [hline]
    exact h.line key
  · rw [hkeyOf]
    exact h.alone_set hcall (htodo ▸ List.Sublist.refl _)

/-- An attempt is out of the line, or behind it: then none of its key is between. -/
lemma Ordered.attempted {out : List ℕ} (back : List ℕ) (h : Ordered host options log e calls)
    (hsound : Sound host options (log ++ out) e' (calls.set i next))
    (hcall : calls[i]? = some call) (htodo : call.todo = id :: rest) (hkeyOf : e'.keyOf = e.keyOf)
    (hshards : ∀ s, e'.shards s = e.shards s ++ if s = call.shardId then back else [])
    (hnext : next.todo.Sublist rest) (hout : (out ++ back).Sublist [id])
    (hback : back = [] ∨ ∀ id' ∈ rest ++ e.shards call.shardId, e.keyOf id ≠ e.keyOf id') :
    Ordered host options (log ++ out) e' (calls.set i next) := by
  refine ⟨hsound, fun key => (h.line key).sublist ?_, ?_⟩
  · obtain ⟨before, after, rfl, hset⟩ := exists_split hcall
    obtain ⟨item, hitem, -, hshard⟩ := h.sound.mem_taken call (by simp) id (by simp [htodo])
    have halone := h.alone
    rw [List.pairwise_append, List.pairwise_cons] at halone
    obtain ⟨-, ⟨hafter, -⟩, hbefore⟩ := halone
    have hid : id ∈ call.todo := htodo ▸ List.mem_cons_self ..
    have hrest : (e.keyed key next.todo).Sublist (e.keyed key rest) := hnext.filter _
    rw [lineOf, lineOf, keyed_congr fun id _ => congrFun hkeyOf id, hshards, hset]
    simp only [List.flatMap_append, List.flatMap_cons, keyed_append, htodo, List.cons_append,
      List.append_assoc]
    apply (List.Sublist.refl _).append
    by_cases hkey : e.keyOf id = some key
    · have hnoneBefore : e.keyed key (before.flatMap ShardCall.todo) = [] := by
        apply keyed_eq_nil
        intro id' hid' hkey'
        obtain ⟨c, hc, hid'⟩ := List.mem_flatMap.mp hid'
        exact hbefore c hc call (by simp) id' hid' id hid (hkey'.trans hkey.symm)
      have hnoneAfter : e.keyed key (after.flatMap ShardCall.todo) = [] := by
        apply keyed_eq_nil
        intro id' hid' hkey'
        obtain ⟨c, hc, hid'⟩ := List.mem_flatMap.mp hid'
        exact hafter c hc id hid id' hid' (hkey.trans hkey'.symm)
      have hqueue : computeShard host options key = call.shardId :=
        (h.sound.shard_of_keyOf hitem hkey).symm.trans hshard
      rw [hqueue, if_pos rfl, keyed_cons, if_pos hkey]
      simp only [keyed_append, hnoneBefore, hnoneAfter, List.nil_append]
      have hself : e.keyed key [id] = [id] := by simp [Engine.keyed, hkey]
      have hmoved : (e.keyed key (out ++ back)).Sublist [id] := hself ▸ hout.filter _
      rw [keyed_append] at hmoved
      obtain rfl | hback := hback
      · rw [show e.keyed key [] = [] from rfl, List.append_nil] at hmoved ⊢
        exact hmoved.append (hrest.append (List.Sublist.refl _))
      · have hnone : e.keyed key (rest ++ e.shards call.shardId) = [] :=
          keyed_eq_nil fun id' hid' hkey' => hback id' hid' (hkey.trans hkey'.symm)
        rw [keyed_append, List.append_eq_nil_iff] at hnone
        rw [hnone.1] at hrest ⊢
        rw [List.sublist_nil.mp hrest, hnone.2]
        simpa using hmoved
    · have hnone {ids : List ℕ} (hids : ids.Sublist [id]) : e.keyed key ids = [] :=
        keyed_eq_nil fun id' hid' => by rwa [List.mem_singleton.mp (hids.subset hid')]
      have hnoneOut := hnone ((List.sublist_append_left out back).trans hout)
      have hnoneBack : e.keyed key (if computeShard host options key = call.shardId then back
          else []) = [] := by
        split_ifs
        · exact hnone ((List.sublist_append_right out back).trans hout)
        · rfl
      rw [hnoneOut, hnoneBack, keyed_cons, if_neg hkey]
      simp only [keyed_append, List.nil_append, List.append_nil]
      exact (List.Sublist.refl _).append (hrest.append (List.Sublist.refl _))
  · rw [hkeyOf]
    exact h.alone_set hcall (htodo ▸ hnext.cons id)

lemma Ordered.attempt (h : Ordered host options log e calls) (hcall : calls[i]? = some call)
    (htodo : call.todo = id :: rest) (now : ℕ) (result : Attempt)
    (hfifo : ∀ message fatal item, result = .throws message fatal → e.item? id = some item →
      isFatal options item fatal = false →
      ∀ id' ∈ rest ++ e.shards call.shardId, e.keyOf id ≠ e.keyOf id') :
    Ordered host options (log ++ result.out id) (e.attempt options call now id rest result).1
      (calls.set i (e.attempt options call now id rest result).2) := by
  obtain ⟨item, hitem, -⟩ :=
    h.sound.mem_taken call (List.mem_of_getElem? hcall) id (by simp [htodo])
  have hsound := h.sound.attempt hcall htodo now result
  cases result with
  | returns =>
    exact h.attempted [] hsound hcall htodo (keyOf_update (keeps_settle now) id)
      (fun s => by rw [ite_self, List.append_nil]; rfl) (List.Sublist.refl _)
      (List.Sublist.refl [id]) (.inl rfl)
  | throwsNothing =>
    exact h.attempted [] hsound hcall htodo (keyOf_update keeps_countAttempt id)
      (fun s => by rw [ite_self, List.append_nil]; rfl) (List.nil_sublist _)
      (List.nil_sublist _) (.inl rfl)
  | throws message fatal =>
    rw [Engine.attempt, fail_eq hitem, Attempt.out] at hsound ⊢
    by_cases hfatal : isFatal options item fatal
    · rw [if_pos hfatal] at hsound ⊢
      exact h.attempted [] hsound hcall htodo
        (keyOf_update (keeps_retry now message .dlq) id)
        (fun s => by rw [ite_self, List.append_nil]; rfl) (List.Sublist.refl _)
        (List.nil_sublist _) (.inl rfl)
    · rw [if_neg hfatal] at hsound ⊢
      have hbehind := hfifo message fatal item rfl hitem (Bool.not_eq_true _ ▸ hfatal)
      refine h.attempted [id] hsound hcall htodo
        (keyOf_update (keeps_retry now message .failed) id) (fun s => ?_) (List.Sublist.refl _)
        (List.Sublist.refl [id]) (.inr hbehind)
      by_cases hs : s = call.shardId
      · rw [hs, if_pos rfl]
        exact Function.update_self ..
      · rw [if_neg hs, List.append_nil]
        exact Function.update_of_ne hs ..

lemma Ordered.step (h : Ordered host options log w.engine w.shardCalls)
    (hfifo : Fifo options w move) :
    Ordered host options (log ++ settlements w move) (Settlement.step host options move w).engine
      (Settlement.step host options move w).shardCalls := by
  apply step_rule (J := Ordered host options)
  · intro _ payload key _ _ h
    exact h.insert move.now payload key
  · intro s call haction _ hshard htodo _ h
    rw [Fifo, haction] at hfifo
    exact h.takeBatch hshard htodo hfifo
  · intro i call id rest result ts latency haction hcall htodo h
    apply h.attempt hcall htodo move.now result
    intro message fatal item hresult hitem hfatal
    rw [Fifo, haction, hresult] at hfifo
    have hbehind := hfifo call hcall id (by rw [htodo]; rfl) item hitem hfatal
    rwa [htodo] at hbehind
  · intro log e calls i call ts latency h hcall _
    exact h.finish hcall ts latency
  · exact h

lemma Ordered.inOrder (h : Ordered host options log e calls) : InOrder e log := by
  intro key
  have hlog : (e.keyed key log).Pairwise (· < ·) := by
    have hline := h.line key
    rw [lineOf, keyed_append, List.pairwise_append] at hline
    exact hline.1
  apply List.sublist_of_subperm_of_pairwise _ hlog h.sound.ids
  apply List.subperm_of_subset (hlog.imp ne_of_lt)
  intro id hid
  obtain ⟨item, hitem, -⟩ := h.sound.mem_log id (List.mem_of_mem_filter hid)
  exact List.mem_map.mpr ⟨item, mem_of_item? hitem⟩

end Steps

def sampleHost : Host where
  sha256 := sampleSha256
  randomUUID n := toString n
  parsesPositive _ := true

def sampleOptions : Options where
  numShards := 1
  batchSize := 2
  maxRetries := 3
  numShards_pos := Nat.one_pos
  batchSize_pos := Nat.two_pos

def samplePayment (amount : String) : Payload := ⟨"GA", "GB", .string amount, none, none⟩

def enqueue (i : ℕ) (key : String) : List Move :=
  [⟨0, .enqueuePayment (samplePayment key) key⟩, ⟨0, .redisGet i false⟩, ⟨0, .resume i⟩,
    ⟨0, .redisSet i false⟩]

def attempts (call : ℕ) (results : List Attempt) : List Move :=
  ⟨0, .processShard 0⟩ :: results.map fun result => ⟨0, .attempt call result 0 .between⟩

end StellarTags.Settlement
