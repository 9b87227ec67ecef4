import StellarTags.Settlement.Accounts

/-! The receipts of settled items, and the chain that their batches form. -/

namespace StellarTags.Settlement

open Library.Runs Library.Tables Platform

variable {host : Host} {options : Options} {w : World} {move : Move} {e e' : Engine}
  {calls : List ShardCall} {call next : ShardCall} {log ids rest : List ℕ} {id k s now i : ℕ}
  {item : OutboxItem} {change : OutboxItem → OutboxItem} {batches : List BatchRecord}
  {b : BatchRecord} {prev last : String} {receipt : ℕ → Receipt} {r : Receipt}

section Chains

/-- Every batch names the hash of the one before, the first one `prev`; `last` is the newest. -/
def Linked : String → List BatchRecord → String → Prop
  | prev, [], last => prev = last
  | prev, b :: batches, last => b.prevBatchHash = prev ∧ Linked b.chainHash batches last

lemma Linked.snoc (h : Linked prev batches last) (hb : b.prevBatchHash = last) :
    Linked prev (batches ++ [b]) b.chainHash := by
  induction batches generalizing prev with
  | nil => exact ⟨hb.trans h.symm, rfl⟩
  | cons first batches ih => exact ⟨h.1, ih h.2⟩

end Chains

section Attaching

lemma item?_attachReceipts (receipt : ℕ → Receipt) (index : ℕ) (hnodup : ids.Nodup) (k : ℕ) :
    (Engine.attachReceipts receipt index ids e).item? k =
      if k ∈ ids then (e.item? k).map (attachReceipt (receipt (index + ids.idxOf k)))
      else e.item? k := by
  induction ids generalizing e index with
  | nil => rfl
  | cons id ids ih =>
    obtain ⟨hnew, hrest⟩ := List.nodup_cons.mp hnodup
    rw [Engine.attachReceipts, ih (index + 1) hrest,
      item?_update (keeps_attachReceipt (receipt index))]
    by_cases hk : k = id
    · subst hk
      rw [if_neg hnew, if_pos rfl, if_pos (List.mem_cons_self ..), List.idxOf_cons_self, Nat.add_zero]
    · rw [if_neg hk]
      by_cases hmem : k ∈ ids
      · rw [if_pos hmem, if_pos (List.mem_cons_of_mem _ hmem), List.idxOf_cons_ne _ (Ne.symm hk)]
        congr 3
        omega
      · rw [if_neg hmem, if_neg (by simp [hk, hmem])]

lemma attachReceipts_books (receipt : ℕ → Receipt) (index : ℕ) (ids : List ℕ) (e : Engine) :
    (Engine.attachReceipts receipt index ids e).batches = e.batches ∧
      (Engine.attachReceipts receipt index ids e).lastBatchHash = e.lastBatchHash ∧
      (Engine.attachReceipts receipt index ids e).drawn = e.drawn := by
  induction ids generalizing e index with
  | nil => exact ⟨rfl, rfl, rfl⟩
  | cons id ids ih => exact ih (index + 1) (e.update id (attachReceipt (receipt index)))

lemma getElem?_filterMap {α β : Type} {f : α → Option β} {as : List α}
    (h : ∀ a ∈ as, (f a).isSome) (i : ℕ) : (as.filterMap f)[i]? = as[i]?.bind f := by
  induction as generalizing i with
  | nil => rfl
  | cons a as ih =>
    obtain ⟨b, hb⟩ := Option.isSome_iff_exists.mp (h a (by simp))
    rw [List.filterMap_cons_some hb]
    cases i with
    | zero => simp [hb]
    | succ i => simpa using ih (fun a ha => h a (List.mem_cons_of_mem _ ha)) i

end Attaching

/-- The receipt is that of a batch on the chain, and its proof is right. -/
def Certified (host : Host) (batches : List BatchRecord) (item : OutboxItem) (r : Receipt) : Prop :=
  (∃ b ∈ batches, b.batchId = r.batchId ∧ b.chainHash = r.chainHash) ∧
    verifyProof host.sha256 (item.leaf host) r.proof (.hex r.merkleRoot) = true

structure Receipted (host : Host) (options : Options) (log : List ℕ) (e : Engine)
    (calls : List ShardCall) : Prop where
  sound : Sound host options log e calls
  receipts : ∀ id item r, e.item? id = some item → item.receipt = some r →
    item.status = .settled ∧ Certified host e.batches item r
  batchIds : (e.batches.map BatchRecord.batchId).Pairwise (· < ·)
  drawn : ∀ b ∈ e.batches, b.batchId < e.drawn
  hashes : ∀ b ∈ e.batches, b.chainHash =
    computeBatchChainHash host b.prevBatchHash b.merkleRoot b.timestamp b.batchId
  linked : Linked zeroHash e.batches e.lastBatchHash
  waiting : ∀ call ∈ calls, ∀ id ∈ call.successfulItems,
    ∃ item, e.item? id = some item ∧ item.status = .settled ∧ item.receipt = none
  successful : (calls.flatMap ShardCall.successfulItems).Nodup

lemma receipted_start (host : Host) (options : Options) (adaptiveBatchSize : ℕ) :
    Receipted host options [] { adaptiveBatchSize } [] where
  sound := sound_start host options adaptiveBatchSize
  receipts _ _ _ h := by cases h
  batchIds := List.Pairwise.nil
  drawn _ h := by cases h
  hashes _ h := by cases h
  linked := rfl
  waiting _ h := by cases h
  successful := List.nodup_nil

lemma Receipted.insert (h : Receipted host options log e calls) (now : ℕ) (payload : Payload)
    (key : String) : Receipted host options log (e.insert host options now payload key) calls := by
  have hitems := item?_insert host options now payload key h.sound.drawn
  refine ⟨h.sound.insert now payload key, fun id item r hitem hr => ?_, h.batchIds,
    fun b hb => (h.drawn b hb).trans (Nat.lt_succ_self _), h.hashes, h.linked,
    fun call hcall id hid => ?_, h.successful⟩
  · rw [hitems] at hitem
    split_ifs at hitem
    · obtain rfl := Option.some.inj hitem
      cases hr
    · exact h.receipts id item r hitem hr
  · obtain ⟨item, hitem, hstatus⟩ := h.waiting call hcall id hid
    refine ⟨item, ?_, hstatus⟩
    rw [hitems, if_neg (h.sound.ne_drawn hitem), hitem]

lemma Receipted.takeBatch (h : Receipted host options log e calls) (hshard : call.shardId = s)
    (htodo : call.todo = (e.takeBatch s now).1) (hnone : call.successfulItems = []) :
    Receipted host options log (e.takeBatch s now).2 (calls ++ [call]) := by
  obtain ⟨-, hitems, -, hsame⟩ := takeBatch_eq h.sound s now
  have hsound := h.sound.takeBatch hshard htodo
  generalize e.takeBatch s now = started at *
  obtain ⟨todo, next⟩ := started
  dsimp only at *
  -- what is taken waited, so it was not settled
  have hother {k : ℕ} {item : OutboxItem} (hitem : e.item? k = some item)
      (hstatus : item.status = .settled) : k ∉ e.taken s := fun hk => by
    obtain ⟨item', hitem', -, hwaiting⟩ :=
      (h.sound.mem_shards s k).mp (List.mem_of_mem_take hk)
    rw [hitem] at hitem'
    rw [← Option.some.inj hitem', hstatus] at hwaiting
    revert hwaiting
    decide
  have hbatches : next.batches = e.batches := by rw [hsame]
  have hlast : next.lastBatchHash = e.lastBatchHash := by rw [hsame]
  have hdrawn : next.drawn = e.drawn := by rw [hsame]
  refine ⟨hsound, fun k item r hitem hr => ?_, hbatches ▸ h.batchIds, ?_, hbatches ▸ h.hashes, ?_,
    fun other hcall k hk => ?_, ?_⟩
  · rw [hbatches]
    rw [hitems] at hitem
    split_ifs at hitem with hk
    · obtain ⟨old, hold, rfl⟩ := Option.map_eq_some_iff.mp hitem
      exact absurd hk (hother hold (h.receipts k old r hold hr).1)
    · exact h.receipts k item r hitem hr
  · rw [hbatches, hdrawn]
    exact h.drawn
  · rw [hbatches, hlast]
    exact h.linked
  · obtain hcall | hcall := List.mem_append.mp hcall
    · obtain ⟨item, hitem, hstatus, hreceipt⟩ := h.waiting other hcall k hk
      exact ⟨item, by rw [hitems, if_neg (hother hitem hstatus), hitem], hstatus, hreceipt⟩
    · rw [List.mem_singleton.mp hcall, hnone] at hk
      cases hk
  · rw [List.flatMap_append, List.flatMap_singleton, hnone, List.append_nil]
    exact h.successful

lemma Receipted.attempted {out : List ℕ} (h : Receipted host options log e calls)
    (hsound : Sound host options (log ++ out) e' (calls.set i next)) (hkeeps : Keeps change)
    (hreceipt : ∀ item, (change item).receipt = item.receipt) (hcall : calls[i]? = some call)
    (hitem : e.item? id = some item) (hprocessing : item.status = .processing)
    (hitems : e'.items = (e.update id change).items)
    (hbooks : e'.batches = e.batches ∧ e'.lastBatchHash = e.lastBatchHash ∧ e'.drawn = e.drawn)
    (hnext : next.successfulItems.Sublist (call.successfulItems ++ [id]))
    (hnew : id ∈ next.successfulItems → (change item).status = .settled) :
    Receipted host options (log ++ out) e' (calls.set i next) := by
  obtain ⟨hbatches, hlast, hdrawn⟩ := hbooks
  have hlookup (k : ℕ) : e'.item? k = if k = id then some (change item) else e.item? k := by
    rw [Engine.item?, hitems, ← Engine.item?, item?_update hkeeps, hitem, Option.map_some]
  have hne {k : ℕ} {other : OutboxItem} (hother : e.item? k = some other)
      (hstatus : other.status = .settled) : k ≠ id := by
    rintro rfl
    rw [hitem] at hother
    rw [← Option.some.inj hother, hprocessing] at hstatus
    cases hstatus
  have hnone : item.receipt = none := by
    by_contra hsome
    obtain ⟨r, hr⟩ := Option.ne_none_iff_exists'.mp hsome
    exact hne hitem (h.receipts id item r hitem hr).1 rfl
  have hwaiting (other : ShardCall) {k : ℕ} (hother : other ∈ calls)
      (hk : k ∈ other.successfulItems) : ∃ item, e'.item? k = some item ∧
        item.status = .settled ∧ item.receipt = none := by
    obtain ⟨item, hitem, hstatus, hreceipt⟩ := h.waiting other hother k hk
    exact ⟨item, by rw [hlookup, if_neg (hne hitem hstatus), hitem], hstatus, hreceipt⟩
  refine ⟨hsound, fun k item' r hitem' hr => ?_, hbatches ▸ h.batchIds, ?_, hbatches ▸ h.hashes, ?_,
    ?_, ?_⟩
  · rw [hbatches]
    rw [hlookup] at hitem'
    split_ifs at hitem' with hk
    · rw [← Option.some.inj hitem', hreceipt, hnone] at hr
      cases hr
    · exact h.receipts k item' r hitem' hr
  · rw [hbatches, hdrawn]
    exact h.drawn
  · rw [hbatches, hlast]
    exact h.linked
  · intro other hother k hk
    obtain hother | rfl := List.mem_or_eq_of_mem_set hother
    · exact hwaiting other hother hk
    · obtain hold | hlast := List.mem_append.mp (hnext.subset hk)
      · exact hwaiting call (List.mem_of_getElem? hcall) hold
      · obtain rfl := List.mem_singleton.mp hlast
        exact ⟨change item, by rw [hlookup, if_pos rfl], hnew hk, (hreceipt item).trans hnone⟩
  · obtain ⟨before, after, rfl, hset⟩ := exists_split hcall
    have hfresh : id ∉ (before ++ call :: after).flatMap ShardCall.successfulItems := fun hmem => by
      obtain ⟨other, hother, hk⟩ := List.mem_flatMap.mp hmem
      obtain ⟨item', hitem', hstatus, -⟩ := h.waiting other hother id hk
      exact hne hitem' hstatus rfl
    have hsuccessful := h.successful
    rw [List.flatMap_append, List.flatMap_cons] at hfresh hsuccessful
    have hall : (before.flatMap ShardCall.successfulItems ++
        ((call.successfulItems ++ [id]) ++ after.flatMap ShardCall.successfulItems)).Nodup := by
      rw [List.append_assoc, ← List.append_assoc, List.singleton_append, List.nodup_middle,
        List.append_assoc]
      exact List.nodup_cons.mpr ⟨hfresh, hsuccessful⟩
    rw [hset, List.flatMap_append, List.flatMap_cons]
    exact hall.sublist ((List.Sublist.refl _).append (hnext.append (List.Sublist.refl _)))

lemma Receipted.attempt (h : Receipted host options log e calls) (hcall : calls[i]? = some call)
    (htodo : call.todo = id :: rest) (now : ℕ) (result : Attempt) :
    Receipted host options (log ++ result.out id) (e.attempt options call now id rest result).1
      (calls.set i (e.attempt options call now id rest result).2) := by
  obtain ⟨item, hitem, hprocessing, -⟩ :=
    h.sound.mem_taken call (List.mem_of_getElem? hcall) id (by simp [htodo])
  have hnew : id ∉ call.successfulItems := fun hid => by
    obtain ⟨item', hitem', hstatus, -⟩ := h.waiting call (List.mem_of_getElem? hcall) id hid
    rw [hitem] at hitem'
    rw [← Option.some.inj hitem', hprocessing] at hstatus
    cases hstatus
  have hsound := h.sound.attempt hcall htodo now result
  cases result with
  | returns =>
    exact h.attempted hsound (keeps_settle now) (fun _ => rfl) hcall hitem hprocessing rfl
      ⟨rfl, rfl, rfl⟩ (List.Sublist.refl _) fun _ => rfl
  | throwsNothing =>
    exact h.attempted hsound keeps_countAttempt (fun _ => rfl) hcall hitem hprocessing rfl
      ⟨rfl, rfl, rfl⟩ (List.nil_sublist _) fun hid => by cases hid
  | throws message fatal =>
    have hsame : call.successfulItems.Sublist (call.successfulItems ++ [id]) :=
      List.sublist_append_left _ _
    rw [Engine.attempt, fail_eq hitem] at hsound ⊢
    split_ifs at hsound ⊢
    · exact h.attempted hsound (keeps_retry now message .dlq) (fun _ => rfl) hcall hitem hprocessing
        rfl ⟨rfl, rfl, rfl⟩ hsame fun hid => absurd hid hnew
    · exact h.attempted hsound (keeps_retry now message .failed) (fun _ => rfl) hcall hitem
        hprocessing rfl ⟨rfl, rfl, rfl⟩ hsame fun hid => absurd hid hnew

section Finishing

lemma leaf_attachReceipt (host : Host) (r : Receipt) (item : OutboxItem) :
    (attachReceipt r item).leaf host = item.leaf host := rfl

/-- The proof of an item in a batch leads to the root of the batch. -/
lemma newBatch_verifies (timestamp : ℕ) (hitems : ∀ id ∈ ids, ∃ item, e.item? id = some item)
    (hk : k ∈ ids) (hitem : e.item? k = some item) :
    verifyProof host.sha256 (item.leaf host)
      ((e.newBatch host s timestamp ids).receipt (e.batchTree host ids) (ids.idxOf k)).proof
      (.hex (e.newBatch host s timestamp ids).merkleRoot) = true := by
  have hleaf : ((ids.filterMap e.item?).map (OutboxItem.leaf host))[ids.idxOf k]? =
      some (item.leaf host) := by
    rw [List.getElem?_map, getElem?_filterMap fun id hid =>
      Option.isSome_iff_exists.mpr (hitems id hid), List.getElem?_idxOf hk, Option.bind_some, hitem,
      Option.map_some]
  have hproved : ∃ proof, (e.batchTree host ids).getProof (ids.idxOf k) = .ok proof ∧
      verifyProof host.sha256 (item.leaf host) proof
        (.hex (e.batchTree host ids).getRootHex) = true :=
    (verifyProof_getProof hleaf).imp fun _ hproof => ⟨hproof.1, hproof.2.2⟩
  obtain ⟨proof, hproof, hverify⟩ := hproved
  have hgot : ((e.newBatch host s timestamp ids).receipt (e.batchTree host ids)
      (ids.idxOf k)).proof = proof := by
    change ((e.batchTree host ids).getProof (ids.idxOf k)).toOption.getD [] = proof
    rw [hproof]
    rfl
  rw [hgot]
  exact hverify

lemma Receipted.setCall (h : Receipted host options log e calls) (hcall : calls[i]? = some call)
    (hnext : next.successfulItems = []) (hsound : Sound host options log e (calls.set i next)) :
    Receipted host options log e (calls.set i next) := by
  refine { h with sound := hsound, waiting := fun other hother k hk => ?_, successful := ?_ }
  · obtain hmem | rfl := List.mem_or_eq_of_mem_set hother
    · exact h.waiting other hmem k hk
    · rw [hnext] at hk
      cases hk
  · obtain ⟨before, after, rfl, hset⟩ := exists_split hcall
    have hsuccessful := h.successful
    rw [List.flatMap_append, List.flatMap_cons] at hsuccessful
    rw [hset, List.flatMap_append, List.flatMap_cons, hnext]
    exact hsuccessful.sublist ((List.Sublist.refl _).append (List.sublist_append_right _ _))

lemma Receipted.settleBatch (h : Receipted host options log e calls) (hcall : calls[i]? = some call)
    (hnext : next.successfulItems = []) (timestamp : ℕ)
    (hsound : Sound host options log (e.settleBatch host call.shardId timestamp
      call.successfulItems).1 (calls.set i next)) :
    Receipted host options log (e.settleBatch host call.shardId timestamp call.successfulItems).1
      (calls.set i next) := by
  obtain ⟨before, after, rfl, hset⟩ := exists_split hcall
  have hsuccessful := h.successful
  rw [List.flatMap_append, List.flatMap_cons, ← List.append_assoc,
    List.perm_append_comm.append_right _ |>.nodup_iff, List.append_assoc,
    List.nodup_append] at hsuccessful
  obtain ⟨hnodup, hothers, hdisjoint⟩ := hsuccessful
  have hitems : ∀ id ∈ call.successfulItems, ∃ item, e.item? id = some item := fun id hid => by
    obtain ⟨item, hitem, -⟩ := h.waiting call (by simp) id hid
    exact ⟨item, hitem⟩
  have hlookup (k : ℕ) : (e.settleBatch host call.shardId timestamp call.successfulItems).1.item? k =
      if k ∈ call.successfulItems then (e.item? k).map (attachReceipt
        ((e.newBatch host call.shardId timestamp call.successfulItems).receipt
          (e.batchTree host call.successfulItems) (0 + call.successfulItems.idxOf k)))
      else e.item? k := item?_attachReceipts _ 0 hnodup k
  obtain ⟨hbatches, hlast, hdrawn⟩ := attachReceipts_books
    ((e.newBatch host call.shardId timestamp call.successfulItems).receipt
      (e.batchTree host call.successfulItems)) 0 call.successfulItems { e with
    batches := e.batches ++ [e.newBatch host call.shardId timestamp call.successfulItems]
    lastBatchHash := (e.newBatch host call.shardId timestamp call.successfulItems).chainHash
    drawn := e.drawn + 1 }
  have hother {other : ShardCall} (hother : other ∈ before ∨ other ∈ after) {k : ℕ}
      (hk : k ∈ other.successfulItems) : k ∉ call.successfulItems := fun hin => by
    refine hdisjoint k hin k ?_ rfl
    rw [List.mem_append, List.mem_flatMap, List.mem_flatMap]
    exact hother.imp (fun hmem => ⟨other, hmem, hk⟩) fun hmem => ⟨other, hmem, hk⟩
  refine ⟨hsound, fun k item r hitem hr => ?_, ?_, ?_, ?_, ?_, ?_, ?_⟩
  · rw [Engine.settleBatch, hbatches]
    rw [hlookup] at hitem
    split_ifs at hitem with hk
    · obtain ⟨old, hold, rfl⟩ := Option.map_eq_some_iff.mp hitem
      obtain rfl := Option.some.inj hr
      obtain ⟨item, hitem, hstatus, -⟩ := h.waiting call (by simp) k hk
      obtain rfl := Option.some.inj (hold.symm.trans hitem)
      refine ⟨hstatus, ⟨_, List.mem_append_right _ (List.mem_singleton_self _), rfl, rfl⟩, ?_⟩
      rw [leaf_attachReceipt, Nat.zero_add]
      exact newBatch_verifies timestamp hitems hk hold
    · obtain ⟨hstatus, ⟨b, hb, hsame⟩, hverify⟩ := h.receipts k item r hitem hr
      exact ⟨hstatus, ⟨b, List.mem_append_left _ hb, hsame⟩, hverify⟩
  · rw [Engine.settleBatch, hbatches, List.map_append, List.pairwise_append]
    refine ⟨h.batchIds, List.pairwise_singleton _ _, fun old hold new hnew => ?_⟩
    obtain ⟨b, hb, rfl⟩ := List.mem_map.mp hold
    rw [List.mem_singleton.mp hnew]
    exact h.drawn b hb
  · rw [Engine.settleBatch, hbatches, hdrawn]
    intro b hb
    obtain hb | hb := List.mem_append.mp hb
    · exact (h.drawn b hb).trans (Nat.lt_succ_self _)
    · rw [List.mem_singleton.mp hb]
      exact Nat.lt_succ_self _
  · rw [Engine.settleBatch, hbatches]
    intro b hb
    obtain hb | hb := List.mem_append.mp hb
    · exact h.hashes b hb
    · rw [List.mem_singleton.mp hb]
      rfl
  · rw [Engine.settleBatch, hbatches, hlast]
    exact h.linked.snoc rfl
  · rw [hset]
    intro other hmem k hk
    rw [List.mem_append, List.mem_cons] at hmem
    obtain hmem | rfl | hmem := hmem
    · rw [hlookup, if_neg (hother (.inl hmem) hk)]
      exact h.waiting other (by simp [hmem]) k hk
    · rw [hnext] at hk
      cases hk
    · rw [hlookup, if_neg (hother (.inr hmem) hk)]
      exact h.waiting other (by simp [hmem]) k hk
  · rw [hset, List.flatMap_append, List.flatMap_cons, hnext, List.nil_append]
    exact hothers

lemma Receipted.finish (h : Receipted host options log e calls) (hcall : calls[i]? = some call)
    (batchTimestamp : ℕ) (latency : Latency) :
    Receipted host options log (e.finish host call batchTimestamp latency).1
      (calls.set i (e.finish host call batchTimestamp latency).2) := by
  have hsound := h.sound.finish hcall batchTimestamp latency
  unfold Engine.finish at hsound ⊢
  dsimp only at hsound ⊢
  have hadapted : Receipted host options log
      { e with adaptiveBatchSize := adapt latency e.adaptiveBatchSize } calls :=
    { h with sound := h.sound.books e.batches e.lastBatchHash _ le_rfl }
  split_ifs at hsound ⊢ with hnone
  · exact hadapted.setCall hcall rfl hsound
  · exact hadapted.settleBatch hcall rfl batchTimestamp hsound

lemma Receipted.step (h : Receipted host options log w.engine w.shardCalls) (move : Move) :
    Receipted host options (log ++ settlements w move)
      (Settlement.step host options move w).engine
      (Settlement.step host options move w).shardCalls :=
  step_rule (J := Receipted host options) (fun _ payload key _ _ h => h.insert move.now payload key)
    (fun _ _ _ _ hshard htodo hnone h => h.takeBatch hshard htodo hnone)
    (fun _ _ _ _ result _ _ _ hcall htodo h => h.attempt hcall htodo move.now result)
    (fun _ _ _ _ _ ts latency h hcall _ => h.finish hcall ts latency) h

end Finishing

section Places

inductive Place
  | queued
  | processing
  | settled
  | deadLettered
  deriving DecidableEq, Repr

def pendingQueues (options : Options) (e : Engine) : List ℕ :=
  (List.range options.numShards).flatMap e.shards

/-- A queued item is in the queues once. -/
def At (options : Options) (e : Engine) (item : OutboxItem) : Place → Prop
  | .queued => (pendingQueues options e).count item.id = 1
  | .processing => item.status = .processing
  | .settled => item.status = .settled
  | .deadLettered => item.id ∈ e.dlq

lemma computeShard_lt (host : Host) (options : Options) (key : String) :
    computeShard host options key < options.numShards := by
  unfold computeShard
  split_ifs
  · exact options.numShards_pos
  · exact Nat.mod_lt _ options.numShards_pos

lemma Sound.item?_of_mem (h : Sound host options log e calls) (hitem : item ∈ e.items) :
    e.item? item.id = some item := h.keyed.lookup_eq_some.mpr ⟨hitem, rfl⟩

lemma Sound.nodup_pendingQueues (h : Sound host options log e calls) :
    (pendingQueues options e).Nodup := by
  refine List.nodup_flatMap.mpr ⟨fun s _ => h.queue s, List.nodup_range.imp fun {s t} hst => ?_⟩
  intro id hs ht
  obtain ⟨item, hitem, hshard, -⟩ := (h.mem_shards s id).mp hs
  obtain ⟨item', hitem', hshard', -⟩ := (h.mem_shards t id).mp ht
  rw [hitem] at hitem'
  obtain rfl := Option.some.inj hitem'
  exact hst (hshard.symm.trans hshard')

lemma Sound.mem_pendingQueues (h : Sound host options log e calls) (hitem : item ∈ e.items) :
    item.id ∈ pendingQueues options e ↔ item.status.Waiting := by
  have hlookup := h.item?_of_mem hitem
  rw [pendingQueues, List.mem_flatMap]
  constructor
  · rintro ⟨s, -, hmem⟩
    obtain ⟨item', hitem', -, hwaiting⟩ := (h.mem_shards s item.id).mp hmem
    rw [hlookup] at hitem'
    rwa [Option.some.inj hitem']
  · intro hwaiting
    refine ⟨item.shardId, ?_, (h.mem_shards _ _).mpr ⟨item, hlookup, rfl, hwaiting⟩⟩
    rw [List.mem_range, h.shard item hitem]
    exact computeShard_lt host options _

lemma Sound.place (h : Sound host options log e calls) (hitem : item ∈ e.items) :
    ∃! place, At options e item place := by
  have hqueued : At options e item .queued ↔ item.status.Waiting := by
    rw [← h.mem_pendingQueues hitem]
    refine ⟨fun hcount => List.count_pos_iff.mp ?_, List.count_eq_one_of_mem h.nodup_pendingQueues⟩
    exact Nat.pos_of_ne_zero fun hzero => absurd (hcount.symm.trans hzero) Nat.one_ne_zero
  have hdead : At options e item .deadLettered ↔ item.status = .dlq := by
    change item.id ∈ e.dlq ↔ _
    rw [h.mem_dlq, h.item?_of_mem hitem]
    simp
  have hplace (place : Place) : At options e item place ↔ match place with
      | .queued => item.status.Waiting
      | .processing => item.status = .processing
      | .settled => item.status = .settled
      | .deadLettered => item.status = .dlq := by
    cases place with
    | queued => exact hqueued
    | processing => exact Iff.rfl
    | settled => exact Iff.rfl
    | deadLettered => exact hdead
  simp only [hplace, ExistsUnique]
  cases hstatus : item.status with
  | pending => exact ⟨.queued, .inl rfl, fun place => by cases place <;> simp⟩
  | failed => exact ⟨.queued, .inr rfl, fun place => by cases place <;> simp⟩
  | processing => exact ⟨.processing, rfl, fun place => by cases place <;> simp [Status.Waiting]⟩
  | settled => exact ⟨.settled, rfl, fun place => by cases place <;> simp [Status.Waiting]⟩
  | dlq => exact ⟨.deadLettered, rfl, fun place => by cases place <;> simp [Status.Waiting]⟩

lemma Receipted.verifyItemProof (h : Receipted host options log e calls) (hitem : item ∈ e.items)
    (hr : item.receipt = some r) :
    (Settlement.verifyItemProof host e item.id).valid = true ∧
      (Settlement.verifyItemProof host e item.id).chainValid = true := by
  have hlookup := h.sound.item?_of_mem hitem
  obtain ⟨-, ⟨b, hb, hid, hchain⟩, hverify⟩ := h.receipts item.id item r hlookup hr
  have hfind : e.batches.find? (·.batchId = r.batchId) = some b := by
    have hkeyed : Keyed BatchRecord.batchId e.batches := h.batchIds.imp ne_of_lt
    exact hkeyed.lookup_eq_some.mpr ⟨hb, hid⟩
  unfold Settlement.verifyItemProof
  simp only [hlookup, hr, hfind]
  refine ⟨hverify, ?_⟩
  rw [verifyBatchChain, ← h.hashes b hb, hchain, decide_eq_true rfl]

end Places

/-- Every item is in one place; a processor returns for it once at most; its receipt verifies; and
the batches form one chain. -/
theorem settlement_accounts (host : Host) (options : Options) (redis : String → Option RedisEntry)
    (moves : List Move) :
    let w := run (step host options) (World.start options redis) moves
    (∀ item ∈ w.engine.items, (∃! place, At options w.engine item place) ∧
        (pendingQueues options w.engine).count item.id ≤ 1) ∧
      ((w.shardCalls.flatMap ShardCall.todo).Nodup ∧ ∀ id ∈ w.shardCalls.flatMap ShardCall.todo,
        ∃ item ∈ w.engine.items, item.id = id ∧ At options w.engine item .processing) ∧
      (trace (step host options) settlements (World.start options redis) moves).Nodup ∧
      (∀ item ∈ w.engine.items, item.receipt.isSome →
        (verifyItemProof host w.engine item.id).valid = true ∧
          (verifyItemProof host w.engine item.id).chainValid = true) ∧
      Linked zeroHash w.engine.batches w.engine.lastBatchHash := by
  intro w
  have hstart : Receipted host options [] (World.start options redis).engine
      (World.start options redis).shardCalls := receipted_start host options options.batchSize
  have h := trace_invariant (I := fun log (w : World) =>
    Receipted host options log w.engine w.shardCalls) (fun log w move h => h.step move) hstart moves
  rw [List.nil_append] at h
  refine ⟨fun item hitem => ⟨h.sound.place hitem, ?_⟩, ⟨h.sound.taken, fun id hid => ?_⟩,
    h.sound.settled, fun item hitem hsome => ?_, h.linked⟩
  · exact List.nodup_iff_count_le_one.mp h.sound.nodup_pendingQueues item.id
  · obtain ⟨call, hcall, hmem⟩ := List.mem_flatMap.mp hid
    obtain ⟨item, hitem, hstatus, -⟩ := h.sound.mem_taken call hcall id hmem
    exact ⟨item, (mem_of_item? hitem).1, (mem_of_item? hitem).2, hstatus⟩
  · obtain ⟨r, hr⟩ := Option.isSome_iff_exists.mp hsome
    exact h.verifyItemProof hitem hr

end StellarTags.Settlement
