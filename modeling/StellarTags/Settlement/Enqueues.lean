import Mathlib.Data.List.Count
import StellarTags.Settlement.Order

/-! How many items the calls with one idempotency key make, and which id they return. -/

namespace StellarTags.Settlement

open Library.Runs Library.Tables

section Condition

variable (host : Host)

def EnqueueCall.returnedId (key : String) : EnqueueCall → Option TrackingId
  | .returned idempotencyKey result => if idempotencyKey = key then some result.trackingId else none
  | _ => none

/-- The ids that the key has: in the local store, and for those whose calls have returned. -/
def World.assigned (w : World) (key : String) : List TrackingId :=
  ((w.engine.idempotencyStore key).map fun entry => .drawn entry.trackingId).toList ++
    w.enqueues.filterMap (EnqueueCall.returnedId key)

/-- The calls with a key make one item at most, and return one id. -/
structure Single (w : World) : Prop where
  items : ∀ key, (w.engine.items.map OutboxItem.idempotencyKey).count key ≤ 1
  ids : ∀ key result other, .returned key result ∈ w.enqueues → .returned key other ∈ w.enqueues →
    result.trackingId = other.trackingId

/-- While a call waited for Redis, its key got no id but the one that Redis answers with. -/
def Unraced (w : World) (move : Move) : Prop :=
  match move.action with
  | .resume i =>
    match w.enqueues[i]? with
    | some (.looked _ key none) => w.assigned key = []
    | some (.looked payload key (some entry)) =>
      entry.payloadHash = hashPayload host payload → ∀ id ∈ w.assigned key, id = entry.trackingId
    | _ => True
  | _ => True

instance (w : World) (move : Move) : Decidable (Unraced host w move) := by
  unfold Unraced
  exact match move.action with
  | .resume i => by
    dsimp only
    exact match w.enqueues[i]? with
    | some (.looked _ _ none) | some (.looked _ _ (some _)) => inferInstance
    | none | some (.looking ..) | some (.saving ..) | some (.returned ..) | some (.threw ..) => inferInstance
  | .enqueuePayment .. | .redisGet .. | .redisSet .. | .redisChanges .. | .processShard .. | .attempt .. =>
    inferInstance

end Condition

section Entries

variable {host : Host} {options : Options} {w : World} {move : Move} {e e' e'' : Engine}

/-- The items keep their keys, and the keys their entries. -/
structure SameEntries (e e' : Engine) : Prop where
  keys : e'.items.map OutboxItem.idempotencyKey = e.items.map OutboxItem.idempotencyKey
  store : e'.idempotencyStore = e.idempotencyStore

lemma SameEntries.trans (h : SameEntries e e') (h' : SameEntries e' e'') : SameEntries e e'' :=
  ⟨h'.keys.trans h.keys, h'.store.trans h.store⟩

lemma sameEntries_update (e : Engine) (id : ℕ) (change : OutboxItem → OutboxItem)
    (hchange : ∀ item, (change item).idempotencyKey = item.idempotencyKey) :
    SameEntries e (e.update id change) := by
  refine ⟨?_, rfl⟩
  rw [Engine.update, updateMany, List.map_map]
  apply List.map_congr_left
  intro item _
  rw [Function.comp_apply]
  split_ifs
  · exact hchange item
  · rfl

lemma sameEntries_start (now : ℕ) (ids : List ℕ) (e : Engine) :
    SameEntries e (Engine.start now ids e).2 := by
  induction ids generalizing e with
  | nil => exact ⟨rfl, rfl⟩
  | cons id ids ih =>
    rw [Engine.start]
    cases e.item? id with
    | none => exact ih e
    | some item =>
      dsimp only
      split_ifs
      · exact (sameEntries_update e id (startItem now) fun _ => rfl).trans (ih _)
      · exact ih e

lemma sameEntries_attachReceipts (receipt : ℕ → Receipt) (index : ℕ) (ids : List ℕ) (e : Engine) :
    SameEntries e (Engine.attachReceipts receipt index ids e) := by
  induction ids generalizing index e with
  | nil => exact ⟨rfl, rfl⟩
  | cons id ids ih =>
    exact (sameEntries_update e id (attachReceipt (receipt index)) fun _ => rfl).trans (ih _ _)

lemma sameEntries_attempt (e : Engine) (call : ShardCall) (now id : ℕ) (rest : List ℕ)
    (result : Attempt) : SameEntries e (e.attempt options call now id rest result).1 := by
  cases result with
  | returns => exact sameEntries_update e id (settle now) fun _ => rfl
  | throwsNothing => exact sameEntries_update e id countAttempt fun _ => rfl
  | throws message fatal =>
    simp only [Engine.attempt, Engine.fail]
    cases e.item? id with
    | none => exact ⟨rfl, rfl⟩
    | some item =>
      dsimp only
      split_ifs
      · exact ⟨(sameEntries_update e id (retry now message .dlq) fun _ => rfl).keys, rfl⟩
      · exact ⟨(sameEntries_update e id (retry now message .failed) fun _ => rfl).keys, rfl⟩

lemma sameEntries_finish (e : Engine) (call : ShardCall) (batchTimestamp : ℕ) (latency : Latency) :
    SameEntries e (e.finish host call batchTimestamp latency).1 := by
  unfold Engine.finish
  dsimp only
  split_ifs
  · exact ⟨rfl, rfl⟩
  · have hattached := sameEntries_attachReceipts
    exact ⟨(hattached ..).keys, (hattached ..).store⟩

lemma step_entries
    (hcalls : ∀ i payload key, move.action = .resume i → w.enqueues[i]? ≠ some (.looked payload key none)) :
    SameEntries w.engine (step host options move w).engine :=
  @step_rule host options w move [] (fun _ e _ => SameEntries w.engine e)
    (fun i payload key haction hcall _ => absurd hcall (hcalls i payload key haction))
    (fun _ _ _ _ _ _ _ _ => ⟨(sameEntries_start ..).keys, (sameEntries_start ..).store⟩)
    (fun _ _ _ _ _ _ _ _ _ _ h => h.trans (sameEntries_attempt ..))
    (fun _ _ _ _ _ _ _ h _ _ => h.trans (sameEntries_finish ..)) ⟨rfl, rfl⟩

end Entries

section Assignments

variable {host : Host} {options : Options} {w next : World} {move : Move} {key : String}
  {id : TrackingId} {entry : IdempotencyRecord} {result : EnqueueResult} {call : EnqueueCall} {i : ℕ}

lemma World.mem_assigned : id ∈ w.assigned key ↔
    (∃ entry, w.engine.idempotencyStore key = some entry ∧ .drawn entry.trackingId = id) ∨
      ∃ result, .returned key result ∈ w.enqueues ∧ result.trackingId = id := by
  rw [World.assigned, List.mem_append, Option.mem_toList, Option.map_eq_some_iff, List.mem_filterMap]
  apply or_congr_right
  constructor
  · rintro ⟨call, hcall, hreturned⟩
    cases call with
    | returned idempotencyKey result =>
      rw [EnqueueCall.returnedId] at hreturned
      split_ifs at hreturned with hkey
      exact ⟨result, hkey ▸ hcall, Option.some.inj hreturned⟩
    | _ => cases hreturned
  · rintro ⟨result, hcall, rfl⟩
    exact ⟨_, hcall, if_pos rfl⟩

/-- A key has one id, whose item it is when there is one. -/
structure Assigned (w : World) : Prop where
  one : ∀ key, ∀ id ∈ w.assigned key, ∀ other ∈ w.assigned key, id = other
  items : ∀ key, (w.engine.items.map OutboxItem.idempotencyKey).count key ≤ 1
  stored : ∀ key ∈ w.engine.items.map OutboxItem.idempotencyKey, w.engine.idempotencyStore key ≠ none
  saving : ∀ key payloadHash trackingId shardId,
    .saving key payloadHash trackingId shardId ∈ w.enqueues →
      ∃ entry, w.engine.idempotencyStore key = some entry ∧ entry.trackingId = trackingId

lemma assigned_start (options : Options) (redis : String → Option RedisEntry) :
    Assigned (World.start options redis) where
  one _ _ h := by cases h
  items _ := Nat.zero_le _
  stored _ h := by cases h
  saving _ _ _ _ h := by cases h

lemma Assigned.single (h : Assigned w) : Single w where
  items := h.items
  ids key result other hresult hother := h.one key _ (World.mem_assigned.mpr (.inr ⟨result, hresult, rfl⟩))
    _ (World.mem_assigned.mpr (.inr ⟨other, hother, rfl⟩))

lemma Assigned.goOn (h : Assigned w) (call : EnqueueCall) (hentries : SameEntries w.engine next.engine)
    (hcalls : ∀ other ∈ next.enqueues, other ∈ w.enqueues ∨ other = call)
    (hreturned : ∀ key result, call = .returned key result → ∀ id ∈ w.assigned key, id = result.trackingId)
    (hsaving : ∀ key payloadHash trackingId shardId, call ≠ .saving key payloadHash trackingId shardId) :
    Assigned next := by
  have hassigned (key : String) (id : TrackingId) (hid : id ∈ next.assigned key) :
      id ∈ w.assigned key ∨ ∃ result, call = .returned key result ∧ result.trackingId = id := by
    obtain ⟨entry, hentry, rfl⟩ | ⟨result, hresult, rfl⟩ := World.mem_assigned.mp hid
    · rw [hentries.store] at hentry
      exact .inl (World.mem_assigned.mpr (.inl ⟨entry, hentry, rfl⟩))
    · obtain hold | hnew := hcalls _ hresult
      · exact .inl (World.mem_assigned.mpr (.inr ⟨result, hold, rfl⟩))
      · exact .inr ⟨result, hnew.symm, rfl⟩
  constructor
  · intro key id hid other hother
    obtain hid | ⟨result, hresult, rfl⟩ := hassigned key id hid
    · obtain hother | ⟨later, hlater, rfl⟩ := hassigned key other hother
      · exact h.one key id hid other hother
      · exact hreturned key later hlater id hid
    · obtain hother | ⟨later, hlater, rfl⟩ := hassigned key other hother
      · exact (hreturned key result hresult other hother).symm
      · obtain ⟨-, rfl⟩ := EnqueueCall.returned.inj (hresult.symm.trans hlater)
        rfl
  · rw [hentries.keys]
    exact h.items
  · rw [hentries.keys, hentries.store]
    exact h.stored
  · intro key payloadHash trackingId shardId hmem
    rw [hentries.store]
    obtain hold | hnew := hcalls _ hmem
    · exact h.saving key payloadHash trackingId shardId hold
    · exact absurd hnew.symm (hsaving key payloadHash trackingId shardId)

lemma Assigned.congr (h : Assigned w) (hentries : SameEntries w.engine next.engine)
    (hcalls : next.enqueues = w.enqueues) : Assigned next := by
  constructor
  · intro key
    rw [World.assigned, hentries.store, hcalls]
    exact h.one key
  · rw [hentries.keys]
    exact h.items
  · rw [hentries.keys, hentries.store]
    exact h.stored
  · rw [hentries.store, hcalls]
    exact h.saving

lemma keys_insert (host : Host) (options : Options) (e : Engine) (now : ℕ) (payload : Payload) (key : String) :
    (e.insert host options now payload key).items.map OutboxItem.idempotencyKey =
        e.items.map OutboxItem.idempotencyKey ∨
      (e.insert host options now payload key).items.map OutboxItem.idempotencyKey =
        e.items.map OutboxItem.idempotencyKey ++ [key] := by
  unfold Engine.insert Library.Tables.insert
  dsimp only
  split_ifs
  · exact .inl rfl
  · exact .inr (by simp [newItem])

lemma Assigned.insert (h : Assigned w) {now shardId : ℕ} {payload : Payload} {payloadHash : String}
    (hnone : w.assigned key = []) (hengine : next.engine = w.engine.insert host options now payload key)
    (hcalls : ∀ other ∈ next.enqueues, other ∈ w.enqueues ∨
      other = .saving key payloadHash w.engine.drawn shardId) : Assigned next := by
  have hstore : next.engine.idempotencyStore = Function.update w.engine.idempotencyStore key
      (some ⟨w.engine.drawn, hashPayload host payload, now⟩) := by
    rw [hengine]
    rfl
  have hunknown : w.engine.idempotencyStore key = none := by
    rw [Option.eq_none_iff_forall_ne_some]
    intro entry hentry
    have hmem : .drawn entry.trackingId ∈ w.assigned key := World.mem_assigned.mpr (.inl ⟨entry, hentry, rfl⟩)
    rw [hnone] at hmem
    cases hmem
  have hnew : (w.engine.items.map OutboxItem.idempotencyKey).count key = 0 :=
    List.count_eq_zero.mpr fun hmem => h.stored key hmem hunknown
  have hassigned (other : String) (id : TrackingId) (hid : id ∈ next.assigned other) :
      id = .drawn w.engine.drawn ∧ other = key ∨ id ∈ w.assigned other ∧ other ≠ key := by
    obtain ⟨entry, hentry, rfl⟩ | ⟨result, hresult, rfl⟩ := World.mem_assigned.mp hid
    · rw [hstore] at hentry
      by_cases hother : other = key
      · rw [hother, Function.update_self] at hentry
        obtain rfl := Option.some.inj hentry
        exact .inl ⟨rfl, hother⟩
      · rw [Function.update_of_ne hother] at hentry
        exact .inr ⟨World.mem_assigned.mpr (.inl ⟨entry, hentry, rfl⟩), hother⟩
    · obtain hold | hsaving := hcalls _ hresult
      · have hmem : result.trackingId ∈ w.assigned other :=
          World.mem_assigned.mpr (.inr ⟨result, hold, rfl⟩)
        refine .inr ⟨hmem, ?_⟩
        rintro rfl
        rw [hnone] at hmem
        cases hmem
      · cases hsaving
  have hkeys := keys_insert host options w.engine now payload key
  rw [← hengine] at hkeys
  constructor
  · intro other id hid last hlast
    obtain ⟨rfl, hother⟩ | ⟨hid, hother⟩ := hassigned other id hid
    · obtain ⟨rfl, -⟩ | ⟨-, hne⟩ := hassigned other last hlast
      · rfl
      · exact absurd hother hne
    · obtain ⟨-, heq⟩ | ⟨hlast, -⟩ := hassigned other last hlast
      · exact absurd heq hother
      · exact h.one other id hid last hlast
  · intro other
    obtain hkeys | hkeys := hkeys
    · rw [hkeys]
      exact h.items other
    · rw [hkeys, List.count_append]
      by_cases hother : other = key
      · rw [hother, hnew, List.count_singleton_self]
      · rw [List.count_eq_zero.mpr fun hmem => hother (List.mem_singleton.mp hmem)]
        exact h.items other
  · intro other hmem
    rw [hstore]
    by_cases hother : other = key
    · rw [hother, Function.update_self]
      exact Option.some_ne_none _
    · rw [Function.update_of_ne hother]
      apply h.stored
      obtain hkeys | hkeys := hkeys
      · rwa [hkeys] at hmem
      · rw [hkeys, List.mem_append, List.mem_singleton] at hmem
        exact hmem.resolve_right hother
  · intro other hash trackingId shard hmem
    rw [hstore]
    obtain hold | hsaving := hcalls _ hmem
    · obtain ⟨entry, hentry, hid⟩ := h.saving other hash trackingId shard hold
      have hother : other ≠ key := by
        rintro rfl
        rw [hunknown] at hentry
        cases hentry
      exact ⟨entry, by rw [Function.update_of_ne hother, hentry], hid⟩
    · obtain ⟨rfl, -, rfl, -⟩ := EnqueueCall.saving.inj hsaving
      exact ⟨_, Function.update_self .., rfl⟩

/-- A call up to its first await returns the id that the store has for its key, if any. -/
lemma enqueuePayment_cases (host : Host) (e : Engine) (payload : Payload) (key : String) :
    (∃ fault, e.enqueuePayment host payload key = .threw key fault) ∨
      e.enqueuePayment host payload key = .looking payload key ∨
      ∃ entry result, e.idempotencyStore key = some entry ∧ result.trackingId = .drawn entry.trackingId ∧
        e.enqueuePayment host payload key = .returned key result := by
  unfold Engine.enqueuePayment
  split_ifs with hblank
  · exact .inl ⟨_, rfl⟩
  · cases validatePayload host payload with
    | error fault => exact .inl ⟨fault, rfl⟩
    | ok _ =>
      cases hentry : e.idempotencyStore key with
      | none => exact .inr (.inl rfl)
      | some entry =>
        dsimp only
        split_ifs
        · exact .inl ⟨_, rfl⟩
        · exact .inr (.inr ⟨entry, _, rfl, rfl, rfl⟩)

lemma Assigned.enqueuePayment (h : Assigned w) (host : Host) (payload : Payload) (key : String) :
    Assigned { w with enqueues := w.enqueues ++ [w.engine.enqueuePayment host payload key] } := by
  have hcalls (other : EnqueueCall)
      (hother : other ∈ w.enqueues ++ [w.engine.enqueuePayment host payload key]) :
      other ∈ w.enqueues ∨ other = w.engine.enqueuePayment host payload key :=
    (List.mem_append.mp hother).imp_right List.mem_singleton.mp
  have hsame : SameEntries w.engine w.engine := ⟨rfl, rfl⟩
  obtain ⟨fault, hcall⟩ | hcall | ⟨entry, result, hentry, hid, hcall⟩ :=
    enqueuePayment_cases host w.engine payload key
  · exact h.goOn _ hsame hcalls (by simp [hcall]) (by simp [hcall])
  · exact h.goOn _ hsame hcalls (by simp [hcall]) (by simp [hcall])
  · refine h.goOn _ hsame hcalls ?_ (by simp [hcall])
    intro other later heq id hmem
    obtain ⟨rfl, rfl⟩ := EnqueueCall.returned.inj (hcall.symm.trans heq)
    rw [hid]
    exact h.one key id hmem _ (World.mem_assigned.mpr (.inl ⟨entry, hentry, rfl⟩))

lemma Assigned.setEnqueue (h : Assigned w) (i : ℕ) (call : EnqueueCall)
    (hreturned : ∀ key result, call = .returned key result → ∀ id ∈ w.assigned key, id = result.trackingId)
    (hsaving : ∀ key payloadHash trackingId shardId, call ≠ .saving key payloadHash trackingId shardId) :
    Assigned (w.setEnqueue i call) :=
  h.goOn call ⟨rfl, rfl⟩ (fun _ hother => List.mem_or_eq_of_mem_set hother) hreturned hsaving

lemma Assigned.resume (h : Assigned w) (hunraced : Unraced host w move)
    (haction : move.action = .resume i) : Assigned (step host options move w) := by
  unfold step
  rw [Unraced, haction] at hunraced
  rw [haction]
  dsimp only at hunraced ⊢
  split
  · rename_i payload key answer hcall
    rw [hcall] at hunraced
    cases answer with
    | none => exact h.insert hunraced rfl fun _ hother => List.mem_or_eq_of_mem_set hother
    | some entry =>
      unfold Engine.answered
      dsimp only at hunraced ⊢
      split_ifs with hhash
      · exact h.setEnqueue i _ (by simp) (by simp)
      · refine h.setEnqueue i _ ?_ (by simp)
        intro other result heq id hid
        obtain ⟨rfl, rfl⟩ := EnqueueCall.returned.inj heq
        exact hunraced (not_not.mp hhash) id hid
  · exact h

lemma Assigned.step (h : Assigned w) (hunraced : Unraced host w move) :
    Assigned (Settlement.step host options move w) := by
  cases haction : move.action with
  | resume i => exact h.resume hunraced haction
  | enqueuePayment payload key =>
    unfold Settlement.step
    rw [haction]
    exact h.enqueuePayment host payload key
  | redisGet i answers =>
    unfold Settlement.step
    rw [haction]
    dsimp only
    split
    · exact h.setEnqueue i _ (by simp) (by simp)
    · exact h
  | redisSet i stores =>
    unfold Settlement.step
    rw [haction]
    dsimp only
    split
    · rename_i key payloadHash trackingId shardId hcall
      obtain ⟨entry, hentry, hid⟩ := h.saving _ _ _ _ (List.mem_of_getElem? hcall)
      have hreturned : Assigned (w.setEnqueue i
          (.returned key ⟨.drawn trackingId, shardId, .pending, false, none⟩)) := by
        refine h.setEnqueue i _ ?_ (by simp)
        intro other result heq id hmem
        obtain ⟨rfl, rfl⟩ := EnqueueCall.returned.inj heq
        exact h.one key id hmem _ (World.mem_assigned.mpr (.inl ⟨entry, hentry, hid ▸ rfl⟩))
      split_ifs
      · exact hreturned.congr ⟨rfl, rfl⟩ rfl
      · exact hreturned
    · exact h
  | redisChanges key entry =>
    exact h.congr (step_entries (by simp [haction])) (by simp [Settlement.step, haction])
  | processShard shardId =>
    refine h.congr (step_entries (by simp [haction])) ?_
    simp only [Settlement.step, haction, World.processShard]
    split_ifs <;> rfl
  | attempt i result batchTimestamp latency =>
    refine h.congr (step_entries (by simp [haction])) ?_
    simp only [Settlement.step, haction, World.attempt]
    split
    · rfl
    · split <;> rfl

end Assignments

end StellarTags.Settlement
