import Mathlib.Data.List.Dedup
import Mathlib.Data.List.Perm.Subperm
import Mathlib.Data.List.Sort
import StellarTags.Library.RateLimits

/-! The sliding-window limiter: its store in memory against the script that runs in Redis. -/

namespace StellarTags.Middleware

open Library.SlidingWindows

structure Hit where
  key : String
  now : ℤ
  deriving DecidableEq, Repr

structure Result where
  allowed : Bool
  count : ℕ
  resetAt : ℤ
  deriving DecidableEq, Repr

section Memory

structure Requests where
  timestamps : List ℤ
  expiresAt : ℤ
  deriving DecidableEq, Repr

/-- A map that is gone through in the order in which its keys were set. -/
structure RequestMap where
  keys : List String := []
  get : String → Option Requests := fun _ => none

namespace RequestMap

def delete (key : String) (m : RequestMap) : RequestMap where
  keys := m.keys.filter (· ≠ key)
  get := Function.update m.get key none

def set (key : String) (entry : Requests) (m : RequestMap) : RequestMap where
  keys := if (m.get key).isSome then m.keys else m.keys ++ [key]
  get := Function.update m.get key (some entry)

/-- Deletes entries from the front up to the first that has not expired. -/
def evict (now : ℤ) : List String → RequestMap → RequestMap
  | [], m => m
  | oldestKey :: rest, m =>
    match m.get oldestKey with
    | none => m
    | some entry => if now < entry.expiresAt then m else evict now rest (m.delete oldestKey)

end RequestMap

def memoryHit (maxKeys : ℕ) (windowMs : ℤ) (maximum : ℕ) (hit : Hit) (store : RequestMap) :
    Result × RequestMap :=
  let cutoff := hit.now - windowMs
  let requests := RequestMap.evict hit.now store.keys store
  let previous := requests.get hit.key
  let kept := active cutoff ((previous.map Requests.timestamps).getD [])
  let allowed := decide (kept.length < maximum)
  if allowed && previous.isNone && decide (maxKeys ≤ requests.keys.length) then
    let first := requests.keys.head?.bind requests.get
    (⟨false, maximum, (first.map Requests.expiresAt).getD hit.now⟩, requests)
  else if allowed then
    let timestamps := kept ++ [hit.now]
    (⟨true, timestamps.length, timestamps.headD hit.now + windowMs⟩,
      (requests.delete hit.key).set hit.key ⟨timestamps, hit.now + windowMs⟩)
  else
    -- a full window has an entry
    (⟨false, kept.length, kept.headD hit.now + windowMs⟩,
      requests.set hit.key ⟨kept, (previous.map Requests.expiresAt).getD hit.now⟩)

end Memory

section Redis

/-- A sorted set: scores with their members, in order. -/
structure SortedSet where
  members : List (ℤ × ℕ)
  expiresAt : ℤ
  deriving DecidableEq, Repr

def scoreOrder (a b : ℤ × ℕ) : Prop := a.1 < b.1 ∨ a.1 = b.1 ∧ a.2 ≤ b.2

instance : DecidableRel scoreOrder := fun _ _ => inferInstanceAs (Decidable (_ ∨ _))

def zadd (score : ℤ) (member : ℕ) (members : List (ℤ × ℕ)) : List (ℤ × ℕ) :=
  (members.filter (·.2 ≠ member)).orderedInsert scoreOrder (score, member)

def zremrangebyscore (low high : ℤ) (members : List (ℤ × ℕ)) : List (ℤ × ℕ) :=
  members.filter fun m => ¬ (low ≤ m.1 ∧ m.1 ≤ high)

/-- A key that has expired is gone. -/
def liveMembers (now : ℤ) (set : Option SortedSet) : List (ℤ × ℕ) :=
  (set.filter (now ≤ ·.expiresAt)).elim [] SortedSet.members

/-- The script on the set of its key: allowed, count and oldest timestamp. No set is empty. -/
def slidingWindowLua (now window : ℤ) (maximum member : ℕ) (set : Option SortedSet) :
    (Bool × ℕ × ℤ) × Option SortedSet :=
  let cutoff := now - window
  let kept := zremrangebyscore 0 cutoff (liveMembers now set)
  let allowed := decide (kept.length < maximum)
  let count := if allowed then kept.length + 1 else kept.length
  let members := if allowed then zadd now member kept else kept
  let oldest := (members.head?.map Prod.fst).getD now
  ((allowed, count, oldest), if members = [] then none else some ⟨members, now + window⟩)

/-- The keys in Redis, and how many members were drawn. -/
structure RedisStore where
  get : String → Option SortedSet := fun _ => none
  drawn : ℕ := 0

def redisHit (windowMs : ℤ) (maximum : ℕ) (hit : Hit) (store : RedisStore) : Result × RedisStore :=
  let ((allowed, count, oldestTimestamp), set) :=
    slidingWindowLua hit.now windowMs maximum store.drawn (store.get hit.key)
  (⟨allowed, count, oldestTimestamp + windowMs⟩,
    ⟨Function.update store.get hit.key set, store.drawn + 1⟩)

end Redis

section Runs

variable {σ : Type} (serve : Hit → σ → Result × σ)

def results : σ → List Hit → List Result
  | _, [] => []
  | s, hit :: hits => (serve hit s).1 :: results (serve hit s).2 hits

def admitted (key : String) : σ → List Hit → List ℤ
  | _, [] => []
  | s, hit :: hits =>
    (if hit.key = key ∧ (serve hit s).1.allowed = true then [hit.now] else []) ++
      admitted key (serve hit s).2 hits

end Runs

section Specification

abbrev Log := String → List ℤ

def Log.record (hit : Hit) (allowed : Bool) (log : Log) : Log :=
  if allowed then Function.update log hit.key (log hit.key ++ [hit.now]) else log

def logHit (windowMs : ℤ) (maximum : ℕ) (hit : Hit) (log : Log) : Result × Log :=
  let kept := active (hit.now - windowMs) (log hit.key)
  let allowed := decide (kept.length < maximum)
  (⟨allowed, if allowed then kept.length + 1 else kept.length, kept.headD hit.now + windowMs⟩,
    log.record hit allowed)

variable {σ τ : Type} {serve : Hit → σ → Result × σ} {other : Hit → τ → Result × τ} {s : σ} {t : τ}
  {log : Log} {hit : Hit} {hits : List Hit} {last windowMs : ℤ} {maximum : ℕ} {P : Hit → Prop}

lemma Log.record_of_ne {key : String} (h : key ≠ hit.key) (allowed : Bool) (log : Log) :
    log.record hit allowed key = log key := by
  unfold Log.record
  split_ifs
  · exact Function.update_of_ne h _ _
  · rfl

lemma Log.record_self (allowed : Bool) (log : Log) :
    log.record hit allowed hit.key = log hit.key ++ if allowed then [hit.now] else [] := by
  unfold Log.record
  split_ifs
  · exact Function.update_self _ _ _
  · exact (List.append_nil _).symm

/-- Stores answer alike if what relates them is kept from hit to hit. -/
lemma results_eq {R : ℤ → σ → τ → Prop}
    (hstep : ∀ last s t hit, P hit → last ≤ hit.now → R last s t →
      (serve hit s).1 = (other hit t).1 ∧ R hit.now (serve hit s).2 (other hit t).2)
    (hP : ∀ hit ∈ hits, P hit) (htimes : (last :: hits.map Hit.now).Pairwise (· ≤ ·))
    (h : R last s t) : results serve s hits = results other t hits := by
  induction hits generalizing last s t with
  | nil => rfl
  | cons hit hits ih =>
    obtain ⟨hlast, hrest⟩ := List.pairwise_cons.mp htimes
    obtain ⟨hresult, hnext⟩ := hstep last s t hit (hP hit (by simp)) (hlast _ (by simp)) h
    rw [results, results, hresult,
      ih (fun hit hmem => hP hit (List.mem_cons_of_mem _ hmem)) hrest hnext]

lemma admitted_bounded {I : ℤ → Log → σ → Prop}
    (hstep : ∀ last log s hit, P hit → last ≤ hit.now → I last log s →
      ((serve hit s).1.allowed = true →
        (active (hit.now - windowMs) (log hit.key)).length < maximum) ∧
        I hit.now (log.record hit (serve hit s).1.allowed) (serve hit s).2)
    (hP : ∀ hit ∈ hits, P hit) (htimes : (last :: hits.map Hit.now).Pairwise (· ≤ ·))
    (h : I last log s) (hlog : ∀ key, ∀ t ∈ log key, t ≤ last)
    (hbounded : ∀ key, Bounded windowMs maximum (log key)) (key : String) :
    Bounded windowMs maximum (log key ++ admitted serve key s hits) := by
  induction hits generalizing last log s with
  | nil => simpa [admitted] using hbounded key
  | cons hit hits ih =>
    obtain ⟨hlast, hrest⟩ := List.pairwise_cons.mp htimes
    have hle : last ≤ hit.now := hlast _ (by simp)
    obtain ⟨hroom, hnext⟩ := hstep last log s hit (hP hit (by simp)) hle h
    have hnew : log key ++ admitted serve key s (hit :: hits) =
        log.record hit (serve hit s).1.allowed key ++ admitted serve key (serve hit s).2 hits := by
      rw [admitted, ← List.append_assoc]
      by_cases hkey : hit.key = key
      · subst hkey
        simp [Log.record_self]
      · simp [hkey, Log.record_of_ne (Ne.symm hkey)]
    rw [hnew]
    apply ih (fun hit hmem => hP hit (List.mem_cons_of_mem _ hmem)) hrest hnext
    · intro key t ht
      by_cases hkey : key = hit.key
      · subst hkey
        rw [Log.record_self, List.mem_append] at ht
        obtain ht | ht := ht
        · exact (hlog _ t ht).trans hle
        · split_ifs at ht
          · exact (List.mem_singleton.mp ht).le
          · cases ht
      · rw [Log.record_of_ne hkey] at ht
        exact (hlog key t ht).trans hle
    · intro key
      by_cases hkey : key = hit.key
      · subst hkey
        rw [Log.record_self]
        split_ifs with hallowed
        · exact (hbounded _).snoc (fun t ht => (hlog _ t ht).trans hle) (hroom hallowed)
        · rw [List.append_nil]
          exact hbounded _
      · rw [Log.record_of_ne hkey]
        exact hbounded key

end Specification

section MemoryRefines

variable {m : RequestMap} {log log' : Log} {hit : Hit} {last now windowMs : ℤ} {maximum maxKeys : ℕ}
  {keys : List String} {key : String} {entry : Requests}

def RequestMap.timestamps (m : RequestMap) (key : String) : List ℤ :=
  ((m.get key).map Requests.timestamps).getD []

@[simp] lemma RequestMap.get_delete (key : String) (m : RequestMap) :
    (m.delete key).get = Function.update m.get key none := rfl

@[simp] lemma RequestMap.get_set (key : String) (entry : Requests) (m : RequestMap) :
    (m.set key entry).get = Function.update m.get key (some entry) := rfl

structure RequestMap.Sound (keys : List String) (windowMs : ℤ) (m : RequestMap) : Prop where
  nodup : m.keys.Nodup
  mem_keys : ∀ key, key ∈ m.keys ↔ (m.get key).isSome
  known : ∀ key ∈ m.keys, key ∈ keys
  expires : ∀ key entry, m.get key = some entry →
    ∀ t ∈ entry.timestamps, t + windowMs ≤ entry.expiresAt

/-- The entries and the log have the same times in every window that ends no earlier. -/
structure RequestMap.Agrees (keys : List String) (windowMs last : ℤ) (log : Log) (m : RequestMap) :
    Prop where
  sound : m.Sound keys windowMs
  past : ∀ key, ∀ t ∈ log key, t ≤ last
  times : ∀ key cutoff, last - windowMs ≤ cutoff →
    active cutoff (m.timestamps key) = active cutoff (log key)

namespace RequestMap

lemma Sound.delete (h : m.Sound keys windowMs) (key : String) :
    (m.delete key).Sound keys windowMs where
  nodup := h.nodup.filter _
  mem_keys other := by
    by_cases hkey : other = key
    · subst hkey
      simp [RequestMap.delete]
    · simp [RequestMap.delete, hkey, h.mem_keys]
  known other hother := h.known other (List.mem_of_mem_filter hother)
  expires other entry hentry := by
    by_cases hkey : other = key
    · subst hkey
      simp at hentry
    · rw [get_delete, Function.update_of_ne hkey] at hentry
      exact h.expires other entry hentry

lemma Sound.set (h : m.Sound keys windowMs) (hkey : key ∈ keys)
    (hentry : ∀ t ∈ entry.timestamps, t + windowMs ≤ entry.expiresAt) :
    (m.set key entry).Sound keys windowMs where
  nodup := by
    rw [RequestMap.set]
    split_ifs with hsome
    · exact h.nodup
    · have hnew : key ∉ m.keys := fun hmem => hsome ((h.mem_keys key).mp hmem)
      rw [List.nodup_append]
      refine ⟨h.nodup, List.nodup_singleton _, fun other hother new hmem heq => hnew ?_⟩
      rwa [← List.mem_singleton.mp hmem, ← heq]
  mem_keys other := by
    by_cases hother : other = key
    · subst hother
      by_cases hsome : (m.get other).isSome
      · simp [RequestMap.set, hsome, h.mem_keys]
      · simp [RequestMap.set, hsome]
    · by_cases hsome : (m.get key).isSome
      · simp [RequestMap.set, hsome, hother, h.mem_keys]
      · simp [RequestMap.set, hsome, hother, h.mem_keys]
  known other hother := by
    rw [RequestMap.set] at hother
    split_ifs at hother
    · exact h.known other hother
    · obtain hother | hother := List.mem_append.mp hother
      · exact h.known other hother
      · rwa [List.mem_singleton.mp hother]
  expires other entry' hentry' := by
    by_cases hother : other = key
    · subst hother
      rw [get_set, Function.update_self] at hentry'
      exact Option.some.inj hentry' ▸ hentry
    · rw [get_set, Function.update_of_ne hother] at hentry'
      exact h.expires other entry' hentry'

lemma Agrees.mono (h : m.Agrees keys windowMs last log) (hle : last ≤ now) :
    m.Agrees keys windowMs now log :=
  ⟨h.sound, fun key t ht => (h.past key t ht).trans hle,
    fun key cutoff hcutoff => h.times key cutoff (by omega)⟩

lemma Agrees.delete (h : m.Agrees keys windowMs now log) (hentry : m.get key = some entry)
    (hexpired : entry.expiresAt ≤ now) : (m.delete key).Agrees keys windowMs now log where
  sound := h.sound.delete key
  past := h.past
  times other cutoff hcutoff := by
    rw [← h.times other cutoff hcutoff]
    by_cases hother : other = key
    · subst hother
      have hold : active cutoff (m.timestamps other) = [] := by
        apply active_eq_nil
        intro t ht
        simp only [RequestMap.timestamps, hentry, Option.map_some, Option.getD_some] at ht
        have hexpires := h.sound.expires other entry hentry t ht
        omega
      rw [hold]
      simp [RequestMap.timestamps, RequestMap.delete, active]
    · simp [RequestMap.timestamps, RequestMap.delete, hother]

lemma Agrees.evict (h : m.Agrees keys windowMs now log) (oldest : List String) :
    (RequestMap.evict now oldest m).Agrees keys windowMs now log := by
  induction oldest generalizing m with
  | nil => exact h
  | cons key oldest ih =>
    rw [RequestMap.evict]
    cases hentry : m.get key with
    | none => exact h
    | some entry =>
      by_cases hlive : now < entry.expiresAt
      · simpa only [if_pos hlive] using h
      · simpa only [if_neg hlive] using ih (h.delete hentry (not_lt.mp hlive))

lemma Sound.length_lt (h : m.Sound keys windowMs) (hkey : key ∈ keys) (hnone : m.get key = none) :
    m.keys.length < keys.dedup.length := by
  have hnew : key ∉ m.keys := fun hmem => by
    have hsome := (h.mem_keys key).mp hmem
    rw [hnone] at hsome
    cases hsome
  have hsub : key :: m.keys ⊆ keys.dedup := by
    intro other hother
    rw [List.mem_dedup]
    obtain rfl | hother := List.mem_cons.mp hother
    · exact hkey
    · exact h.known other hother
  exact (List.subperm_of_subset (List.nodup_cons.mpr ⟨hnew, h.nodup⟩) hsub).length_le

end RequestMap

lemma RequestMap.Agrees.set {m' : RequestMap} (key : String) (entry : Requests)
    (h : m.Agrees keys windowMs now log)
    (hsound : m'.Sound keys windowMs) (hget : m'.get = Function.update m.get key (some entry))
    (hpast : ∀ t ∈ log' key, t ≤ now) (hlog : ∀ other, other ≠ key → log' other = log other)
    (htimes : ∀ cutoff, now - windowMs ≤ cutoff →
      active cutoff entry.timestamps = active cutoff (log' key)) :
    m'.Agrees keys windowMs now log' where
  sound := hsound
  past other t ht := by
    by_cases hother : other = key
    · subst hother
      exact hpast t ht
    · rw [hlog other hother] at ht
      exact h.past other t ht
  times other cutoff hcutoff := by
    rw [RequestMap.timestamps, hget]
    by_cases hother : other = key
    · subst hother
      rw [Function.update_self]
      exact htimes cutoff hcutoff
    · rw [Function.update_of_ne hother, hlog other hother]
      exact h.times other cutoff hcutoff

lemma memoryHit_agrees (hkeys : keys.dedup.length < maxKeys) (hmax : 0 < maximum)
    (hkey : hit.key ∈ keys) (hle : last ≤ hit.now) (h : m.Agrees keys windowMs last log) :
    (memoryHit maxKeys windowMs maximum hit m).1 = (logHit windowMs maximum hit log).1 ∧
      (memoryHit maxKeys windowMs maximum hit m).2.Agrees keys windowMs hit.now
        (logHit windowMs maximum hit log).2 := by
  have hrequests := (h.mono hle).evict m.keys
  rw [memoryHit, logHit]
  generalize RequestMap.evict hit.now m.keys m = requests at hrequests
  have hkept : active (hit.now - windowMs)
      (((requests.get hit.key).map Requests.timestamps).getD []) =
        active (hit.now - windowMs) (log hit.key) := hrequests.times hit.key _ le_rfl
  simp only [hkept]
  by_cases hroom : (active (hit.now - windowMs) (log hit.key)).length < maximum
  · have hfull : ((requests.get hit.key).isNone &&
        decide (maxKeys ≤ requests.keys.length)) = false := by
      cases hget : requests.get hit.key with
      | none =>
        have hlength := hrequests.sound.length_lt hkey hget
        simp only [Bool.and_eq_false_iff, decide_eq_false_iff_not, not_le]
        exact .inr (by omega)
      | some entry => rfl
    simp only [hroom, decide_true, Bool.true_and, hfull, if_true, Bool.false_eq_true, if_false]
    refine ⟨?_, RequestMap.Agrees.set hit.key
      ⟨active (hit.now - windowMs) (log hit.key) ++ [hit.now], hit.now + windowMs⟩ hrequests ?_ ?_ ?_
      (fun other hother => Log.record_of_ne hother _ _) ?_⟩
    · cases hactive : active (hit.now - windowMs) (log hit.key) <;> simp
    · apply (hrequests.sound.delete hit.key).set hkey
      intro t ht
      obtain ht | ht := List.mem_append.mp ht
      · exact add_le_add_left (hrequests.past _ t (mem_active.mp ht).1) _
      · exact (congrArg (· + windowMs) (List.mem_singleton.mp ht)).le
    · simp
    · rw [Log.record_self]
      intro t ht
      obtain ht | ht := List.mem_append.mp ht
      · exact hrequests.past _ t ht
      · exact (List.mem_singleton.mp ht).le
    · intro cutoff hcutoff
      rw [Log.record_self, active_append, active_append, active_active hcutoff]
      rfl
  · have hpos : 0 < (active (hit.now - windowMs) (log hit.key)).length := by omega
    obtain ⟨entry, hentry⟩ : ∃ entry, requests.get hit.key = some entry := by
      cases hget : requests.get hit.key with
      | none =>
        rw [← hkept, hget] at hpos
        exact absurd hpos (Nat.lt_irrefl 0)
      | some entry => exact ⟨entry, rfl⟩
    simp only [hroom, decide_false, Bool.false_and, Bool.false_eq_true, if_false]
    refine ⟨trivial, RequestMap.Agrees.set hit.key
      ⟨active (hit.now - windowMs) (log hit.key), _⟩ hrequests ?_ rfl ?_
      (fun other hother => Log.record_of_ne hother _ _) ?_⟩
    · apply hrequests.sound.set hkey
      intro t ht
      rw [← hkept, hentry] at ht
      rw [hentry]
      exact hrequests.sound.expires _ entry hentry t (mem_active.mp ht).1
    · rw [Log.record_self]
      simpa using hrequests.past hit.key
    · intro cutoff hcutoff
      rw [Log.record_self, active_append, active_active hcutoff]
      simp [active]

end MemoryRefines

section RedisRefines

variable {store : RedisStore} {log : Log} {hit : Hit} {last now windowMs : ℤ} {maximum member : ℕ}
  {scored : List (ℤ × ℕ)}

def RedisStore.members (store : RedisStore) (key : String) : List (ℤ × ℕ) :=
  (store.get key).elim [] SortedSet.members

def RedisStore.scores (store : RedisStore) (key : String) : List ℤ :=
  (store.members key).map Prod.fst

/-- The sets and the log have the same times in every window that ends no earlier. -/
structure RedisStore.Agrees (windowMs last : ℤ) (log : Log) (store : RedisStore) : Prop where
  sorted : ∀ key, (store.scores key).Pairwise (· ≤ ·)
  fresh : ∀ key, ∀ m ∈ store.members key, m.2 < store.drawn
  expires : ∀ key set, store.get key = some set → ∀ m ∈ set.members, m.1 + windowMs ≤ set.expiresAt
  past : ∀ key, ∀ t ∈ store.scores key, t ≤ last
  times : ∀ key cutoff, last - windowMs ≤ cutoff →
    active cutoff (store.scores key) = active cutoff (log key)

lemma map_zadd (hsorted : (scored.map Prod.fst).Pairwise (· ≤ ·))
    (hlast : ∀ m ∈ scored, m.1 ≤ now) (hfresh : ∀ m ∈ scored, m.2 < member) :
    (zadd now member scored).map Prod.fst = scored.map Prod.fst ++ [now] := by
  have hkeep : scored.filter (·.2 ≠ member) = scored := by
    simpa using fun score m hm => (hfresh (score, m) hm).ne
  rw [zadd, hkeep]
  clear hkeep
  induction scored with
  | nil => rfl
  | cons m scored ih =>
    have hm : ¬ scoreOrder (now, member) m := by
      have hscore := hlast m (by simp)
      have hmember := hfresh m (by simp)
      unfold scoreOrder
      simp only
      omega
    rw [List.orderedInsert, if_neg hm, List.map_cons, ih (List.Pairwise.of_cons hsorted)
      (fun m hm => hlast m (by simp [hm])) (fun m hm => hfresh m (by simp [hm])), List.map_cons,
      List.cons_append]

lemma map_zremrangebyscore (low high : ℤ) (scored : List (ℤ × ℕ)) :
    (zremrangebyscore low high scored).map Prod.fst =
      (scored.map Prod.fst).filter fun t => ¬ (low ≤ t ∧ t ≤ high) := by
  rw [zremrangebyscore, List.filter_map]
  rfl

/-- What the script removes, or what has expired, is in no window that is still to come. -/
lemma active_kept {set : Option SortedSet} {cutoff : ℤ}
    (hexpires : ∀ s, set = some s → ∀ m ∈ s.members, m.1 + windowMs ≤ s.expiresAt)
    (hcutoff : now - windowMs ≤ cutoff) :
    active cutoff ((zremrangebyscore 0 (now - windowMs) (liveMembers now set)).map Prod.fst) =
      active cutoff ((set.elim [] SortedSet.members).map Prod.fst) := by
  have hremove (scores : List ℤ) :
      active cutoff (scores.filter fun t => ¬ (0 ≤ t ∧ t ≤ now - windowMs)) =
        active cutoff scores := by
    rw [active, List.filter_filter]
    apply List.filter_congr
    intro t _
    rw [Bool.eq_iff_iff]
    simp only [Bool.and_eq_true, decide_eq_true_eq]
    omega
  rw [map_zremrangebyscore, hremove]
  cases set with
  | none => rfl
  | some s =>
    by_cases hlive : now ≤ s.expiresAt
    · simp [liveMembers, Option.filter, hlive]
    · have hold : active cutoff (s.members.map Prod.fst) = [] := by
        apply active_eq_nil
        intro t ht
        obtain ⟨m, hm, rfl⟩ := List.mem_map.mp ht
        have hm := hexpires s rfl m hm
        omega
      rw [Option.elim_some, hold]
      simp [liveMembers, Option.filter, hlive, active]

lemma liveMembers_sublist (now : ℤ) (set : Option SortedSet) :
    (liveMembers now set).Sublist (set.elim [] SortedSet.members) := by
  cases set with
  | none => exact List.Sublist.refl _
  | some s =>
    by_cases hlive : now ≤ s.expiresAt
    · simp [liveMembers, Option.filter, hlive]
    · simp [liveMembers, Option.filter, hlive]

def RedisStore.kept (windowMs now : ℤ) (key : String) (store : RedisStore) : List (ℤ × ℕ) :=
  zremrangebyscore 0 (now - windowMs) (liveMembers now (store.get key))

lemma RedisStore.kept_sublist (windowMs now : ℤ) (key : String) (store : RedisStore) :
    (store.kept windowMs now key).Sublist (store.members key) :=
  (List.filter_sublist).trans (liveMembers_sublist _ _)

def RedisStore.next (windowMs : ℤ) (maximum : ℕ) (hit : Hit) (store : RedisStore) : List (ℤ × ℕ) :=
  if (store.kept windowMs hit.now hit.key).length < maximum then
    zadd hit.now store.drawn (store.kept windowMs hit.now hit.key)
  else store.kept windowMs hit.now hit.key

lemma redisHit_allowed :
    (redisHit windowMs maximum hit store).1.allowed =
      decide ((store.kept windowMs hit.now hit.key).length < maximum) := rfl

lemma redisHit_get :
    (redisHit windowMs maximum hit store).2.get = Function.update store.get hit.key
      (if store.next windowMs maximum hit = [] then none
        else some ⟨store.next windowMs maximum hit, hit.now + windowMs⟩) := by
  simp only [redisHit, slidingWindowLua, RedisStore.next, RedisStore.kept, decide_eq_true_eq]
  rfl

lemma redisHit_members (key : String) :
    (redisHit windowMs maximum hit store).2.members key =
      if key = hit.key then store.next windowMs maximum hit else store.members key := by
  rw [RedisStore.members, redisHit_get]
  split_ifs with hnil hkey hkey
  · rw [hkey, Function.update_self, Option.elim_none, hnil]
  · rw [Function.update_of_ne hkey, RedisStore.members]
  · rw [hkey, Function.update_self, Option.elim_some]
  · rw [Function.update_of_ne hkey, RedisStore.members]

namespace RedisStore.Agrees

variable (h : store.Agrees windowMs last log) (hle : last ≤ hit.now)
include h hle

lemma kept_past : ∀ m ∈ store.kept windowMs hit.now hit.key, m.1 ≤ hit.now := fun m hm =>
  (h.past hit.key m.1
    (List.mem_map_of_mem ((store.kept_sublist windowMs hit.now hit.key).subset hm))).trans hle

lemma scores_next :
    (store.next windowMs maximum hit).map Prod.fst =
      (store.kept windowMs hit.now hit.key).map Prod.fst ++
        if (store.kept windowMs hit.now hit.key).length < maximum then [hit.now] else [] := by
  have hsub := store.kept_sublist windowMs hit.now hit.key
  rw [RedisStore.next]
  split_ifs
  · exact map_zadd ((h.sorted hit.key).sublist (hsub.map _)) (h.kept_past hle)
      (fun m hm => h.fresh hit.key m (hsub.subset hm))
  · rw [List.append_nil]

lemma active_next {cutoff : ℤ} (hcutoff : hit.now - windowMs ≤ cutoff) :
    active cutoff ((store.kept windowMs hit.now hit.key).map Prod.fst) =
      active cutoff (log hit.key) :=
  (active_kept (h.expires hit.key) hcutoff).trans (h.times hit.key cutoff (by omega))

end RedisStore.Agrees

lemma mem_zadd {score : ℤ} {m : ℤ × ℕ} (hm : m ∈ zadd score member scored) :
    m = (score, member) ∨ m ∈ scored := by
  rw [zadd, List.mem_orderedInsert] at hm
  exact hm.imp_right List.mem_of_mem_filter

lemma redisHit_agrees (hle : last ≤ hit.now) (h : store.Agrees windowMs last log) :
    ((redisHit windowMs maximum hit store).1.allowed = true →
      (active (hit.now - windowMs) (log hit.key)).length < maximum) ∧
      (redisHit windowMs maximum hit store).2.Agrees windowMs hit.now
        (log.record hit (redisHit windowMs maximum hit store).1.allowed) := by
  have hsub := store.kept_sublist windowMs hit.now hit.key
  constructor
  · rw [redisHit_allowed, decide_eq_true_eq, ← h.active_next hle le_rfl]
    apply lt_of_le_of_lt
    rw [← List.length_map (f := Prod.fst)]
    exact (List.filter_sublist).length_le
  · have hpast := h.kept_past hle
    have hnext : ∀ m ∈ store.next windowMs maximum hit, m.1 ≤ hit.now ∧ m.2 < store.drawn + 1 := by
      intro m hm
      have hkept : ∀ m ∈ store.kept windowMs hit.now hit.key,
          m.1 ≤ hit.now ∧ m.2 < store.drawn + 1 := fun m hm =>
        ⟨hpast m hm, (h.fresh hit.key m (hsub.subset hm)).trans (Nat.lt_succ_self _)⟩
      rw [RedisStore.next] at hm
      split_ifs at hm
      · obtain rfl | hm := mem_zadd hm
        · exact ⟨le_rfl, Nat.lt_succ_self _⟩
        · exact hkept m hm
      · exact hkept m hm
    refine ⟨fun key => ?_, fun key m hm => ?_, fun key set hset => ?_, fun key t ht => ?_,
      fun key cutoff hcutoff => ?_⟩
    · rw [RedisStore.scores, redisHit_members]
      split_ifs
      · rw [h.scores_next hle, List.pairwise_append]
        refine ⟨(h.sorted hit.key).sublist (hsub.map _), ?_, fun t ht now hnow => ?_⟩
        · split_ifs <;> simp
        · split_ifs at hnow
          · obtain ⟨m, hm, rfl⟩ := List.mem_map.mp ht
            rw [List.mem_singleton.mp hnow]
            exact hpast m hm
          · cases hnow
      · exact h.sorted key
    · rw [redisHit_members] at hm
      split_ifs at hm
      · exact (hnext m hm).2
      · exact (h.fresh key m hm).trans (Nat.lt_succ_self _)
    · rw [redisHit_get] at hset
      by_cases hkey : key = hit.key
      · rw [hkey, Function.update_self] at hset
        split_ifs at hset
        rw [← Option.some.inj hset]
        exact fun m hm => add_le_add_left (hnext m hm).1 _
      · rw [Function.update_of_ne hkey] at hset
        exact h.expires key set hset
    · rw [RedisStore.scores, redisHit_members] at ht
      obtain ⟨m, hm, rfl⟩ := List.mem_map.mp ht
      split_ifs at hm
      · exact (hnext m hm).1
      · exact (h.past key m.1 (List.mem_map_of_mem hm)).trans hle
    · rw [RedisStore.scores, redisHit_members]
      split_ifs with hkey
      · rw [hkey, Log.record_self, h.scores_next hle, active_append, active_append,
          h.active_next hle hcutoff, redisHit_allowed]
        simp only [decide_eq_true_eq]
      · rw [Log.record_of_ne hkey]
        exact h.times key cutoff (by omega)

/-- Where no score is negative, what is kept lies in the window. -/
lemma kept_active (hnonneg : ∀ t ∈ store.scores hit.key, 0 ≤ t) :
    active (hit.now - windowMs) ((store.kept windowMs hit.now hit.key).map Prod.fst) =
      (store.kept windowMs hit.now hit.key).map Prod.fst := by
  apply active_eq_self
  intro t ht
  rw [RedisStore.kept, map_zremrangebyscore, List.mem_filter, decide_eq_true_eq] at ht
  have hmem := ((liveMembers_sublist hit.now (store.get hit.key)).map Prod.fst).subset ht.1
  have hpos := hnonneg t hmem
  omega

lemma scores_nonneg (hnow : 0 ≤ hit.now) (hnonneg : ∀ key, ∀ t ∈ store.scores key, 0 ≤ t) :
    ∀ key, ∀ t ∈ (redisHit windowMs maximum hit store).2.scores key, 0 ≤ t := by
  intro key t ht
  rw [RedisStore.scores, redisHit_members] at ht
  obtain ⟨m, hm, rfl⟩ := List.mem_map.mp ht
  have hkept : ∀ m ∈ store.kept windowMs hit.now hit.key, 0 ≤ m.1 := fun m hm =>
    hnonneg hit.key m.1 (List.mem_map_of_mem ((store.kept_sublist _ _ _).subset hm))
  split_ifs at hm
  · rw [RedisStore.next] at hm
    split_ifs at hm
    · obtain rfl | hm := mem_zadd hm
      · exact hnow
      · exact hkept m hm
    · exact hkept m hm
  · exact hnonneg key m.1 (List.mem_map_of_mem hm)

lemma redisHit_fst :
    (redisHit windowMs maximum hit store).1 =
      ⟨decide ((store.kept windowMs hit.now hit.key).length < maximum),
        if (store.kept windowMs hit.now hit.key).length < maximum then
          (store.kept windowMs hit.now hit.key).length + 1
        else (store.kept windowMs hit.now hit.key).length,
        ((store.next windowMs maximum hit).map Prod.fst).headD hit.now + windowMs⟩ := by
  have hhead (scored : List (ℤ × ℕ)) :
      (scored.head?.map Prod.fst).getD hit.now = (scored.map Prod.fst).headD hit.now := by
    cases scored <;> rfl
  simp only [← hhead, redisHit, slidingWindowLua, RedisStore.next, RedisStore.kept,
    decide_eq_true_eq]
  rfl

lemma redisHit_result (hle : last ≤ hit.now) (h : store.Agrees windowMs last log)
    (hnonneg : ∀ t ∈ store.scores hit.key, 0 ≤ t) :
    (redisHit windowMs maximum hit store).1 = (logHit windowMs maximum hit log).1 := by
  have hkept : (store.kept windowMs hit.now hit.key).map Prod.fst =
      active (hit.now - windowMs) (log hit.key) := by
    rw [← h.active_next hle le_rfl, kept_active hnonneg]
  have hlength : (store.kept windowMs hit.now hit.key).length =
      (active (hit.now - windowMs) (log hit.key)).length := by
    rw [← hkept, List.length_map]
  have hhead (times : List ℤ) (c : Prop) [Decidable c] :
      (times ++ if c then [hit.now] else []).headD hit.now = times.headD hit.now := by
    cases times with
    | nil => split_ifs <;> rfl
    | cons t times => rfl
  rw [redisHit_fst, h.scores_next hle, hhead, hkept, hlength, logHit]
  simp only [decide_eq_true_eq]

end RedisRefines

section Limiters

variable {hits : List Hit} {windowMs : ℤ} {maximum maxKeys : ℕ}

lemma RequestMap.agrees_start (keys : List String) (windowMs last : ℤ) :
    RequestMap.Agrees keys windowMs last (fun _ => []) {} where
  sound := ⟨List.nodup_nil, fun _ => by simp, by simp, by simp⟩
  past := by simp
  times := by simp [RequestMap.timestamps]

lemma RedisStore.agrees_start (windowMs last : ℤ) :
    RedisStore.Agrees windowMs last (fun _ => []) {} where
  sorted _ := List.Pairwise.nil
  fresh := by simp [RedisStore.members]
  expires := by simp
  past := by simp [RedisStore.scores, RedisStore.members]
  times := by simp [RedisStore.scores, RedisStore.members]

lemma exists_start {times : List ℤ} (h : times.Pairwise (· ≤ ·)) :
    ∃ last, (last :: times).Pairwise (· ≤ ·) := by
  cases times with
  | nil => exact ⟨0, List.pairwise_singleton _ _⟩
  | cons t times =>
    refine ⟨t, List.pairwise_cons.mpr ⟨fun later hlater => ?_, h⟩⟩
    obtain rfl | hlater := List.mem_cons.mp hlater
    · exact le_rfl
    · exact (List.pairwise_cons.mp h).1 later hlater

lemma memoryHit_admits {keys : List String} {m : RequestMap} {log : Log} {hit : Hit} {last : ℤ}
    (hkeys : keys.dedup.length < maxKeys) (hmax : 0 < maximum) (hkey : hit.key ∈ keys)
    (hle : last ≤ hit.now) (h : m.Agrees keys windowMs last log) :
    ((memoryHit maxKeys windowMs maximum hit m).1.allowed = true →
      (active (hit.now - windowMs) (log hit.key)).length < maximum) ∧
      (memoryHit maxKeys windowMs maximum hit m).2.Agrees keys windowMs hit.now
        (log.record hit (memoryHit maxKeys windowMs maximum hit m).1.allowed) := by
  obtain ⟨hresult, hnext⟩ := memoryHit_agrees hkeys hmax hkey hle h
  rw [hresult]
  exact ⟨of_decide_eq_true, hnext⟩

/-- Every window admits the maximum at most, and the stores answer alike from the epoch on. -/
theorem hits_bounded_and_agree (hits : List Hit) (windowMs : ℤ) (maximum maxKeys : ℕ)
    (hmax : 0 < maximum) (htimes : (hits.map Hit.now).Pairwise (· ≤ ·))
    (hkeys : (hits.map Hit.key).dedup.length < maxKeys) :
    (∀ key, Bounded windowMs maximum (admitted (memoryHit maxKeys windowMs maximum) key {} hits)) ∧
      (∀ key, Bounded windowMs maximum (admitted (redisHit windowMs maximum) key {} hits)) ∧
      ((∀ hit ∈ hits, 0 ≤ hit.now) →
        results (memoryHit maxKeys windowMs maximum) {} hits =
          results (redisHit windowMs maximum) {} hits) := by
  obtain ⟨last, htimes⟩ := exists_start htimes
  have hmem : ∀ hit ∈ hits, hit.key ∈ hits.map Hit.key := fun hit => List.mem_map_of_mem
  refine ⟨fun key => ?_, fun key => ?_, fun hnonneg => ?_⟩
  · exact admitted_bounded (fun last log s hit hkey hle h =>
        memoryHit_admits hkeys hmax hkey hle h) hmem htimes
      (RequestMap.agrees_start _ windowMs last) (by simp) (fun _ => bounded_nil) key
  · exact admitted_bounded (P := fun _ => True) (fun last log s hit _ hle h =>
        redisHit_agrees hle h) (fun _ _ => trivial) htimes
      (RedisStore.agrees_start windowMs last) (by simp) (fun _ => bounded_nil) key
  · refine results_eq (P := fun hit => hit.key ∈ hits.map Hit.key ∧ 0 ≤ hit.now)
      (R := fun last m store => ∃ log, m.Agrees (hits.map Hit.key) windowMs last log ∧
        store.Agrees windowMs last log ∧ ∀ key, ∀ t ∈ store.scores key, 0 ≤ t)
      ?_ (fun hit hhit => ⟨hmem hit hhit, hnonneg hit hhit⟩) htimes
      ⟨fun _ => [], RequestMap.agrees_start _ windowMs last, RedisStore.agrees_start windowMs last,
        by simp [RedisStore.scores, RedisStore.members]⟩
    rintro last m store hit ⟨hkey, hnow⟩ hle ⟨log, hmemory, hredis, hscores⟩
    have hresult := (memoryHit_agrees hkeys hmax hkey hle hmemory).1.trans
      (redisHit_result hle hredis (hscores hit.key)).symm
    refine ⟨hresult, _, (memoryHit_admits hkeys hmax hkey hle hmemory).2, ?_,
      scores_nonneg hnow hscores⟩
    rw [hresult]
    exact (redisHit_agrees hle hredis).2

def aroundEpoch : List Hit := [⟨"payer", -5⟩, ⟨"payer", 0⟩, ⟨"payer", 6⟩]

/-- The script does not remove a score below zero, so that its window stays full. -/
theorem stores_disagree_before_epoch :
    (aroundEpoch.map Hit.now).Pairwise (· ≤ ·) ∧ (aroundEpoch.map Hit.key).dedup.length < 10 ∧
      results (memoryHit 10 10 1) {} aroundEpoch ≠ results (redisHit 10 1) {} aroundEpoch := by
  decide

theorem hits_bounded_and_agree_pair :
    (∀ key, Bounded 10 1 (admitted (memoryHit 10 10 1) key {} [⟨"payer", 5⟩, ⟨"payer", 15⟩])) ∧
      results (memoryHit 10 10 1) {} [⟨"payer", 5⟩, ⟨"payer", 15⟩] =
        results (redisHit 10 1) {} [⟨"payer", 5⟩, ⟨"payer", 15⟩] := by
  have h := hits_bounded_and_agree [⟨"payer", 5⟩, ⟨"payer", 15⟩] 10 1 10 (by decide) (by decide)
    (by decide)
  exact ⟨h.1, h.2.2 (by decide)⟩

end Limiters

end StellarTags.Middleware
