import StellarTags.Library.RateLimits
import StellarTags.Middleware.TokenBucket

/-! How many requests of a key the token buckets grant. -/

namespace StellarTags.Middleware.TokenBucket

open Library Library.Runs Library.TokenBuckets

variable {config : Config} {maxKeys : ℕ} {buckets : Buckets} {stored : Stored} {bucket : Bucket}
  {old : Option Bucket} {request : Request} {requests : List Request} {last now : ℚ}
  {key : String} {log : List ℚ}

section Levels

def level (config : Config) (now : ℚ) (bucket : Option Bucket) : ℚ :=
  bucket.elim config.capacity fun bucket =>
    min config.capacity (bucket.tokens + config.refillRate * (now - bucket.lastRefill))

lemma level_le_capacity (config : Config) (now : ℚ) (bucket : Option Bucket) :
    level config now bucket ≤ config.capacity := by
  cases bucket with
  | none => exact le_rfl
  | some bucket => exact min_le_left _ _

lemma level_le (config : Config) (hnow : last ≤ now) (bucket : Option Bucket) :
    level config now bucket ≤ level config last bucket + config.refillRate * (now - last) := by
  have hwait := mul_nonneg config.refillRate_pos.le (sub_nonneg.mpr hnow)
  cases bucket with
  | none => exact le_add_of_nonneg_right hwait
  | some bucket =>
    simp only [level, Option.elim_some]
    rw [← min_add_add_right]
    apply le_min
    · exact (min_le_left _ _).trans (le_add_of_nonneg_right hwait)
    · refine (min_le_right _ _).trans (le_of_eq ?_)
      ring

lemma paid_bucket (h : Paid config.capacity config.refillRate last (level config last old) log)
    (granted : Bool) (next : ℚ) (hnow : last ≤ now) (hnonneg : 0 ≤ next)
    (hnext : next + (if granted then 1 else 0) ≤ level config now old) :
    Paid config.capacity config.refillRate now next (log ++ if granted then [now] else []) :=
  h.serve granted next config.refillRate_pos.le hnow hnonneg
    (hnext.trans (level_le_capacity config now old)) (hnext.trans (level_le config hnow old))

/-- The bucket of a key, between two requests. -/
structure Valid (config : Config) (last : ℚ) (bucket : Bucket) : Prop where
  nonneg : 0 ≤ bucket.tokens
  le_capacity : bucket.tokens ≤ config.capacity
  past : bucket.lastRefill ≤ last

lemma level_nonneg (h : ∀ bucket, old = some bucket → Valid config now bucket) :
    0 ≤ level config now old := by
  cases old with
  | none => exact config.capacity_pos.le
  | some bucket =>
    have hvalid := h bucket rfl
    have hwait := mul_nonneg config.refillRate_pos.le (sub_nonneg.mpr hvalid.past)
    exact le_min config.capacity_pos.le (add_nonneg hvalid.nonneg hwait)

lemma Valid.mono (h : Valid config last bucket) (hnow : last ≤ now) : Valid config now bucket :=
  { h with past := h.past.trans hnow }

lemma Valid.take (h : Valid config now bucket) : Valid config now (take 1 bucket).2 := by
  unfold TokenBucket.take
  split_ifs with htake
  · exact ⟨sub_nonneg.mpr htake, (sub_le_self _ one_pos.le).trans h.le_capacity, h.past⟩
  · exact h

lemma level_take (hroom : 1 ≤ bucket.tokens →
      bucket.tokens + config.refillRate * (now - bucket.lastRefill) ≤ config.capacity) :
    level config now (some (take 1 bucket).2) + (if (take 1 bucket).1 then 1 else 0) ≤
      level config now (some bucket) := by
  unfold take
  by_cases htake : 1 ≤ bucket.tokens
  · have hfull := hroom htake
    simp only [if_pos htake, if_true, level, Option.elim_some, min_eq_right hfull]
    have hless := min_le_right config.capacity
      (bucket.tokens - 1 + config.refillRate * (now - bucket.lastRefill))
    linarith
  · simp [if_neg htake]

lemma paid_wait (h : Paid config.capacity config.refillRate last (level config last old) log)
    (hvalid : ∀ bucket, old = some bucket → Valid config last bucket) (hnow : last ≤ now) :
    Paid config.capacity config.refillRate now (level config now old) log := by
  have hserved := paid_bucket h false (level config now old) hnow
    (level_nonneg fun bucket hold => (hvalid bucket hold).mono hnow) (by simp)
  simpa using hserved

end Levels

section Memory

structure Remembered (config : Config) (key : String) (last : ℚ) (log : List ℚ) (buckets : Buckets) :
    Prop where
  paid : Paid config.capacity config.refillRate last (level config last (buckets.get key)) log
  valid : ∀ bucket, buckets.get key = some bucket → Valid config last bucket

/-- The bucket of a key is not evicted before it is full again. -/
def Spares (config : Config) (maxKeys : ℕ) (key : String) (buckets : Buckets) (request : Request) :
    Prop :=
  maxKeys ≤ buckets.size → buckets.get request.key = none → buckets.keys.head? = some key →
    ∀ bucket ∈ buckets.get key,
      config.capacity ≤ bucket.tokens + config.refillRate * (request.now - bucket.lastRefill)

lemma refill_valid (hvalid : ∀ bucket, old = some bucket → Valid config now bucket) :
    Valid config now (refill config now old) ∧
      (refill config now old).tokens +
        config.refillRate * (now - (refill config now old).lastRefill) ≤ level config now old := by
  cases old with
  | none =>
    refine ⟨⟨config.capacity_pos.le, le_rfl, le_rfl⟩, le_of_eq ?_⟩
    simp [refill, level]
  | some bucket =>
    obtain ⟨hnonneg, hcapacity, hpast⟩ := hvalid bucket rfl
    have hpassed : max 0 (now - bucket.lastRefill) = now - bucket.lastRefill :=
      max_eq_right (sub_nonneg.mpr hpast)
    have hamount := mul_nonneg (sub_nonneg.mpr hpast) config.refillRate_pos.le
    simp only [refill, hpassed, level, Option.elim_some]
    split_ifs with hrefill
    · refine ⟨⟨le_min config.capacity_pos.le (by linarith), min_le_left _ _, le_rfl⟩, le_of_eq ?_⟩
      rw [sub_self, mul_zero, add_zero, mul_comm config.refillRate]
    · have hnone : config.refillRate * (now - bucket.lastRefill) = 0 := by
        rw [mul_comm]
        linarith
      rw [hnone, add_zero]
      exact ⟨⟨hnonneg, hcapacity, hpast⟩, le_min hcapacity le_rfl⟩

lemma Remembered.serve (h : Remembered config key last log buckets) (hnow : last ≤ request.now)
    (hspares : Spares config maxKeys key buckets request) :
    Remembered config key request.now
      (log ++ grants (memoryRequest config maxKeys) key buckets request)
      (serves (memoryRequest config maxKeys) request buckets) := by
  have hvalid (bucket : Bucket) (hget : buckets.get key = some bucket) :
      Valid config request.now bucket := (h.valid bucket hget).mono hnow
  have hget := get_serves_memory config maxKeys request buckets
  by_cases hkey : request.key = key
  · subst hkey
    obtain ⟨hrefilled, hlevel⟩ := refill_valid hvalid
    have htaken := level_take fun _ => hlevel.trans (level_le_capacity config request.now _)
    have hbucket : level config request.now (some (refill config request.now
        (buckets.get request.key))) ≤ level config request.now (buckets.get request.key) :=
      (min_le_right _ _).trans hlevel
    have hself : (serves (memoryRequest config maxKeys) request buckets).get request.key =
        some (take 1 (refill config request.now (buckets.get request.key))).2 := by
      rw [hget, Function.update_self]
    constructor
    · rw [hself]
      rw [grants_self]
      exact paid_bucket h.paid _ _ hnow
        (level_nonneg fun bucket hsome => Option.some.inj hsome ▸ hrefilled.take)
        (htaken.trans hbucket)
    · intro bucket hsome
      rw [hself] at hsome
      exact Option.some.inj hsome ▸ hrefilled.take
  · rw [grants_of_ne _ hkey, List.append_nil]
    have hwaited := paid_wait h.paid h.valid hnow
    obtain hkept | ⟨hgone, hfull⟩ : (serves (memoryRequest config maxKeys) request buckets).get key =
        buckets.get key ∨ (serves (memoryRequest config maxKeys) request buckets).get key = none ∧
          level config request.now (buckets.get key) = config.capacity := by
      rw [hget, Function.update_of_ne (Ne.symm hkey)]
      split_ifs with hevicts
      · obtain ⟨hsize, hnew⟩ := hevicts
        unfold InsertionMap.deleteOldest
        cases holdest : buckets.keys.head? with
        | none => exact .inl rfl
        | some oldest =>
          rw [Option.elim_some, InsertionMap.get_delete]
          by_cases hsame : oldest = key
          · subst hsame
            refine .inr ⟨Function.update_self .., ?_⟩
            cases hbucket : buckets.get oldest with
            | none => rfl
            | some bucket =>
              have hrefills := hspares hsize (by simpa using hnew) holdest bucket hbucket
              exact min_eq_left hrefills
          · exact .inl (Function.update_of_ne (Ne.symm hsame) _ _)
      · exact .inl rfl
    · constructor
      · rwa [hkept]
      · rwa [hkept]
    · constructor
      · rw [hfull] at hwaited
        rwa [hgone]
      · intro bucket hsome
        rw [hgone] at hsome
        cases hsome

end Memory

section Redis

/-- What the script leaves in a bucket: it takes and refills whole tokens, and one that could have
been taken was. -/
structure Whole (config : Config) (bucket : Bucket) : Prop where
  whole : ∃ k : ℕ, bucket.tokens = config.capacity - k
  spent : 1 ≤ config.capacity → bucket.tokens ≤ config.capacity - 1

structure Kept (config : Config) (last : ℚ) (entry : StoredBucket) : Prop where
  valid : Valid config last entry.toBucket
  whole : Whole config entry.toBucket
  lives : entry.lastRefill + ttl config ≤ entry.expiresAt

structure Stocked (config : Config) (key : String) (last : ℚ) (log : List ℚ) (stored : Stored) :
    Prop where
  paid : Paid config.capacity config.refillRate last
    (level config last ((stored key).map StoredBucket.toBucket)) log
  kept : ∀ entry, stored key = some entry → Kept config last entry

lemma capacity_le_ttl (config : Config) : config.capacity ≤ config.refillRate * ttl config := by
  have hceil : config.capacity / config.refillRate ≤ ttl config := by
    have hle := Int.le_ceil (config.capacity / config.refillRate)
    unfold ttl
    linarith
  rwa [div_le_iff₀ config.refillRate_pos, mul_comm] at hceil

lemma fetch_eq {entry : Option StoredBucket} (h : ∀ e, entry = some e → Kept config now e) :
    fetch now entry = entry.map StoredBucket.toBucket ∨ fetch now entry = none ∧
      level config now (entry.map StoredBucket.toBucket) = config.capacity := by
  cases entry with
  | none => exact .inl rfl
  | some e =>
    by_cases hlive : now < e.expiresAt
    · exact .inl (by simp [fetch, hlive])
    · refine .inr ⟨by simpa [fetch] using hlive, min_eq_left ?_⟩
      obtain ⟨hvalid, -, hlives⟩ := h e rfl
      have hlong : ttl config ≤ now - e.lastRefill := by linarith
      have hrefill := mul_le_mul_of_nonneg_left hlong config.refillRate_pos.le
      have hfull := capacity_le_ttl config
      have hnonneg := hvalid.nonneg
      linarith

lemma level_fetch {entry : Option StoredBucket} (h : ∀ e, entry = some e → Kept config now e) :
    level config now (fetch now entry) = level config now (entry.map StoredBucket.toBucket) := by
  obtain hsame | ⟨hnone, hfull⟩ := fetch_eq h
  · rw [hsame]
  · rw [hnone, hfull]
    rfl

lemma refillWhole_valid (hvalid : ∀ bucket, old = some bucket → Valid config now bucket)
    (hwhole : ∀ bucket, old = some bucket → Whole config bucket) :
    Valid config now (refillWhole config now old) ∧
      (∃ k : ℕ, (refillWhole config now old).tokens = config.capacity - k) ∧
      (1 ≤ (refillWhole config now old).tokens → (refillWhole config now old).tokens +
        config.refillRate * (now - (refillWhole config now old).lastRefill) ≤ config.capacity) ∧
      level config now (some (refillWhole config now old)) ≤ level config now old := by
  cases old with
  | none =>
    refine ⟨⟨config.capacity_pos.le, le_rfl, le_rfl⟩, ⟨0, by simp [refillWhole]⟩, fun _ => ?_, ?_⟩
    · simp [refillWhole]
    · exact level_le_capacity _ _ _
  | some bucket =>
    obtain ⟨hnonneg, hcapacity, hpast⟩ := hvalid bucket rfl
    obtain ⟨⟨k, hk⟩, hspent⟩ := hwhole bucket rfl
    have hpassed : max 0 (now - bucket.lastRefill) = now - bucket.lastRefill :=
      max_eq_right (sub_nonneg.mpr hpast)
    have hamount := mul_nonneg (sub_nonneg.mpr hpast) config.refillRate_pos.le
    have hfloor := Int.floor_le ((now - bucket.lastRefill) * config.refillRate)
    simp only [refillWhole, hpassed]
    split_ifs with hrefill
    · have hgain : (0 : ℚ) < ⌊(now - bucket.lastRefill) * config.refillRate⌋ := by exact_mod_cast hrefill
      refine ⟨⟨le_min config.capacity_pos.le (by linarith), min_le_left _ _, le_rfl⟩, ?_, fun _ => ?_,
        ?_⟩
      · lift ⌊(now - bucket.lastRefill) * config.refillRate⌋ to ℕ using hrefill.le with gain
        obtain hle | hle := le_total k gain
        · refine ⟨0, ?_⟩
          have hle : (k : ℚ) ≤ gain := by exact_mod_cast hle
          rw [min_eq_left (by push_cast; linarith), Nat.cast_zero, sub_zero]
        · refine ⟨k - gain, ?_⟩
          have hcast : (gain : ℚ) ≤ k := by exact_mod_cast hle
          rw [min_eq_right (by push_cast; linarith), Nat.cast_sub hle, hk]
          push_cast
          ring
      · rw [sub_self, mul_zero, add_zero]
        exact min_le_left _ _
      · simp only [level, Option.elim_some, sub_self, mul_zero, add_zero]
        apply le_min (min_le_left _ _)
        refine (min_le_right _ _).trans ((min_le_right _ _).trans ?_)
        rw [mul_comm config.refillRate]
        linarith
    · have hless : (now - bucket.lastRefill) * config.refillRate < 1 := by
        have hzero : ⌊(now - bucket.lastRefill) * config.refillRate⌋ < 1 := by omega
        exact_mod_cast Int.floor_lt.mp hzero
      refine ⟨⟨hnonneg, hcapacity, hpast⟩, ⟨k, hk⟩, fun htoken => ?_, le_rfl⟩
      have hspent := hspent (htoken.trans hcapacity)
      rw [mul_comm config.refillRate]
      linarith

lemma whole_take (hcapacity : bucket.tokens ≤ config.capacity)
    (hwhole : ∃ k : ℕ, bucket.tokens = config.capacity - k) : Whole config (take 1 bucket).2 := by
  obtain ⟨k, hk⟩ := hwhole
  unfold take
  split_ifs with htake
  · refine ⟨⟨k + 1, ?_⟩, fun _ => sub_le_sub_right hcapacity 1⟩
    push_cast
    rw [hk]
    ring
  · refine ⟨⟨k, hk⟩, fun hone => ?_⟩
    have hpos : (0 : ℚ) < k := by linarith
    have hone : (1 : ℚ) ≤ k := by exact_mod_cast hpos
    linarith

lemma Stocked.serve (h : Stocked config key last log stored) (hnow : last ≤ request.now) :
    Stocked config key request.now (log ++ grants (redisRequest config) key stored request)
      (serves (redisRequest config) request stored) := by
  have hkept (entry : StoredBucket) (hentry : stored key = some entry) :
      Kept config request.now entry :=
    let ⟨hvalid, hwhole, hlives⟩ := h.kept entry hentry
    ⟨hvalid.mono hnow, hwhole, hlives⟩
  have hget := serves_redis config request stored
  by_cases hkey : request.key = key
  · subst hkey
    have hfetched : ∀ bucket, fetch request.now (stored request.key) = some bucket →
        Valid config request.now bucket ∧ Whole config bucket := by
      intro bucket hbucket
      obtain ⟨entry, hentry, rfl⟩ := Option.map_eq_some_iff.mp hbucket
      have hkept := hkept entry (Option.filter_eq_some_iff.mp hentry).1
      exact ⟨hkept.valid, hkept.whole⟩
    obtain ⟨hvalid, hwhole, hroom, hlevel⟩ := refillWhole_valid
      (fun bucket hbucket => (hfetched bucket hbucket).1) fun bucket hbucket => (hfetched bucket hbucket).2
    rw [level_fetch hkept] at hlevel
    have htaken := (level_take hroom).trans hlevel
    rw [hget, grants_self]
    constructor
    · rw [Function.update_self, Option.map_some]
      exact paid_bucket h.paid _ _ hnow
        (level_nonneg fun bucket hsome => Option.some.inj hsome ▸ hvalid.take) htaken
    · intro entry hentry
      rw [Function.update_self] at hentry
      obtain rfl := Option.some.inj hentry
      exact ⟨hvalid.take, whole_take hvalid.le_capacity hwhole,
        add_le_add_left hvalid.take.past _⟩
  · rw [grants_of_ne _ hkey, List.append_nil, hget]
    constructor
    · rw [Function.update_of_ne (Ne.symm hkey)]
      refine paid_wait h.paid (fun bucket hbucket => ?_) hnow
      obtain ⟨entry, hentry, rfl⟩ := Option.map_eq_some_iff.mp hbucket
      exact (h.kept entry hentry).valid
    · intro entry hentry
      rw [Function.update_of_ne (Ne.symm hkey)] at hentry
      exact hkept entry hentry

end Redis

lemma exists_start (htimes : (requests.map Request.now).Pairwise (· ≤ ·)) :
    ∃ start, (start :: requests.map Request.now).Pairwise (· ≤ ·) := by
  cases requests with
  | nil => exact ⟨0, List.pairwise_singleton _ _⟩
  | cons first rest =>
    refine ⟨first.now, List.pairwise_cons.mpr ⟨fun now hnow => ?_, htimes⟩⟩
    obtain rfl | hnow := List.mem_cons.mp hnow
    · exact le_rfl
    · exact (List.pairwise_cons.mp htimes).1 now hnow

/-- In no interval are more requests of a key granted than the capacity and what is refilled: by the
script, and by the store in memory while it does not evict the key's bucket before it is full. -/
theorem grants_bounded (config : Config) (maxKeys : ℕ) (key : String) (requests : List Request)
    (htimes : (requests.map Request.now).Pairwise (· ≤ ·)) :
    Bounded config.capacity config.refillRate (trace (serves (redisRequest config))
        (grants (redisRequest config) key) (fun _ => none) requests) ∧
      (Along (serves (memoryRequest config maxKeys)) (Spares config maxKeys key) InsertionMap.empty
          requests →
        Bounded config.capacity config.refillRate (trace (serves (memoryRequest config maxKeys))
          (grants (memoryRequest config maxKeys) key) InsertionMap.empty requests)) := by
  obtain ⟨start, hsorted⟩ := exists_start htimes
  have hfull : Paid config.capacity config.refillRate start config.capacity [] :=
    paid_nil config.capacity_pos.le config.refillRate_pos.le start
  constructor
  · have hstart : Stocked config key start [] fun _ => none := ⟨hfull, nofun⟩
    obtain ⟨last, h⟩ := trace_invariant_timed (I := fun last log stored =>
        Stocked config key last log stored) (fun _ _ _ _ h hnow _ => h.serve hnow) hstart hsorted
      (along_of_forall _ (fun _ _ => trivial) _ _)
    exact h.paid.bounded
  · intro hspares
    have hstart : Remembered config key start [] InsertionMap.empty := ⟨hfull, nofun⟩
    obtain ⟨last, h⟩ := trace_invariant_timed (I := fun last log buckets =>
        Remembered config key last log buckets)
      (fun _ _ _ _ h hnow hspares => h.serve hnow hspares) hstart hsorted hspares
    exact h.paid.bounded

instance (config : Config) (maxKeys : ℕ) (key : String) (buckets : Buckets) (request : Request) :
    Decidable (Spares config maxKeys key buckets request) := by
  unfold Spares
  infer_instance

def oneToken : Config := ⟨1, 1, one_pos, one_pos⟩

theorem grants_bounded_oneToken :
    Bounded 1 1 (trace (serves (redisRequest oneToken)) (grants (redisRequest oneToken) "a")
        (fun _ => none) [⟨"a", 0⟩, ⟨"b", 1⟩, ⟨"a", 1⟩]) ∧
      Bounded 1 1 (trace (serves (memoryRequest oneToken 1)) (grants (memoryRequest oneToken 1) "a")
        InsertionMap.empty [⟨"a", 0⟩, ⟨"b", 1⟩, ⟨"a", 1⟩]) := by
  obtain ⟨hredis, hmemory⟩ := grants_bounded oneToken 1 "a"
    [⟨"a", 0⟩, ⟨"b", 1⟩, ⟨"a", 1⟩] (by decide +kernel)
  exact ⟨hredis, hmemory (by decide +kernel)⟩

/-- Another key evicts a bucket that has just been emptied. -/
theorem evicted_granted_again :
    ¬ ∀ (config : Config) (maxKeys : ℕ) (key : String) (requests : List Request),
      (requests.map Request.now).Pairwise (· ≤ ·) →
        Bounded config.capacity config.refillRate (trace (serves (memoryRequest config maxKeys))
          (grants (memoryRequest config maxKeys) key) InsertionMap.empty requests) := by
  intro h
  have hbounded := h oneToken 1 "a" [⟨"a", 0⟩, ⟨"b", 0⟩, ⟨"a", 0⟩] (by decide +kernel) 0 0 le_rfl
  revert hbounded
  decide +kernel

end StellarTags.Middleware.TokenBucket
