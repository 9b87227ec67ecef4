import Mathlib.Algebra.Order.Archimedean.Basic
import Mathlib.Data.List.Dedup
import StellarTags.Middleware.TokenBucketBound

/-! When the script and the store in memory grant the same requests. -/

namespace StellarTags.Middleware.TokenBucket

open Library Library.Runs

variable {config : Config} {maxKeys : ℕ} {buckets : Buckets} {stored : Stored}
  {entry : StoredBucket} {bucket b m : Bucket} {request : Request} {requests : List Request}
  {keys : List String} {last now : ℚ} {key : String}

/-- After no whole number of seconds does a bucket with room get a part of a token that matters. -/
def Lossless (config : Config) : Prop :=
  ∀ seconds : ℕ, ⌊config.refillRate * seconds⌋ + 1 ≤ config.capacity →
    Int.fract (config.refillRate * seconds) = 0 ∨
      ⌊config.refillRate * seconds⌋ = 0 ∧
        Int.fract config.capacity + config.refillRate * seconds < 1

/-- The two stores decide every request alike. -/
def Agrees (config : Config) : Prop :=
  ∀ (maxKeys : ℕ) (requests : List Request),
    (requests.map Request.key).dedup.length < maxKeys →
    (∀ request ∈ requests, ∃ second : ℤ, request.now = second) →
    (requests.map Request.now).Pairwise (· ≤ ·) →
    trace (serves (redisRequest config)) (decisions (redisRequest config)) (fun _ => none) requests =
      trace (serves (memoryRequest config maxKeys)) (decisions (memoryRequest config maxKeys))
        InsertionMap.empty requests

section Alike

/-- What is in memory and not in Redis is less than a token, and makes none. -/
structure Apart (config : Config) (now : ℚ) (b m : Bucket) : Prop where
  lastRefill : m.lastRefill = now
  idle : ∃ seconds : ℕ, now = b.lastRefill + seconds ∧
    m.tokens = b.tokens + config.refillRate * seconds ∧
    (seconds = 0 ∨ ⌊config.refillRate * seconds⌋ = 0 ∧
      Int.fract config.capacity + config.refillRate * seconds < 1)

lemma Apart.take (h : Apart config now b m) (hnonneg : 0 ≤ b.tokens)
    (hwhole : ∃ k : ℕ, b.tokens = config.capacity - k) :
    (take 1 b).1 = (take 1 m).1 ∧ Apart config now (take 1 b).2 (take 1 m).2 := by
  obtain ⟨hrefill, seconds, hnow, htokens, hapart⟩ := h
  have hwait : 0 ≤ config.refillRate * seconds :=
    mul_nonneg config.refillRate_pos.le (Nat.cast_nonneg _)
  have hsame : 1 ≤ m.tokens ↔ 1 ≤ b.tokens := by
    rw [htokens]
    refine ⟨fun hone => ?_, fun hone => by linarith⟩
    obtain rfl | ⟨-, hless⟩ := hapart
    · simpa using hone
    · obtain ⟨k, hk⟩ := hwhole
      by_contra hfew
      have hfract : Int.fract config.capacity = b.tokens := by
        rw [Int.fract_eq_iff]
        exact ⟨hnonneg, not_le.mp hfew, k, by rw [hk]; simp⟩
      linarith
  unfold TokenBucket.take
  by_cases hone : 1 ≤ b.tokens
  · rw [if_pos hone, if_pos (hsame.mpr hone)]
    exact ⟨rfl, hrefill, seconds, hnow, by dsimp only; rw [htokens]; ring, hapart⟩
  · rw [if_neg hone, if_neg fun hmem => hone (hsame.mp hmem)]
    exact ⟨rfl, hrefill, seconds, hnow, htokens, hapart⟩

/-- The bucket of a key in both stores. -/
structure Alike (config : Config) (entry : StoredBucket) (bucket : Bucket) : Prop where
  kept : Kept config bucket.lastRefill entry
  apart : Apart config bucket.lastRefill entry.toBucket bucket
  second : ∃ second : ℤ, bucket.lastRefill = second

/-- In memory a bucket has all that was refilled since the script last refilled. -/
lemma refill_alike (h : Alike config entry bucket) (hone : 1 ≤ config.capacity)
    (hnow : bucket.lastRefill ≤ now) (hsecond : ∃ second : ℤ, now = second) :
    ∃ seconds : ℕ, now = entry.lastRefill + seconds ∧
      refill config now (some bucket) =
        ⟨min config.capacity (entry.tokens + config.refillRate * seconds), now⟩ := by
  obtain ⟨⟨⟨-, -, -⟩, ⟨-, hspent⟩, -⟩, ⟨-, idle, hidle, htokens, hapart⟩, t, ht⟩ := h
  obtain ⟨second, hsecond⟩ := hsecond
  have hpassed : max 0 (now - bucket.lastRefill) = now - bucket.lastRefill :=
    max_eq_right (sub_nonneg.mpr hnow)
  obtain ⟨wait, hwait⟩ : ∃ wait : ℕ, now = bucket.lastRefill + wait := by
    have hle : t ≤ second := by exact_mod_cast ht ▸ hsecond ▸ hnow
    refine ⟨(second - t).toNat, ?_⟩
    have hcast : (((second - t).toNat : ℕ) : ℚ) = second - t := by
      exact_mod_cast Int.toNat_of_nonneg (sub_nonneg.mpr hle)
    rw [hcast, ht, hsecond]
    ring
  refine ⟨idle + wait, by push_cast; linarith, ?_⟩
  simp only [refill, hpassed]
  split_ifs with hrefill
  · rw [htokens, hwait]
    push_cast
    congr 2
    ring
  · have hzero : (wait : ℚ) = 0 := by
      have hnonneg := mul_nonneg (sub_nonneg.mpr hnow) config.refillRate_pos.le
      have hproduct : (now - bucket.lastRefill) * config.refillRate = 0 := by linarith
      rw [hwait, add_sub_cancel_left] at hproduct
      exact (mul_eq_zero.mp hproduct).resolve_right config.refillRate_pos.ne'
    have hless : config.refillRate * idle < 1 := by
      obtain rfl | ⟨hfloor, -⟩ := hapart
      · simp
      · exact (Int.floor_eq_zero_iff.mp hfloor).2
    have hspent := hspent hone
    rw [hzero, add_zero] at hwait
    push_cast
    rw [hzero, add_zero, min_eq_right (by linarith), ← htokens, hwait]

lemma Alike.refill (hlossless : Lossless config) (hone : 1 ≤ config.capacity)
    (h : Alike config entry bucket) (hnow : bucket.lastRefill ≤ now)
    (hsecond : ∃ second : ℤ, now = second) :
    Apart config now (refillWhole config now (fetch now (some entry)))
      (refill config now (some bucket)) := by
  obtain ⟨seconds, hseconds, hrefill⟩ := refill_alike h hone hnow hsecond
  obtain ⟨⟨hnonneg, hcapacity, hpast⟩, ⟨⟨k, hk⟩, hspent⟩, hlives⟩ := h.kept
  have hspent := hspent hone
  have hpassed : max 0 (now - entry.lastRefill) = seconds := by
    rw [hseconds, add_sub_cancel_left, max_eq_right (Nat.cast_nonneg _)]
  have hwait : 0 ≤ config.refillRate * seconds :=
    mul_nonneg config.refillRate_pos.le (Nat.cast_nonneg _)
  -- where both buckets are refilled now, they have the same
  have hsame {tokens : ℚ} (htokens :
      tokens = min config.capacity (entry.tokens + config.refillRate * seconds)) :
      Apart config now ⟨tokens, now⟩ (TokenBucket.refill config now (some bucket)) := by
    rw [hrefill, ← htokens]
    exact ⟨rfl, 0, by simp, by simp, .inl rfl⟩
  by_cases hlive : now < entry.expiresAt
  · have hfetch : fetch now (some entry) = some entry.toBucket := by simp [fetch, hlive]
    rw [hfetch]
    simp only [refillWhole, hpassed, mul_comm (seconds : ℚ)]
    have hlossless := hlossless seconds
    split_ifs with hgain
    · apply hsame
      by_cases hroom : ⌊config.refillRate * seconds⌋ + 1 ≤ config.capacity
      · obtain hwhole | ⟨hzero, -⟩ := hlossless hroom
        · rw [← Int.floor_add_fract (config.refillRate * seconds), hwhole]
          simp
        · rw [hzero] at hgain
          exact absurd hgain (lt_irrefl 0)
      · have hk : (k : ℚ) ≤ ⌊config.refillRate * seconds⌋ := by
          have hless : (k : ℚ) < ⌊config.refillRate * seconds⌋ + 1 := by linarith
          exact_mod_cast Int.lt_add_one_iff.mp (by exact_mod_cast hless)
        have hfloor := Int.floor_le (config.refillRate * seconds)
        rw [min_eq_left (by linarith), min_eq_left (by linarith)]
    · have hzero : ⌊config.refillRate * seconds⌋ = 0 := by
        have hfloor := Int.floor_nonneg.mpr hwait
        omega
      have hless := (Int.floor_eq_zero_iff.mp hzero).2
      have hfull : min config.capacity (entry.tokens + config.refillRate * seconds) =
          entry.tokens + config.refillRate * seconds := min_eq_right (by linarith)
      rw [hrefill, hfull]
      refine ⟨rfl, seconds, hseconds, rfl, ?_⟩
      obtain hwhole | hapart := hlossless (by rw [hzero]; simpa using hone)
      · left
        rw [Int.fract, hzero, Int.cast_zero, sub_zero] at hwhole
        exact_mod_cast (mul_eq_zero.mp hwhole).resolve_left config.refillRate_pos.ne'
      · exact .inr hapart
  · have hfetch : fetch now (some entry) = none := by simpa [fetch] using hlive
    rw [hfetch]
    apply hsame
    have hlong : ttl config ≤ seconds := by linarith
    have hfull := capacity_le_ttl config
    have hrefill := mul_le_mul_of_nonneg_left hlong config.refillRate_pos.le
    exact (min_eq_left (by linarith)).symm

structure BothAlike (config : Config) (keys : List String) (last : ℚ) (stored : Stored)
    (buckets : Buckets) : Prop where
  known : buckets.keys ⊆ keys
  alike : ∀ key, (stored key = none ∧ buckets.get key = none) ∨ ∃ entry bucket,
    stored key = some entry ∧ buckets.get key = some bucket ∧ Alike config entry bucket ∧
      bucket.lastRefill ≤ last

lemma not_full (hknown : buckets.keys ⊆ keys) (hkey : key ∈ keys) (hroom : keys.length < maxKeys) :
    ¬ (maxKeys ≤ buckets.size ∧ (buckets.get key).isNone) := by
  rintro ⟨hfull, hnone⟩
  have hsize := InsertionMap.size_lt hknown hkey (Option.isNone_iff_eq_none.mp hnone)
  omega

lemma BothAlike.serve (h : BothAlike config keys last stored buckets)
    (hlossless : Lossless config) (hone : 1 ≤ config.capacity) (hroom : keys.length < maxKeys)
    (hnow : last ≤ request.now) (hkey : request.key ∈ keys)
    (hsecond : ∃ second : ℤ, request.now = second) :
    decisions (redisRequest config) stored request =
        decisions (memoryRequest config maxKeys) buckets request ∧
      BothAlike config keys request.now (serves (redisRequest config) request stored)
        (serves (memoryRequest config maxKeys) request buckets) := by
  have hfetched : (∀ bucket, fetch request.now (stored request.key) = some bucket →
      Valid config request.now bucket ∧ Whole config bucket) ∧
      Apart config request.now (refillWhole config request.now (fetch request.now (stored request.key)))
        (refill config request.now (buckets.get request.key)) := by
    obtain ⟨hstored, hget⟩ | ⟨entry, bucket, hstored, hget, halike, hlast⟩ := h.alike request.key
    · rw [hstored, hget]
      exact ⟨fun _ hnone => absurd hnone (by simp [fetch]), rfl, 0, by simp [fetch, refillWhole], by simp [fetch, refillWhole, refill],
        .inl rfl⟩
    · rw [hstored, hget]
      refine ⟨fun bucket' hbucket' => ?_,
        halike.refill hlossless hone (hlast.trans hnow) hsecond⟩
      obtain ⟨entry', hentry', rfl⟩ := Option.map_eq_some_iff.mp hbucket'
      obtain rfl := Option.some.inj (Option.filter_eq_some_iff.mp hentry').1
      exact ⟨halike.kept.valid.mono (hlast.trans hnow), halike.kept.whole⟩
  obtain ⟨hfetched, hapart⟩ := hfetched
  obtain ⟨hvalid, hwhole, -, -⟩ := refillWhole_valid
    (fun bucket hbucket => (hfetched bucket hbucket).1) fun bucket hbucket => (hfetched bucket hbucket).2
  obtain ⟨hdecision, htaken⟩ := hapart.take hvalid.nonneg hwhole
  have hkept := not_full h.known hkey hroom
  have hmemory : serves (memoryRequest config maxKeys) request buckets = buckets.set request.key
      (take 1 (refill config request.now (buckets.get request.key))).2 := by
    simp only [serves, memoryRequest, consume, if_neg hkept]
  refine ⟨congrArg (fun allowed => [allowed]) hdecision, ?_, fun key => ?_⟩
  · rw [hmemory]
    exact InsertionMap.keys_set_subset h.known hkey _
  · rw [hmemory, InsertionMap.get_set]
    change (Function.update stored request.key _ key = _ ∧ _) ∨ ∃ entry bucket,
      Function.update stored request.key _ key = _ ∧ _
    by_cases hsame : key = request.key
    · subst hsame
      rw [Function.update_self, Function.update_self]
      refine .inr ⟨_, _, rfl, rfl, ⟨⟨?_, whole_take hvalid.le_capacity hwhole, ?_⟩, ?_, ?_⟩, ?_⟩
      · rw [htaken.lastRefill]
        exact hvalid.take
      · exact add_le_add_left hvalid.take.past _
      · rw [htaken.lastRefill]
        exact htaken
      · rwa [htaken.lastRefill]
      · rw [htaken.lastRefill]
    · rw [Function.update_of_ne hsame, Function.update_of_ne hsame]
      rcases h.alike key with hnone | ⟨entry, bucket, hstored, hget, halike, hlast⟩
      · exact .inl hnone
      · exact .inr ⟨entry, bucket, hstored, hget, halike, hlast.trans hnow⟩

end Alike

section Small

/-- No bucket has more than the capacity. -/
structure BothWithin (config : Config) (stored : Stored) (buckets : Buckets) : Prop where
  redis : ∀ key entry, stored key = some entry → entry.tokens ≤ config.capacity
  memory : ∀ key bucket, buckets.get key = some bucket → bucket.tokens ≤ config.capacity

lemma take_le (h : bucket.tokens ≤ config.capacity) : (take 1 bucket).2.tokens ≤ config.capacity := by
  unfold take
  split_ifs
  · exact (sub_le_self _ one_pos.le).trans h
  · exact h

lemma take_denies (h : bucket.tokens ≤ config.capacity) (hsmall : config.capacity < 1) :
    (take 1 bucket).1 = false := by
  unfold take
  rw [if_neg (by linarith)]

lemma BothWithin.serve (h : BothWithin config stored buckets) (hsmall : config.capacity < 1)
    (maxKeys : ℕ) (request : Request) :
    decisions (redisRequest config) stored request =
        decisions (memoryRequest config maxKeys) buckets request ∧
      BothWithin config (serves (redisRequest config) request stored)
        (serves (memoryRequest config maxKeys) request buckets) := by
  have hredis : (refillWhole config request.now
      (fetch request.now (stored request.key))).tokens ≤ config.capacity := by
    cases hfetch : fetch request.now (stored request.key) with
    | none => exact le_rfl
    | some bucket =>
      obtain ⟨entry, hentry, rfl⟩ := Option.map_eq_some_iff.mp hfetch
      simp only [refillWhole]
      split_ifs
      · exact min_le_left _ _
      · exact h.redis _ entry (Option.filter_eq_some_iff.mp hentry).1
  have hmemory : (refill config request.now (buckets.get request.key)).tokens ≤ config.capacity := by
    cases hget : buckets.get request.key with
    | none => exact le_rfl
    | some bucket =>
      simp only [refill]
      split_ifs
      · exact min_le_left _ _
      · exact h.memory _ bucket hget
  refine ⟨?_, fun key entry hentry => ?_, fun key bucket hbucket => ?_⟩
  · exact congrArg (fun allowed => [allowed])
      ((take_denies hredis hsmall).trans (take_denies hmemory hsmall).symm)
  · change Function.update stored request.key _ key = _ at hentry
    by_cases hkey : key = request.key
    · rw [hkey, Function.update_self] at hentry
      exact Option.some.inj hentry ▸ take_le hredis
    · rw [Function.update_of_ne hkey] at hentry
      exact h.redis key entry hentry
  · change Function.update (InsertionMap.get (if _ then _ else _)) request.key _ key = _ at hbucket
    by_cases hkey : key = request.key
    · rw [hkey, Function.update_self] at hbucket
      exact Option.some.inj hbucket ▸ take_le hmemory
    · rw [Function.update_of_ne hkey] at hbucket
      split_ifs at hbucket
      · exact h.memory key bucket (InsertionMap.get_of_get_deleteOldest hbucket)
      · exact h.memory key bucket hbucket

end Small

lemma agrees_of_lossless (hlossless : Lossless config) : Agrees config := by
  intro maxKeys requests hroom hseconds htimes
  obtain ⟨start, hsorted⟩ := exists_start htimes
  obtain hsmall | hone := lt_or_ge config.capacity 1
  · have hstart : BothWithin config (fun _ => none) InsertionMap.empty := ⟨nofun, nofun⟩
    exact trace_eq (R := fun _ => BothWithin config)
      (fun _ _ _ request h _ _ => h.serve hsmall maxKeys request) hstart hsorted hseconds
  · have hstart : BothAlike config (requests.map Request.key).dedup start (fun _ => none)
        InsertionMap.empty := ⟨List.nil_subset _, fun _ => .inl ⟨rfl, rfl⟩⟩
    refine trace_eq (R := BothAlike config (requests.map Request.key).dedup)
      (P := fun request : Request => request.key ∈ (requests.map Request.key).dedup ∧
        ∃ second : ℤ, request.now = second) ?_ hstart hsorted fun request hrequest => ?_
    · rintro last stored buckets request h hnow ⟨hkey, hsecond⟩
      exact h.serve hlossless hone hroom hnow hkey hsecond
    · exact ⟨List.mem_dedup.mpr (List.mem_map_of_mem hrequest), hseconds request hrequest⟩

section Lossy

variable (config)

/-- Requests of one key, none later than a second. -/
structure Sent (now : ℚ) (requests : List Request) : Prop where
  key : ∀ request ∈ requests, request.key = ""
  past : ∀ request ∈ requests, request.now ≤ now
  second : ∀ request ∈ requests, ∃ second : ℤ, request.now = second
  sorted : (requests.map Request.now).Pairwise (· ≤ ·)

lemma Sent.mono (h : Sent last requests) (hnow : last ≤ now) : Sent now requests :=
  { h with past := fun request hrequest => (h.past request hrequest).trans hnow }

lemma Sent.snoc (h : Sent now requests) (hsecond : ∃ second : ℤ, now = second) :
    Sent now (requests ++ [⟨"", now⟩]) where
  key request hrequest := by
    obtain hold | hnew := List.mem_append.mp hrequest
    · exact h.key request hold
    · rw [List.mem_singleton.mp hnew]
  past request hrequest := by
    obtain hold | hnew := List.mem_append.mp hrequest
    · exact h.past request hold
    · rw [List.mem_singleton.mp hnew]
  second request hrequest := by
    obtain hold | hnew := List.mem_append.mp hrequest
    · exact h.second request hold
    · rw [List.mem_singleton.mp hnew]
      exact hsecond
  sorted := by
    rw [List.map_append, List.pairwise_append]
    refine ⟨h.sorted, List.pairwise_singleton _ _, fun time htime new hnew => ?_⟩
    obtain ⟨request, hrequest, rfl⟩ := List.mem_map.mp htime
    rw [List.mem_singleton.mp hnew]
    exact h.past request hrequest

/-- What a request finds after some others, refilled, in Redis and in memory. -/
def Finds (requests : List Request) (now : ℚ) (b m : Bucket) : Prop :=
  refillWhole config now (fetch now (run (serves (redisRequest config)) (fun _ => none) requests ""))
      = b ∧
    refill config now ((run (serves (memoryRequest config 2)) InsertionMap.empty requests).get "") = m

/-- What requests leave of which the last was now. -/
def Leaves (requests : List Request) (now : ℚ) (b m : Bucket) : Prop :=
  run (serves (redisRequest config)) (fun _ => none) requests "" = some ⟨b, now + ttl config⟩ ∧
    (run (serves (memoryRequest config 2)) InsertionMap.empty requests).get "" = some m

variable {config}

lemma ttl_pos (config : Config) : 0 < ttl config := by
  have hceil := Int.le_ceil (config.capacity / config.refillRate)
  have hratio := div_pos config.capacity_pos config.refillRate_pos
  unfold ttl
  linarith

lemma Finds.leaves (h : Finds config requests now b m) :
    Leaves config (requests ++ [⟨"", now⟩]) now (take 1 b).2 (take 1 m).2 := by
  obtain ⟨rfl, rfl⟩ := h
  rw [Leaves, run_append, run_append, run_cons, run_nil, run_cons, run_nil, serves_redis,
    get_serves_memory]
  exact ⟨Function.update_self .., Function.update_self ..⟩

lemma Leaves.finds (h : Leaves config requests last b m) (hsoon : now < last + ttl config) :
    Finds config requests now (refillWhole config now (some b)) (refill config now (some m)) := by
  obtain ⟨hredis, hmemory⟩ := h
  have hfetch : fetch now (some ⟨b, last + ttl config⟩) = some b := by simp [fetch, hsoon]
  rw [Finds, hredis, hmemory, hfetch]
  exact ⟨rfl, rfl⟩

lemma Leaves.finds_again (h : Leaves config requests now b m) (hb : b.lastRefill = now)
    (hm : m.lastRefill = now) : Finds config requests now b m := by
  have hfound := h.finds (lt_add_of_pos_right now (ttl_pos config))
  simpa [refillWhole, refill, hb, hm] using hfound

lemma Finds.burst (h : Finds config requests now b m) (hsent : Sent now requests)
    (hsecond : ∃ second : ℤ, now = second) (hb : b.lastRefill = now) (hm : m.lastRefill = now) (n : ℕ)
    (hbtokens : n + 1 ≤ b.tokens) (hmtokens : n + 1 ≤ m.tokens) :
    ∃ requests, Sent now requests ∧
      Leaves config requests now ⟨b.tokens - (n + 1), now⟩ ⟨m.tokens - (n + 1), now⟩ := by
  induction n with
  | zero =>
    refine ⟨_, hsent.snoc hsecond, ?_⟩
    simpa [take, show 1 ≤ b.tokens by simpa using hbtokens, show 1 ≤ m.tokens by simpa using hmtokens,
      hb, hm] using h.leaves
  | succ n ih =>
    push_cast at hbtokens hmtokens ⊢
    obtain ⟨requests, hsent, hleft⟩ := ih (by linarith) (by linarith)
    refine ⟨_, hsent.snoc hsecond, ?_⟩
    have hnext := (hleft.finds_again rfl rfl).leaves
    have htake {tokens : ℚ} (htokens : n + 1 + 1 ≤ tokens) :
        (take 1 ⟨tokens - (n + 1), now⟩).2 = ⟨tokens - (n + 1 + 1), now⟩ := by
      rw [take, if_pos (by linarith)]
      exact congrArg (Bucket.mk · now) (by ring)
    rwa [htake hbtokens, htake hmtokens] at hnext

lemma Agrees.not_apart (h : Agrees config) (hfinds : Finds config requests now b m)
    (hsent : Sent now requests) (hsecond : ∃ second : ℤ, now = second) (hb : b.tokens < 1) :
    m.tokens < 1 := by
  by_contra hm
  obtain ⟨rfl, rfl⟩ := hfinds
  have hall := hsent.snoc hsecond
  have hkeys : ((requests ++ [Request.mk "" now]).map Request.key).dedup.length < 2 := by
    have hsub : ((requests ++ [Request.mk "" now]).map Request.key).dedup ⊆ [""] := by
      intro key hkey
      obtain ⟨request, hrequest, rfl⟩ := List.mem_map.mp (List.mem_dedup.mp hkey)
      exact List.mem_singleton.mpr (hall.key request hrequest)
    exact Nat.lt_succ_of_le (List.subperm_of_subset (List.nodup_dedup _) hsub).length_le
  have hsame := h 2 (requests ++ [⟨"", now⟩]) hkeys hall.second hall.sorted
  rw [trace_append, trace_append] at hsame
  have hlast := (List.append_inj' hsame rfl).2
  simp only [trace, decisions, redisRequest, tokenBucketLua, memoryRequest, consume, take,
    if_neg (not_le.mpr hb), if_pos (not_lt.mp hm), List.append_nil, List.cons.injEq] at hlast
  cases hlast.1

/-- The first second empties both buckets, but for a part of a token. -/
lemma exists_emptied (hone : 1 ≤ config.capacity) : ∃ requests, Sent 0 requests ∧
    Leaves config requests 0 ⟨Int.fract config.capacity, 0⟩ ⟨Int.fract config.capacity, 0⟩ := by
  have hnil : Sent 0 [] := ⟨nofun, nofun, nofun, List.Pairwise.nil⟩
  have hfull : Finds config [] 0 ⟨config.capacity, 0⟩ ⟨config.capacity, 0⟩ := ⟨rfl, rfl⟩
  have hfloor : 1 ≤ ⌊config.capacity⌋ := Int.le_floor.mpr (by exact_mod_cast hone)
  obtain ⟨n, hn⟩ := Int.eq_ofNat_of_zero_le (sub_nonneg.mpr hfloor)
  have hn : (n : ℚ) + 1 = ⌊config.capacity⌋ := by
    have hn : (n : ℤ) + 1 = ⌊config.capacity⌋ := by omega
    exact_mod_cast hn
  have hle : (n : ℚ) + 1 ≤ config.capacity := hn ▸ Int.floor_le _
  obtain ⟨requests, hsent, hleft⟩ := hfull.burst hnil ⟨0, by simp⟩ rfl rfl n hle hle
  rw [hn] at hleft
  exact ⟨requests, hsent, hleft⟩

/-- What a gap of a whole number of seconds gives to the buckets, where a part of it is lost. -/
lemma finds_later {seconds : ℕ} {j : ℕ} {tokens : ℚ}
    (hroom : ⌊config.refillRate * seconds⌋ + 1 ≤ config.capacity)
    (hfract : 0 < Int.fract (config.refillRate * seconds))
    (hleft : Leaves config requests (j * seconds) ⟨Int.fract config.capacity, j * seconds⟩
      ⟨tokens, j * seconds⟩) :
    Finds config requests ((j + 1 : ℕ) * seconds)
      (if 0 < ⌊config.refillRate * seconds⌋ then
        ⟨Int.fract config.capacity + ⌊config.refillRate * seconds⌋, (j + 1 : ℕ) * seconds⟩
      else ⟨Int.fract config.capacity, j * seconds⟩)
      ⟨min config.capacity (tokens + config.refillRate * seconds), (j + 1 : ℕ) * seconds⟩ := by
  have hrefill := Int.floor_add_fract (config.refillRate * seconds)
  have hless := Int.fract_lt_one (config.refillRate * seconds)
  have hpassed : max 0 (((j + 1 : ℕ) : ℚ) * seconds - j * seconds) = seconds := by
    push_cast
    rw [show ((j : ℚ) + 1) * seconds - j * seconds = seconds by ring, max_eq_right (by positivity)]
  have hsoon : ((j + 1 : ℕ) : ℚ) * seconds < j * seconds + ttl config := by
    have hshort : config.refillRate * seconds < config.refillRate * ttl config := by
      have hfull := capacity_le_ttl config
      linarith
    have hseconds := lt_of_mul_lt_mul_left hshort config.refillRate_pos.le
    push_cast
    linarith
  have hpos : 0 < config.refillRate * seconds := by
    have hfloor : (0 : ℚ) ≤ ⌊config.refillRate * seconds⌋ := by
      have hnonneg : 0 ≤ config.refillRate * seconds :=
        mul_nonneg config.refillRate_pos.le (Nat.cast_nonneg _)
      exact_mod_cast Int.floor_nonneg.mpr hnonneg
    linarith
  have hfound := hleft.finds hsoon
  simp only [refillWhole, refill, hpassed, mul_comm (seconds : ℚ), if_pos hpos] at hfound
  have hcapped : min config.capacity (Int.fract config.capacity + ⌊config.refillRate * seconds⌋) =
      Int.fract config.capacity + ⌊config.refillRate * seconds⌋ := by
    have hpart := Int.fract_lt_one config.capacity
    exact min_eq_right (by linarith)
  rwa [hcapped] at hfound

lemma sent_second (seconds : ℕ) (j : ℕ) : ∃ second : ℤ, ((j : ℕ) : ℚ) * seconds = second :=
  ⟨j * seconds, by push_cast; rfl⟩

lemma lossless_of_agrees (hagrees : Agrees config) : Lossless config := by
  intro seconds hroom
  by_contra hlossy
  obtain ⟨hfract, hapart⟩ := not_or.mp hlossy
  have hfract : 0 < Int.fract (config.refillRate * seconds) :=
    lt_of_le_of_ne (Int.fract_nonneg _) (Ne.symm hfract)
  have hrefill := Int.floor_add_fract (config.refillRate * seconds)
  have hnonneg : 0 ≤ ⌊config.refillRate * seconds⌋ :=
    Int.floor_nonneg.mpr (mul_nonneg config.refillRate_pos.le (Nat.cast_nonneg _))
  have hpart := Int.fract_lt_one config.capacity
  have hone : 1 ≤ config.capacity := by
    have hfloor : (0 : ℚ) ≤ ⌊config.refillRate * seconds⌋ := by exact_mod_cast hnonneg
    linarith
  have hzero : ∃ requests, Sent ((0 : ℕ) * seconds) requests ∧ Leaves config requests
      ((0 : ℕ) * seconds) ⟨Int.fract config.capacity, (0 : ℕ) * seconds⟩
      ⟨Int.fract config.capacity + (0 : ℕ) * Int.fract (config.refillRate * seconds),
        (0 : ℕ) * seconds⟩ := by
    simpa using exists_emptied hone
  have hnext (j : ℕ) : ((j : ℕ) : ℚ) * seconds ≤ (j + 1 : ℕ) * seconds := by
    push_cast
    nlinarith [(Nat.cast_nonneg seconds : (0 : ℚ) ≤ seconds)]
  obtain hfloor | hfloor := hnonneg.eq_or_lt
  -- no whole token is refilled: the first gap tells the stores apart
  · obtain ⟨requests, hsent, hleft⟩ := hzero
    have hfinds := finds_later hroom hfract hleft
    rw [← hfloor, if_neg (lt_irrefl 0)] at hfinds
    have hdenied := hagrees.not_apart hfinds (hsent.mono (hnext 0)) (sent_second seconds (0 + 1)) hpart
    have hless : Int.fract config.capacity + config.refillRate * seconds < 1 := by
      rw [Nat.cast_zero, zero_mul, add_zero, min_lt_iff] at hdenied
      exact hdenied.resolve_left hone.not_gt
    exact hapart ⟨hfloor.symm, hless⟩
  -- else memory gains the part that is lost with each gap, until that is a token
  · obtain ⟨n, hn⟩ := Int.eq_succ_of_zero_lt hfloor
    have hn : (⌊config.refillRate * seconds⌋ : ℚ) = n + 1 := by rw [hn]; push_cast; rfl
    have hgains (j : ℕ) : ∃ requests, Sent (j * seconds) requests ∧ Leaves config requests
        (j * seconds) ⟨Int.fract config.capacity, j * seconds⟩
        ⟨Int.fract config.capacity + j * Int.fract (config.refillRate * seconds), j * seconds⟩ := by
      induction j with
      | zero => exact hzero
      | succ j ih =>
        obtain ⟨requests, hsent, hleft⟩ := ih
        have hfinds := finds_later hroom hfract hleft
        rw [if_pos hfloor] at hfinds
        have hmemory : n + 1 + 1 ≤ config.capacity ∧ n + 1 ≤ Int.fract config.capacity +
            j * Int.fract (config.refillRate * seconds) + config.refillRate * seconds := by
          have hgained := mul_nonneg (Nat.cast_nonneg (α := ℚ) j) hfract.le
          have hleft := Int.fract_nonneg config.capacity
          constructor <;> linarith
        obtain ⟨requests', hsent', hleft'⟩ := hfinds.burst (hsent.mono (hnext j))
          (sent_second seconds (j + 1)) rfl rfl n
          (by dsimp only; linarith [Int.fract_nonneg config.capacity]) (le_min (by linarith) hmemory.2)
        refine ⟨requests', hsent', ?_⟩
        have hdenied := hagrees.not_apart (hleft'.finds_again rfl rfl) hsent'
          (sent_second seconds (j + 1)) (by dsimp only; linarith)
        dsimp only at hleft' hdenied
        have htokens : min config.capacity (Int.fract config.capacity +
            j * Int.fract (config.refillRate * seconds) + config.refillRate * seconds) - (n + 1) =
            Int.fract config.capacity + (j + 1 : ℕ) * Int.fract (config.refillRate * seconds) := by
          have huncapped : min config.capacity (Int.fract config.capacity +
              j * Int.fract (config.refillRate * seconds) + config.refillRate * seconds) =
              Int.fract config.capacity + j * Int.fract (config.refillRate * seconds) +
                config.refillRate * seconds := by
            apply min_eq_right
            by_contra hfull
            rw [min_eq_left (not_le.mp hfull).le] at hdenied
            linarith
          rw [huncapped]
          push_cast
          linarith
        rwa [htokens, hn, add_sub_cancel_right] at hleft'
    obtain ⟨j, hj⟩ := exists_nat_gt (1 / Int.fract (config.refillRate * seconds))
    rw [div_lt_iff₀ hfract] at hj
    obtain ⟨requests, hsent, hleft⟩ := hgains j
    have hdenied := hagrees.not_apart (hleft.finds_again rfl rfl) hsent (sent_second seconds j) hpart
    have hleft := Int.fract_nonneg config.capacity
    dsimp only at hdenied
    linarith

end Lossy

/-- The two stores agree on all requests exactly when no part of a token that matters is lost. -/
theorem agrees_iff_lossless (config : Config) : Agrees config ↔ Lossless config :=
  ⟨lossless_of_agrees, agrees_of_lossless⟩

def threeHalves : Config := ⟨3, 3 / 2, by norm_num, by norm_num⟩

/-- After two gaps of a second the script has lost a whole token. -/
theorem refill_lost : ¬ ∀ config, Agrees config := by
  intro h
  have hsame := h threeHalves 2 [⟨"a", 0⟩, ⟨"a", 0⟩, ⟨"a", 0⟩, ⟨"a", 1⟩, ⟨"a", 2⟩, ⟨"a", 2⟩]
    (by decide) (fun request hrequest => ⟨⌊request.now⌋, by revert request; decide +kernel⟩)
    (by decide +kernel)
  revert hsame
  decide +kernel

end StellarTags.Middleware.TokenBucket
