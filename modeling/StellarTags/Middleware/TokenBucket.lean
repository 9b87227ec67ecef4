import Mathlib.Data.Rat.Floor
import StellarTags.Library.Tables
import StellarTags.Library.Runs

/-! The token-bucket limiter: its store in memory and the script that runs in Redis. -/

namespace StellarTags.Middleware.TokenBucket

open Library Library.Runs

/-- Tokens are refilled per second. -/
structure Config where
  capacity : ℚ
  refillRate : ℚ
  capacity_pos : 0 < capacity
  refillRate_pos : 0 < refillRate

structure Bucket where
  tokens : ℚ
  lastRefill : ℚ
  deriving DecidableEq, Repr

structure Result where
  allowed : Bool
  remaining : ℚ
  capacity : ℚ
  lastRefill : ℚ
  deriving DecidableEq, Repr

structure Request where
  key : String
  now : ℚ
  deriving DecidableEq, Repr

def take (requested : ℚ) (bucket : Bucket) : Bool × Bucket :=
  if requested ≤ bucket.tokens then
    (true, { bucket with tokens := bucket.tokens - requested })
  else (false, bucket)

section Memory

abbrev Buckets := InsertionMap String Bucket

variable (config : Config)

def refill (now : ℚ) (bucket : Option Bucket) : Bucket :=
  match bucket with
  | none => ⟨config.capacity, now⟩
  | some bucket =>
    let timePassed := max 0 (now - bucket.lastRefill)
    let refillAmount := timePassed * config.refillRate
    if 0 < refillAmount then ⟨min config.capacity (bucket.tokens + refillAmount), now⟩ else bucket

def consume (maxKeys : ℕ) (key : String) (now requested : ℚ) (buckets : Buckets) :
    Result × Buckets :=
  let (allowed, bucket) := take requested (refill config now (buckets.get key))
  let kept :=
    if maxKeys ≤ buckets.size ∧ (buckets.get key).isNone then buckets.deleteOldest else buckets
  (⟨allowed, ⌊bucket.tokens⌋, config.capacity, bucket.lastRefill⟩, kept.set key bucket)

end Memory

section Redis

structure StoredBucket extends Bucket where
  expiresAt : ℚ
  deriving DecidableEq, Repr

abbrev Stored := String → Option StoredBucket

variable (config : Config)

def ttl : ℚ := ⌈config.capacity / config.refillRate⌉ + 10

/-- A key that has expired is gone. -/
def fetch (now : ℚ) (stored : Option StoredBucket) : Option Bucket :=
  (stored.filter (now < ·.expiresAt)).map StoredBucket.toBucket

def refillWhole (now : ℚ) (bucket : Option Bucket) : Bucket :=
  match bucket with
  | none => ⟨config.capacity, now⟩
  | some bucket =>
    let timePassed := max 0 (now - bucket.lastRefill)
    let refillAmount := ⌊timePassed * config.refillRate⌋
    if 0 < refillAmount then ⟨min config.capacity (bucket.tokens + refillAmount), now⟩ else bucket

/-- Numbers that a script returns lose their fraction. -/
def truncate (x : ℚ) : ℚ := if 0 ≤ x then ⌊x⌋ else ⌈x⌉

def tokenBucketLua (key : String) (now requested : ℚ) (stored : Stored) : Result × Stored :=
  let (allowed, bucket) := take requested (refillWhole config now (fetch now (stored key)))
  (⟨allowed, truncate bucket.tokens, truncate config.capacity, truncate bucket.lastRefill⟩,
    Function.update stored key (some ⟨bucket, now + ttl config⟩))

end Redis

section Requests

variable (config : Config) (maxKeys : ℕ)

def memoryRequest (request : Request) (buckets : Buckets) : Result × Buckets :=
  consume config maxKeys request.key request.now 1 buckets

def redisRequest (request : Request) (stored : Stored) : Result × Stored :=
  tokenBucketLua config request.key request.now 1 stored

variable {σ : Type} (serve : Request → σ → Result × σ)

def grants (key : String) (s : σ) (request : Request) : List ℚ :=
  if request.key = key ∧ (serve request s).1.allowed = true then [request.now] else []

lemma grants_self (s : σ) (request : Request) : grants serve request.key s request =
    if (serve request s).1.allowed = true then [request.now] else [] := by
  simp [grants]

lemma grants_of_ne {key : String} {request : Request} (h : request.key ≠ key) (s : σ) :
    grants serve key s request = [] := if_neg fun hgrant => h hgrant.1

def decisions (s : σ) (request : Request) : List Bool := [(serve request s).1.allowed]

def serves (request : Request) (s : σ) : σ := (serve request s).2

lemma serves_redis (config : Config) (request : Request) (stored : Stored) :
    serves (redisRequest config) request stored = Function.update stored request.key
      (some ⟨(take 1 (refillWhole config request.now (fetch request.now (stored request.key)))).2,
        request.now + ttl config⟩) := rfl

lemma get_serves_memory (config : Config) (maxKeys : ℕ) (request : Request) (buckets : Buckets) :
    (serves (memoryRequest config maxKeys) request buckets).get =
      Function.update (if maxKeys ≤ buckets.size ∧ (buckets.get request.key).isNone then
          buckets.deleteOldest else buckets).get request.key
        (some (take 1 (refill config request.now (buckets.get request.key))).2) := rfl

end Requests

end StellarTags.Middleware.TokenBucket
