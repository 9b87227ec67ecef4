import Mathlib.Data.Finset.Max
import Mathlib.Data.Rat.Floor
import StellarTags.Library.Runs
import StellarTags.Library.RateLimits
import StellarTags.Webhooks.Breaker

/-! Deliveries that take a token of their host, or wait and go without one. -/

namespace StellarTags.Webhooks.Throttle

open Library.Runs Library.TokenBuckets

section Tokens

/-- Tokens are refilled per second, times are in milliseconds. -/
structure Config where
  capacity : ℕ
  refillRate : ℕ
  baseBackoff : ℕ
  capacity_pos : 0 < capacity
  refillRate_pos : 0 < refillRate

structure Bucket where
  tokens : ℚ
  lastRefill : ℚ
  deriving DecidableEq

structure StoredBucket extends Bucket where
  expiresAt : ℚ
  deriving DecidableEq

structure RateLimit where
  allowed : Bool
  remainingTokens : ℤ
  retryAfterMs : ℤ
  deriving DecidableEq

/-- How long the keys of a bucket live. -/
def EXPIRY_MS : ℚ := 3_600_000

def fetch (time : ℚ) (stored : Option StoredBucket) : Option Bucket :=
  (stored.filter (time < ·.expiresAt)).map StoredBucket.toBucket

variable (config : Config)

def refill (now : ℚ) (bucket : Option Bucket) : ℚ :=
  match bucket with
  | none => config.capacity
  | some bucket =>
    min config.capacity (bucket.tokens + (now - bucket.lastRefill) / 1000 * config.refillRate)

def tokenScript (now requested : ℚ) (bucket : Option Bucket) : RateLimit × Bucket :=
  let current := refill config now bucket
  if requested ≤ current then (⟨true, ⌊current - requested⌋, 0⟩, ⟨current - requested, now⟩)
  else (⟨false, 0, ⌈(requested - current) / config.refillRate * 1000⌉⟩, ⟨current, now⟩)

def MAX_BACKOFF_MS : ℕ := 60_000

def calculateExponentialBackoff (attempt : ℕ) : ℕ :=
  min (config.baseBackoff * 2 ^ min 10 attempt) MAX_BACKOFF_MS

end Tokens

section System

structure Job where
  url : String
  attemptsMade : ℕ

/-- Where a job awaits, with the time that it read first. -/
inductive Phase
  | idle
  | consuming (job : Job) (now : ℚ)
  | consumed (job : Job) (now : ℚ) (limit : RateLimit)
  | waiting (job : Job) (now due : ℚ)
  | sent

structure Grant where
  job : ℕ
  host : String
  clock : ℚ
  deriving DecidableEq

/-- A request, when it was sent, and the clock of the job that sent it. -/
structure Request extends Grant where
  time : ℚ
  deriving DecidableEq

structure World where
  buckets : String → Option StoredBucket := fun _ => none
  tasks : ℕ → Phase := fun _ => .idle
  grants : List Grant := []
  requests : List Request := []

inductive Move
  | start (i : ℕ) (job : Job) (time : ℚ)
  | resume (i : ℕ) (time : ℚ)

def Move.time : Move → ℚ
  | start _ _ time | resume _ time => time

variable (config : Config) (hostname : String → Option String) (w : World)

def World.setTask (i : ℕ) (phase : Phase) : World :=
  { w with tasks := Function.update w.tasks i phase }

/-- The script runs, by the time that the job read. -/
def World.consumeToken (i : ℕ) (host : String) (now time : ℚ) : RateLimit × World :=
  let (limit, bucket) := tokenScript config now 1 (fetch time (w.buckets host))
  (limit, { w with
    buckets := Function.update w.buckets host (some ⟨bucket, time + EXPIRY_MS⟩)
    grants := w.grants ++ if limit.allowed then [⟨i, host, now⟩] else [] })

def World.sendWebhook (i : ℕ) (host : String) (now time : ℚ) : World :=
  { w with requests := w.requests ++ [⟨⟨i, host, now⟩, time⟩] }

/-- A job that is refused waits, and then it sends like one that is not. -/
def World.resume (i : ℕ) (time : ℚ) : World :=
  match w.tasks i with
  | .idle | .sent => w
  | .consuming job now =>
    let (limit, next) := w.consumeToken config i (getDestinationDomain hostname job.url) now time
    next.setTask i (.consumed job now limit)
  | .consumed job now limit =>
    if limit.allowed then
      (w.sendWebhook i (getDestinationDomain hostname job.url) now time).setTask i .sent
    else
      let backoff := calculateExponentialBackoff config job.attemptsMade
      let delay := min (if limit.retryAfterMs = 0 then 1000 else limit.retryAfterMs) backoff
      w.setTask i (.waiting job now (time + delay))
  | .waiting job now due =>
    if due ≤ time then
      (w.sendWebhook i (getDestinationDomain hostname job.url) now time).setTask i .sent
    else w

def step (move : Move) (w : World) : World :=
  match move with
  | .start i job time =>
    match w.tasks i with
    | .idle => w.setTask i (.consuming job time)
    | _ => w
  | .resume i time => w.resume config hostname i time

def World.times (host : String) : List ℚ :=
  (w.requests.filter (·.host = host)).map Request.time

def World.clocks (host : String) : List ℚ :=
  (w.grants.filter (·.host = host)).map Grant.clock

/-- The script that a job runs finds a token, and no bucket that expired before it was full; a request
follows another of its host no sooner than their jobs read the clock. -/
structure Paced (w : World) (move : Move) : Prop where
  token : ∀ i time job now, move = .resume i time → w.tasks i = .consuming job now →
    1 ≤ refill config now (fetch time (w.buckets (getDestinationDomain hostname job.url)))
  kept : ∀ i time job now, move = .resume i time → w.tasks i = .consuming job now →
    ∀ bucket ∈ w.buckets (getDestinationDomain hostname job.url), bucket.expiresAt ≤ time →
      config.capacity ≤ bucket.tokens + (now - bucket.lastRefill) / 1000 * config.refillRate
  spaced : ∀ i time job now limit, move = .resume i time → w.tasks i = .consumed job now limit →
    ∀ earlier ∈ w.requests, earlier.host = getDestinationDomain hostname job.url →
      |now - earlier.clock| ≤ |time - earlier.time|

end System

section Bound

variable {config : Config} {hostname : String → Option String} {w : World} {i : ℕ} {host : String}
  {now time : ℚ} {job : Job} {phase : Phase} {move : Move}

/-- What a bucket has left pays for the grants of its host. -/
def Pays (config : Config) (bucket : Option StoredBucket) (clocks : List ℚ) : Prop :=
  match bucket with
  | none => clocks = []
  | some bucket =>
    Metered (config.capacity : ℚ) (config.refillRate / 1000) bucket.tokens bucket.lastRefill clocks

/-- No job was refused, and the requests that were sent had a token each. -/
structure Metes (config : Config) (hostname : String → Option String) (w : World) : Prop where
  pays : ∀ host, Pays config (w.buckets host) (w.clocks host)
  granted : (w.grants.map Grant.job).Nodup
  consumed : ∀ i job now limit, w.tasks i = .consumed job now limit →
    limit.allowed = true ∧ ⟨i, getDestinationDomain hostname job.url, now⟩ ∈ w.grants
  waiting : ∀ i job now due, w.tasks i ≠ .waiting job now due
  begun : ∀ grant ∈ w.grants, ∀ job now, w.tasks grant.job ≠ .idle ∧ w.tasks grant.job ≠ .consuming job now
  once : (w.requests.map fun request => request.job).Nodup
  sent : ∀ request ∈ w.requests, w.tasks request.job = .sent ∧ request.toGrant ∈ w.grants
  spaced : ∀ request ∈ w.requests, ∀ other ∈ w.requests, request.host = other.host →
    |request.clock - other.clock| ≤ |request.time - other.time|

lemma refill_some (now : ℚ) (bucket : Bucket) : refill config now (some bucket) =
    min (config.capacity : ℚ) (bucket.tokens + (config.refillRate : ℚ) / 1000 * (now - bucket.lastRefill)) := by
  have hcomm : (now - bucket.lastRefill) / 1000 * (config.refillRate : ℚ) =
      (config.refillRate : ℚ) / 1000 * (now - bucket.lastRefill) := by ring
  rw [refill, hcomm]

lemma Pays.serve {bucket : Option StoredBucket} {clocks : List ℚ} (h : Pays config bucket clocks)
    (htoken : 1 ≤ refill config now (fetch time bucket))
    (hkept : ∀ b ∈ bucket, b.expiresAt ≤ time →
      config.capacity ≤ b.tokens + (now - b.lastRefill) / 1000 * config.refillRate) (expiresAt : ℚ) :
    Pays config (some ⟨⟨refill config now (fetch time bucket) - 1, now⟩, expiresAt⟩) (clocks ++ [now]) := by
  have hrate : (0 : ℚ) ≤ (config.refillRate : ℚ) / 1000 := by positivity
  have hcapacity : refill config now (fetch time bucket) ≤ config.capacity := by
    cases fetch time bucket with
    | none => exact le_refl (config.capacity : ℚ)
    | some found =>
      rw [refill_some]
      exact min_le_left _ _
  have hserve {tokens last : ℚ} (hmetered : Metered (config.capacity : ℚ) (config.refillRate / 1000) tokens last clocks)
      (hrefill : refill config now (fetch time bucket) ≤
        tokens + (config.refillRate : ℚ) / 1000 * (now - last)) :
      Metered (config.capacity : ℚ) (config.refillRate / 1000)
        (refill config now (fetch time bucket) - 1) now (clocks ++ [now]) :=
    hmetered.serve true _ hrate (fun _ => sub_nonneg.mpr htoken) (by simpa using hcapacity)
      (by simpa using hrefill)
  change Metered (config.capacity : ℚ) (config.refillRate / 1000) _ now (clocks ++ [now])
  cases hbucket : bucket with
  | none =>
    rw [hbucket] at h
    obtain rfl : clocks = [] := h
    rw [← hbucket]
    apply hserve (metered_nil (Nat.cast_nonneg _) hrate config.capacity now)
    simpa using hcapacity
  | some stored =>
    rw [hbucket] at h
    rw [← hbucket]
    apply hserve h
    by_cases hlive : time < stored.expiresAt
    · have hfetch : fetch time bucket = some stored.toBucket := by simp [hbucket, fetch, hlive]
      rw [hfetch, refill_some]
      exact min_le_right _ _
    · have hfull := hkept stored hbucket (not_lt.mp hlive)
      apply hcapacity.trans (hfull.trans_eq _)
      ring

lemma Metes.start (h : Metes config hostname w) (hphase : w.tasks i = .idle) (job : Job) (now : ℚ) :
    Metes config hostname (w.setTask i (.consuming job now)) := by
  have htask {k : ℕ} (hk : k ≠ i) : (w.setTask i (.consuming job now)).tasks k = w.tasks k :=
    Function.update_of_ne hk ..
  have hself : (w.setTask i (.consuming job now)).tasks i = .consuming job now := Function.update_self ..
  constructor
  · exact h.pays
  · exact h.granted
  · intro k job' now' limit hk
    by_cases hne : k = i
    · subst hne
      rw [hself] at hk
      cases hk
    · exact h.consumed k job' now' limit (htask hne ▸ hk)
  · intro k job' now' due hk
    by_cases hne : k = i
    · subst hne
      rw [hself] at hk
      cases hk
    · exact h.waiting k job' now' due (htask hne ▸ hk)
  · intro grant hgrant
    have hne : grant.job ≠ i := by
      intro heq
      exact (h.begun grant hgrant job now).1 (heq ▸ hphase)
    rw [htask hne]
    exact h.begun grant hgrant
  · exact h.once
  · intro request hrequest
    obtain ⟨hsent, hgrant⟩ := h.sent request hrequest
    have hne : request.job ≠ i := by
      intro heq
      rw [heq, hphase] at hsent
      cases hsent
    exact ⟨(htask hne).trans hsent, hgrant⟩
  · exact h.spaced

lemma Metes.consume (h : Metes config hostname w) (hphase : w.tasks i = .consuming job now)
    (hpaced : Paced config hostname w (.resume i time)) :
    Metes config hostname (w.resume config hostname i time) := by
  set host := getDestinationDomain hostname job.url with hhost
  have htoken := hpaced.token i time job now rfl hphase
  have hpays := (h.pays host).serve htoken (hpaced.kept i time job now rfl hphase) (time + EXPIRY_MS)
  set tokens := refill config now (fetch time (w.buckets host)) with htokens
  have hnext : w.resume config hostname i time =
      { w with
        buckets := Function.update w.buckets host (some ⟨⟨tokens - 1, now⟩, time + EXPIRY_MS⟩)
        tasks := Function.update w.tasks i (.consumed job now ⟨true, ⌊tokens - 1⌋, 0⟩)
        grants := w.grants ++ [⟨i, host, now⟩] } := by
    simp only [World.resume, hphase, World.consumeToken, tokenScript, ← hhost, ← htokens]
    rw [if_pos htoken]
    rfl
  rw [hnext]
  have hgrant : ∀ grant ∈ w.grants, grant.job ≠ i := by
    intro grant hgrant heq
    exact (h.begun grant hgrant job now).2 (heq ▸ hphase)
  constructor
  · intro other
    by_cases hother : other = host
    · subst hother
      simpa [World.clocks] using hpays
    · simpa [World.clocks, Function.update_of_ne hother, Ne.symm hother] using h.pays other
  · simp only [List.map_append, List.map_cons, List.map_nil, List.nodup_append, List.mem_map]
    refine ⟨h.granted, List.nodup_singleton i, ?_⟩
    rintro _ ⟨grant, hmem, rfl⟩ b hb
    rw [List.mem_singleton.mp hb]
    exact hgrant grant hmem
  · intro k job' now' limit hk
    by_cases hne : k = i
    · subst hne
      simp only [Function.update_self] at hk
      obtain ⟨rfl, rfl, rfl⟩ := Phase.consumed.inj hk
      exact ⟨rfl, List.mem_append_right _ (List.mem_singleton_self _)⟩
    · simp only [Function.update_of_ne hne] at hk
      obtain ⟨hallowed, hmem⟩ := h.consumed k job' now' limit hk
      exact ⟨hallowed, List.mem_append_left _ hmem⟩
  · intro k job' now' due hk
    by_cases hne : k = i
    · subst hne
      simp only [Function.update_self] at hk
      cases hk
    · simp only [Function.update_of_ne hne] at hk
      exact h.waiting k job' now' due hk
  · intro grant hmem job' now'
    obtain hmem | hmem := List.mem_append.mp hmem
    · simp only [Function.update_of_ne (hgrant grant hmem)]
      exact h.begun grant hmem job' now'
    · obtain rfl := List.mem_singleton.mp hmem
      simp only [Function.update_self]
      exact ⟨fun heq => (nomatch heq), fun heq => (nomatch heq)⟩
  · exact h.once
  · intro request hrequest
    obtain ⟨hsent, hmem⟩ := h.sent request hrequest
    have hne : request.job ≠ i := hgrant request.toGrant hmem
    simp only [Function.update_of_ne hne]
    exact ⟨hsent, List.mem_append_left _ hmem⟩
  · exact h.spaced

lemma Metes.send (h : Metes config hostname w) {limit : RateLimit}
    (hphase : w.tasks i = .consumed job now limit) (hpaced : Paced config hostname w (.resume i time)) :
    Metes config hostname (w.resume config hostname i time) := by
  obtain ⟨hallowed, hgrant⟩ := h.consumed i job now limit hphase
  have hspaced := hpaced.spaced i time job now limit rfl hphase
  set host := getDestinationDomain hostname job.url with hhost
  have hnext : w.resume config hostname i time =
      { w with
        tasks := Function.update w.tasks i .sent
        requests := w.requests ++ [⟨⟨i, host, now⟩, time⟩] } := by
    simp only [World.resume, hphase, hallowed, if_true]
    rfl
  rw [hnext]
  have hnew : ∀ request ∈ w.requests, request.job ≠ i := by
    intro request hrequest heq
    have hsent := (h.sent request hrequest).1
    rw [heq, hphase] at hsent
    cases hsent
  constructor
  · exact h.pays
  · exact h.granted
  · intro k job' now' limit' hk
    by_cases hne : k = i
    · subst hne
      simp only [Function.update_self] at hk
      cases hk
    · simp only [Function.update_of_ne hne] at hk
      exact h.consumed k job' now' limit' hk
  · intro k job' now' due hk
    by_cases hne : k = i
    · subst hne
      simp only [Function.update_self] at hk
      cases hk
    · simp only [Function.update_of_ne hne] at hk
      exact h.waiting k job' now' due hk
  · intro grant hmem job' now'
    by_cases hne : grant.job = i
    · simp only [hne, Function.update_self]
      exact ⟨fun heq => (nomatch heq), fun heq => (nomatch heq)⟩
    · simp only [Function.update_of_ne hne]
      exact h.begun grant hmem job' now'
  · simp only [List.map_append, List.map_cons, List.map_nil, List.nodup_append, List.mem_map]
    refine ⟨h.once, List.nodup_singleton i, ?_⟩
    rintro _ ⟨request, hmem, rfl⟩ b hb
    rw [List.mem_singleton.mp hb]
    exact hnew request hmem
  · intro request hmem
    obtain hmem | hmem := List.mem_append.mp hmem
    · simp only [Function.update_of_ne (hnew request hmem)]
      exact h.sent request hmem
    · obtain rfl := List.mem_singleton.mp hmem
      simp only [Function.update_self]
      exact ⟨trivial, hgrant⟩
  · intro request hmem other hother heq
    obtain hmem | hmem := List.mem_append.mp hmem <;> obtain hother | hother := List.mem_append.mp hother
    · exact h.spaced request hmem other hother heq
    · obtain rfl := List.mem_singleton.mp hother
      rw [abs_sub_comm, abs_sub_comm request.time]
      exact hspaced request hmem heq
    · obtain rfl := List.mem_singleton.mp hmem
      exact hspaced other hother heq.symm
    · obtain rfl := List.mem_singleton.mp hmem
      obtain rfl := List.mem_singleton.mp hother
      simp

lemma Metes.step (h : Metes config hostname w) (hpaced : Paced config hostname w move) :
    Metes config hostname (step config hostname move w) := by
  cases move with
  | start i job time =>
    simp only [Throttle.step]
    cases hphase : w.tasks i with
    | idle => exact h.start hphase job time
    | _ => exact h
  | resume i time =>
    simp only [Throttle.step]
    cases hphase : w.tasks i with
    | idle | sent =>
      simp only [World.resume, hphase]
      exact h
    | consuming job now => exact h.consume hphase hpaced
    | consumed job now limit => exact h.send hphase hpaced
    | waiting job now due => exact absurd hphase (h.waiting i job now due)

/-- Requests that are no closer together than their grants come no faster. -/
lemma Metes.bounded (h : Metes config hostname w) (host : String) :
    Bounded (config.capacity : ℚ) (config.refillRate / 1000) (w.times host) := by
  intro start length hlength
  have hrate : (0 : ℚ) ≤ (config.refillRate : ℚ) / 1000 := by positivity
  set inside := w.requests.filter fun request =>
    request.host = host ∧ start ≤ request.time ∧ request.time ≤ start + length with hinside
  have hcount : (w.times host).countP (fun t => start ≤ t ∧ t ≤ start + length) = inside.length := by
    rw [World.times, List.countP_map, List.countP_filter, hinside, List.countP_eq_length_filter]
    congr 2
    funext request
    by_cases hhost : request.host = host <;> simp [hhost]
  have hmem {request : Request} : request ∈ inside ↔ request ∈ w.requests ∧
      request.host = host ∧ start ≤ request.time ∧ request.time ≤ start + length := by
    simp [hinside]
  have hbounded : Bounded (config.capacity : ℚ) (config.refillRate / 1000) (w.clocks host) := by
    have hpays := h.pays host
    cases hbucket : w.buckets host with
    | none =>
      rw [hbucket] at hpays
      have hnil : w.clocks host = [] := hpays
      rw [hnil]
      exact (paid_nil (Nat.cast_nonneg _) hrate 0).bounded
    | some bucket =>
      rw [hbucket] at hpays
      exact Metered.bounded hpays
  rw [hcount]
  obtain hnil | hsome := inside.toFinset.eq_empty_or_nonempty
  · rw [List.toFinset_eq_empty_iff] at hnil
    rw [hnil, List.length_nil, Nat.cast_zero]
    exact add_nonneg (Nat.cast_nonneg _) (mul_nonneg hrate hlength)
  obtain ⟨first, hfirst, hleast⟩ := inside.toFinset.exists_min_image (fun request => request.clock) hsome
  rw [List.mem_toFinset, hmem] at hfirst
  have hgrants : ∀ grant ∈ inside.map Request.toGrant, grant ∈ w.grants.filter fun grant =>
      grant.host = host ∧ first.clock ≤ grant.clock ∧ grant.clock ≤ first.clock + length := by
    intro grant hgrant
    obtain ⟨request, hrequest, rfl⟩ := List.mem_map.mp hgrant
    have hle := hleast request (List.mem_toFinset.mpr hrequest)
    rw [hmem] at hrequest
    obtain ⟨hrequest, hhost, hstart, hend⟩ := hrequest
    have hspaced := h.spaced request hrequest first hfirst.1 (hhost.trans hfirst.2.1.symm)
    have hclose : |request.time - first.time| ≤ length := by
      rw [abs_le]
      constructor <;> linarith [hfirst.2.2.1, hfirst.2.2.2]
    have hclocks := (le_abs_self _).trans (hspaced.trans hclose)
    simp only [List.mem_filter, decide_eq_true_eq]
    exact ⟨(h.sent request hrequest).2, hhost, hle, by linarith⟩
  have hnodup : (inside.map Request.toGrant).Nodup := by
    apply List.Nodup.of_map Grant.job
    rw [List.map_map]
    exact h.once.sublist (List.filter_sublist.map _)
  have hlength' := (List.subperm_of_subset hnodup hgrants).length_le
  have hclocks : (w.grants.filter fun grant => grant.host = host ∧ first.clock ≤ grant.clock ∧
      grant.clock ≤ first.clock + length).length = (w.clocks host).countP
        fun clock => first.clock ≤ clock ∧ clock ≤ first.clock + length := by
    rw [World.clocks, List.countP_map, List.countP_filter, List.countP_eq_length_filter]
    congr 2
    funext grant
    by_cases hhost : grant.host = host <;> simp [hhost, Bool.and_comm]
  rw [List.length_map, hclocks] at hlength'
  exact (Nat.cast_le.mpr hlength').trans (hbounded first.clock length hlength)

/-- The rate bound of a host: so long as a token is there for every job when its script runs. -/
theorem requests_bounded (config : Config) (hostname : String → Option String) (host : String)
    (moves : List Move) (hpaced : Along (step config hostname) (Paced config hostname) {} moves) :
    Bounded (config.capacity : ℚ) (config.refillRate / 1000)
      ((run (step config hostname) {} moves).times host) := by
  have hmetes : Metes config hostname (run (step config hostname) {} moves) := by
    apply run_invariant (fun _ _ h hmove => Metes.step h hmove) _ hpaced
    constructor <;> simp [Pays, World.clocks]
  exact hmetes.bounded host

lemma paced_start : Paced config hostname w (.start i job time) where
  token _ _ _ _ hmove := nomatch hmove
  kept _ _ _ _ hmove := nomatch hmove
  spaced _ _ _ _ _ hmove := nomatch hmove

def Config.default : Config := ⟨10, 5, 1_000, Nat.succ_pos 9, Nat.succ_pos 4⟩

/-- A shop's deliveries, one after another; each takes a token and goes. -/
theorem requests_bounded_sample : Bounded 10 (5 / 1000)
    ((run (step Config.default some) {} [.start 0 ⟨"shop", 0⟩ 0, .resume 0 1, .resume 0 2,
      .start 1 ⟨"shop", 0⟩ 2, .resume 1 3, .resume 1 4]).times "shop") := by
  apply requests_bounded Config.default some "shop"
  refine ⟨?_, ?_, ?_, ?_, ?_, ?_, trivial⟩
  · exact paced_start
  · constructor
    · rintro i time job now ⟨⟩ hphase
      cases hphase
      decide +kernel
    · rintro i time job now ⟨⟩ hphase
      cases hphase
      decide +kernel
    · rintro i time job now limit ⟨⟩ hphase
      cases hphase
  · constructor
    · rintro i time job now ⟨⟩ hphase
      cases hphase
    · rintro i time job now ⟨⟩ hphase
      cases hphase
    · rintro i time job now limit ⟨⟩ hphase
      cases hphase
      decide +kernel
  · exact paced_start
  · constructor
    · rintro i time job now ⟨⟩ hphase
      cases hphase
      decide +kernel
    · rintro i time job now ⟨⟩ hphase
      cases hphase
      decide +kernel
    · rintro i time job now limit ⟨⟩ hphase
      cases hphase
  · constructor
    · rintro i time job now ⟨⟩ hphase
      cases hphase
    · rintro i time job now ⟨⟩ hphase
      cases hphase
    · rintro i time job now limit ⟨⟩ hphase
      cases hphase
      decide +kernel

/-- Two of twelve deliveries are refused a token; both go two tenths of a second later. -/
theorem refused_sent :
    ¬ ∀ (config : Config) (hostname : String → Option String) (host : String) (moves : List Move),
      (moves.map Move.time).Pairwise (· ≤ ·) →
        Bounded (config.capacity : ℚ) (config.refillRate / 1000)
          ((run (step config hostname) {} moves).times host) := by
  intro h
  have hbounded := h Config.default some "shop"
    (((List.range 12).flatMap fun i => [.start i ⟨"shop", 0⟩ 0, .resume i 0, .resume i 0]) ++
      [.resume 10 200, .resume 11 200]) (by decide +kernel) 0 200 (by norm_num)
  revert hbounded
  decide +kernel

end Bound

end StellarTags.Webhooks.Throttle
