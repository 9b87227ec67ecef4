import StellarTags.Oracle.History

/-! The reported average is the exact one, rounded down. -/

namespace StellarTags.Oracle

open Library.Transactions Library.Integers Library.Runs Library.StepFunctions Soroban

lemma findBase_eq {before later : List Observation} {base : Observation} {target : ℕ}
    (hb : ∀ o ∈ before, o.timestamp ≤ target) (hbase : base.timestamp ≤ target)
    (hl : ∀ o ∈ later, target < o.timestamp) (found index : ℕ) :
    findBase target found index (before ++ base :: later) = index + before.length := by
  induction before generalizing found index with
  | nil =>
    have hstop : findBase target index (index + 1) later = index := by
      cases later with
      | nil => rfl
      | cons o later => simp [findBase, hl o (by simp)]
    simp [findBase, hbase.not_gt, hstop]
  | cons o before ih =>
    have ho : o.timestamp ≤ target := hb o (by simp)
    have hrest := ih (fun q hq => hb q (by simp [hq])) index (index + 1)
    simp only [List.cons_append, findBase, ho.not_gt, if_false, hrest, List.length_cons]
    omega

lemma cumulativeAt_eq (base : Observation) (target : ℕ) :
    cumulativeAt base target = base.cumulativePrice +
      castUnsigned base.price * BitVec.ofNat 256 (target - base.timestamp) := by
  by_cases h : base.timestamp = target
  · simp [cumulativeAt, h]
  · simp [cumulativeAt, h]

/-- Differences of wrapped totals are exact. -/
lemma total_sub_div {c : U256} {n m : ℤ} {w : ℕ} (hn : 0 ≤ n) (hm : 0 ≤ m) (hb : m < 2 ^ 256)
    (hw : w < 2 ^ 256) :
    ((((c + total (n + m)) - (c + total n)) / BitVec.ofNat 256 w).toNat : ℤ) = m / w := by
  have hd : c + total (n + m) - (c + total n) = total m := by
    rw [total_add hn hm, ← add_assoc, add_sub_cancel_left]
  have hnat : m.toNat < 2 ^ 256 := by omega
  rw [hd, BitVec.toNat_udiv, total, BitVec.toNat_ofNat, BitVec.toNat_ofNat,
    Nat.mod_eq_of_lt hnat, Nat.mod_eq_of_lt hw]
  push_cast
  rw [Int.toNat_of_nonneg hm]

section Average

variable {c : U256} {samples : List (ℕ × ℤ)} {pair : Pair} {s : State} {t : ℕ × ℤ}
  {windowSeconds : ℕ} {first base latest : Observation}

lemma twap_found (hpos : 0 < windowSeconds) (hmax : windowSeconds ≤ maxWindowSeconds)
    (hfirst : (s.observations pair).head? = some first)
    (hlatest : s.latestObservation pair = some latest)
    (hw : first.timestamp + windowSeconds ≤ latest.timestamp)
    (hbase : (s.observations pair)[findBase (latest.timestamp - windowSeconds) 0 0
      (s.observations pair)]? = some base) :
    twap pair windowSeconds s =
      checkedPrice (((latest.cumulativePrice - cumulativeAt base
        (latest.timestamp - windowSeconds)) / BitVec.ofNat 256 windowSeconds).toNat) s := by
  obtain ⟨rest, hrest⟩ := List.head?_eq_some_iff.mp hfirst
  have hlast : (first :: rest).getLast (List.cons_ne_nil first rest) = latest := by
    have hl := hlatest
    rw [State.latestObservation, hrest, List.getLast?_eq_some_getLast (by simp)] at hl
    exact Option.some.inj hl
  have hlong : ¬ latest.timestamp < windowSeconds := by omega
  have hlate : ¬ latest.timestamp - windowSeconds < first.timestamp := by omega
  rw [hrest] at hbase
  simp only [twap, Tx.reject, hpos.ne', hmax.not_gt, or_self, if_false, Tx.pure_bind, Tx.read_bind,
    hrest, hlast, hlong, hlate, hbase]

namespace Records

lemma last_sample (hr : Records c samples (s.observations pair)) (ht : samples.getLast? = some t) :
    ∃ latest, s.latestObservation pair = some latest ∧ latest.sample = t := by
  obtain ⟨dropped, hd⟩ := hr.kept
  cases hl : (s.observations pair).getLast? with
  | none =>
    have hempty := hr.opened (List.getLast?_eq_none_iff.mp hl)
    simp [hempty.1] at ht
  | some latest =>
    refine ⟨latest, hl, ?_⟩
    rw [← hd, List.getLast?_append, List.getLast?_map, hl] at ht
    simpa using ht

lemma timestamps_increase (hr : Records c samples (s.observations pair)) :
    (s.observations pair).Pairwise (·.timestamp < ·.timestamp) := by
  have hp := hr.ordered.sublist hr.kept.sublist
  rwa [List.pairwise_map] at hp

lemma first_le (hr : Records c samples (s.observations pair)) {o : Observation}
    (ho : o ∈ s.observations pair) :
    ∃ first, (s.observations pair).head? = some first ∧ first.timestamp ≤ o.timestamp := by
  have hp := hr.timestamps_increase
  cases hs : s.observations pair with
  | nil => simp [hs] at ho
  | cons first rest =>
    rw [hs] at hp ho
    refine ⟨first, rfl, ?_⟩
    rcases List.mem_cons.mp ho with rfl | ho
    · exact le_rfl
    · exact (List.rel_of_pairwise_cons hp ho).le

/-- The scan finds an observation from which the accumulator at the target is interpolated. -/
lemma base_found (hr : Records c samples (s.observations pair)) {target : ℕ}
    (h : ∃ o ∈ s.observations pair, o.timestamp ≤ target) :
    ∃ base, (s.observations pair)[findBase target 0 0 (s.observations pair)]? = some base ∧
      cumulativeAt base target = c + total (area 0 samples 0 target) := by
  obtain ⟨before, base, later, hsplit, hbase, hbefore, hlater⟩ :=
    exists_last_before hr.timestamps_increase h
  refine ⟨base, ?_, ?_⟩
  · rw [hsplit, findBase_eq (fun o ho => ((hbefore o ho).trans_le hbase).le) hbase hlater]
    simp
  · rw [cumulativeAt_eq]
    exact hr.sum_at hsplit hbase fun o ho => (hlater o ho).le

lemma average_fits (hr : Records c samples (s.observations pair)) {n m : ℕ}
    (hpos : 0 < windowSeconds) (hw : m - n = windowSeconds) :
    FitsI128 (area 0 samples n m / windowSeconds) := by
  have hbound := hr.area_le n m
  rw [hw, mul_comm] at hbound
  have hle : area 0 samples n m / windowSeconds ≤ maxPrice :=
    Int.ediv_le_of_le_mul (by exact_mod_cast hpos) hbound
  have hnonneg : 0 ≤ area 0 samples n m / windowSeconds :=
    Int.ediv_nonneg (hr.area_nonneg n m) (Int.natCast_nonneg windowSeconds)
  exact ⟨le_trans (by decide) hnonneg, hle.trans maxPrice_le⟩

lemma area_lt (hr : Records c samples (s.observations pair)) {n m : ℕ}
    (hw : m - n ≤ maxWindowSeconds) : area 0 samples n m < 2 ^ 256 := by
  have hc : (maxWindowSeconds : ℤ) * maxPrice < 2 ^ 256 := by decide
  have hp : ((m - n : ℕ) : ℤ) * maxPrice ≤ (maxWindowSeconds : ℤ) * maxPrice :=
    mul_le_mul_of_nonneg_right (by exact_mod_cast hw) (by decide)
  exact ((hr.area_le n m).trans hp).trans_lt hc

/-- Within the retained history the average is the area under the prices over the window. -/
lemma twap_eq (hr : Records c samples (s.observations pair)) (ht : samples.getLast? = some t)
    (hpos : 0 < windowSeconds) (hmax : windowSeconds ≤ maxWindowSeconds)
    (hretained : ∃ o ∈ s.observations pair, o.timestamp + windowSeconds ≤ t.1) :
    twap pair windowSeconds s =
      .ok (area 0 samples (t.1 - windowSeconds) t.1 / windowSeconds, s) := by
  obtain ⟨latest, hlatest, rfl⟩ := hr.last_sample ht
  obtain ⟨oldest, hmem, hold⟩ := hretained
  rw [Observation.sample_fst] at hold ⊢
  obtain ⟨first, hfirst, hfirst_le⟩ := hr.first_le hmem
  have hbefore : oldest.timestamp ≤ latest.timestamp - windowSeconds := by omega
  obtain ⟨base, hbase, htarget⟩ := hr.base_found ⟨oldest, hmem, hbefore⟩
  have hend := hr.sums latest (List.mem_of_getLast? hlatest)
  have hareas : area 0 samples 0 latest.timestamp =
      area 0 samples 0 (latest.timestamp - windowSeconds) +
        area 0 samples (latest.timestamp - windowSeconds) latest.timestamp :=
    area_split (Nat.zero_le _) (Nat.sub_le _ _)
  have hwindow : latest.timestamp - (latest.timestamp - windowSeconds) = windowSeconds := by omega
  have hword : windowSeconds < 2 ^ 256 := hmax.trans_lt (by decide)
  rw [twap_found hpos hmax hfirst hlatest (by omega) hbase, hend, htarget, hareas,
    total_sub_div (hr.area_nonneg _ _) (hr.area_nonneg _ _) (hr.area_lt (by omega)) hword]
  exact checkedPrice_ok.mpr ⟨hr.average_fits hpos hwindow, rfl, rfl⟩

end Records

lemma consult_eq (env : Env) (hlatest : s.latestObservation pair = some latest) :
    consult env pair windowSeconds s =
      if s.isCircuitBreakerTripped = true then .error (.err .circuitBreakerTripped)
      else if s.getMaxStaleness pair < env.timestamp - latest.timestamp then
        .error (.err .priceStale)
      else twap pair windowSeconds s := by
  have hl : (s.observations pair).getLast? = some latest := hlatest
  by_cases hb : s.isCircuitBreakerTripped = true
  · simp [consult, hb, Tx.reject]
  · by_cases hf : s.getMaxStaleness pair < env.timestamp - latest.timestamp
    · simp [consult, hb, hl, hf, Tx.reject, Tx.unwrap]
    · simp [consult, hb, hl, hf, Tx.reject, Tx.unwrap]

end Average

section Runs

/-- An oracle that holds nothing for the pair, or one observation whose accumulator may be any
word. -/
def State.seeded (pair : Pair) (seed : Option Observation) : State :=
  { pair := Function.update (fun _ => none) pair (seed.map fun o => [o]) }

def afterSeed (pair : Pair) (seed : Option Observation) (calls : List Call) : State :=
  run step (State.seeded pair seed) calls

/-- The pair's prices: the seed, and what was accepted since. -/
def pricesAlong (pair : Pair) (seed : Option Observation) (calls : List Call) : List (ℕ × ℤ) :=
  seed.toList.map Observation.sample ++ acceptedAlong pair (State.seeded pair seed) calls

lemma records_seeded (pair : Pair) (seed : Option Observation)
    (hseed : ∀ o ∈ seed, 0 < o.price ∧ o.price ≤ maxPrice) :
    ∃ c, Records c (seed.toList.map Observation.sample)
      ((State.seeded pair seed).observations pair) := by
  cases seed with
  | none => exact ⟨0, by simpa [State.seeded, State.observations] using Records.start⟩
  | some o =>
    obtain ⟨hp, hm⟩ := hseed o rfl
    refine ⟨o.cumulativePrice, ?_⟩
    simpa [State.seeded, State.observations] using Records.seed o hp hm

/-- A whole-second area over a window, as the average of the curve. -/
lemma floor_average (samples : List (ℕ × ℤ)) {last windowSeconds : ℕ}
    (h : windowSeconds ≤ last) :
    ⌊(∫ x in ((last : ℝ) - windowSeconds)..last, curve 0 samples x) / windowSeconds⌋ =
      area 0 samples (last - windowSeconds) last / windowSeconds := by
  have hi := integral_curve 0 samples (Nat.sub_le last windowSeconds)
  rw [Nat.cast_sub h] at hi
  rw [hi, Int.floor_div_natCast, Int.floor_intCast]

/-- Over any window within the retained history, the oracle reports the exact average of the step
function of all accepted prices, rounded down, however often the history was pruned and wherever
the accumulators started. -/
theorem average_exact (pair : Pair) (seed : Option Observation)
    (hseed : ∀ o ∈ seed, 0 < o.price ∧ o.price ≤ maxPrice) (calls : List Call) (last : ℕ × ℤ)
    (hlast : (pricesAlong pair seed calls).getLast? = some last) (windowSeconds : ℕ)
    (hpos : 0 < windowSeconds) (hmax : windowSeconds ≤ maxWindowSeconds)
    (hretained : ∃ o ∈ (afterSeed pair seed calls).observations pair,
      o.timestamp + windowSeconds ≤ last.1) :
    let s := afterSeed pair seed calls
    let price := curve 0 (pricesAlong pair seed calls)
    let average := ⌊(∫ x in ((last.1 : ℝ) - windowSeconds)..last.1, price x) / windowSeconds⌋
    twap pair windowSeconds s = .ok (average, s) ∧
      ∀ env, consult env pair windowSeconds s =
        if s.isCircuitBreakerTripped = true then .error (.err .circuitBreakerTripped)
        else if s.getMaxStaleness pair < env.timestamp - last.1 then .error (.err .priceStale)
        else .ok (average, s) := by
  intro s price average
  obtain ⟨c, hstart⟩ := records_seeded pair seed hseed
  have hr : Records c (pricesAlong pair seed calls) (s.observations pair) :=
    run_records calls hstart
  obtain ⟨latest, hlatest, rfl⟩ := hr.last_sample hlast
  have hle : windowSeconds ≤ latest.sample.1 := by
    obtain ⟨o, -, ho⟩ := hretained
    exact (Nat.le_add_left _ _).trans ho
  have htwap : twap pair windowSeconds s = .ok (average, s) := by
    rw [hr.twap_eq hlast hpos hmax hretained, ← floor_average _ hle]
  refine ⟨htwap, fun env => ?_⟩
  rw [consult_eq env hlatest, htwap]
  rfl

end Runs

section Examples

/-- The accumulator starts 5000 below where it wraps. -/
def nearWrap : Observation := ⟨1000, 100, BitVec.ofNat 256 (2 ^ 256 - 5001)⟩

def wrapping : List Call :=
  [⟨adminEnv 1000, .initialise ⟨3⟩⟩, ⟨adminEnv 1000, .setMaxSingleUpdateDevBps 10000⟩,
    ⟨adminEnv 1100, .observe samplePair 200 1100⟩]

theorem average_exact_wrapping :
    let s := afterSeed samplePair (some nearWrap) wrapping
    let price := curve 0 (pricesAlong samplePair (some nearWrap) wrapping)
    let average := ⌊(∫ x in (((1100 : ℕ) : ℝ) - (50 : ℕ))..(1100 : ℕ), price x) / (50 : ℕ)⌋
    twap samplePair 50 s = .ok (average, s) ∧
      ∀ env, consult env samplePair 50 s =
        if s.isCircuitBreakerTripped = true then .error (.err .circuitBreakerTripped)
        else if s.getMaxStaleness samplePair < env.timestamp - 1100 then .error (.err .priceStale)
        else .ok (average, s) :=
  average_exact samplePair (some nearWrap) (by decide) wrapping (1100, 200) (by decide +kernel) 50
    (by decide) (by decide) (by decide +kernel)

example : twap samplePair 50 (afterSeed samplePair (some nearWrap) wrapping) =
    .ok (100, afterSeed samplePair (some nearWrap) wrapping) := rfl

end Examples

end StellarTags.Oracle
