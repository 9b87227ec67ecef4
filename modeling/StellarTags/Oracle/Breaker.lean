import StellarTags.Oracle.Logarithms

/-! When an observation enters the history and when it trips the breaker. -/

namespace StellarTags.Oracle

open Library.Transactions Library.Integers Library.Runs Soroban

/-- The stored logarithms go with the observations, and grow slowly enough to stay small. -/
structure Logged (observations : List Observation) (logs : List LogObservation) : Prop where
  timestamps : logs.map LogObservation.timestamp = observations.map Observation.timestamp
  bounded : ∀ log ∈ logs, 0 ≤ log.cumulativeLogPrice ∧
    log.cumulativeLogPrice ≤ logBound * log.timestamp

/-- What every reachable state keeps: a checked limit, checked prices and usable logarithms. -/
structure Sound (s : State) : Prop where
  limit : s.maxSingleUpdateDevBps ≤ 10000
  priced : ∀ pair, ∀ o ∈ s.observations pair, 0 < o.price ∧ o.price ≤ maxPrice
  logged : ∀ pair, s.observations pair ≠ [] →
    ∃ logs, s.cumulativeLogs pair = some logs ∧ Logged (s.observations pair) logs

namespace Logged

variable {observations : List Observation} {logs : List LogObservation} {o : Observation}
  {log : LogObservation}

lemma length_eq (h : Logged observations logs) : logs.length = observations.length := by
  simpa using congrArg List.length h.timestamps

lemma append (h : Logged observations logs) (hs : log.timestamp = o.timestamp)
    (hp : 0 ≤ log.cumulativeLogPrice) (hb : log.cumulativeLogPrice ≤ logBound * log.timestamp) :
    Logged (observations ++ [o]) (logs ++ [log]) := by
  refine ⟨by simp [h.timestamps, hs], fun l hl => ?_⟩
  rcases List.mem_append.mp hl with hl | hl
  · exact h.bounded l hl
  · obtain rfl := List.mem_singleton.mp hl
    exact ⟨hp, hb⟩

lemma pruned (h : Logged observations logs) (full : Bool) :
    Logged (prune full observations) (prune full logs) := by
  cases full with
  | false => exact h
  | true =>
    refine ⟨?_, fun l hl => h.bounded l (List.mem_of_mem_drop hl)⟩
    simp only [prune, if_true, List.map_drop, h.timestamps]

lemma last (h : Logged observations logs) (ho : observations.getLast? = some o) :
    0 ≤ lastLog logs ∧ lastLog logs ≤ logBound * o.timestamp := by
  have ht := congrArg List.getLast? h.timestamps
  rw [List.getLast?_map, List.getLast?_map, ho] at ht
  obtain ⟨log, hlog, hstamp⟩ := Option.map_eq_some_iff.mp ht
  have hb := h.bounded log (List.mem_of_getLast? hlog)
  rw [hstamp] at hb
  simpa [lastLog, hlog] using hb

end Logged

section Soundness

variable {pair : Pair} {s t : State} {env : Env} {price : ℤ} {timestamp n : ℕ}
  {previous : Observation} {logs : List LogObservation}

lemma readCumulativeLogs_nil (h : readCumulativeLogs pair [] s = .ok (logs, t)) : logs = [] := by
  simp only [readCumulativeLogs, Tx.read_bind] at h
  cases hstored : (s.cumulativeLogs pair).filter
      (fun logs => decide (logs.length = ([] : List Observation).length)) with
  | none =>
    rw [hstored] at h
    exact (Tx.pure_ok.mp h).1
  | some stored =>
    rw [hstored] at h
    obtain ⟨-, hlength⟩ := Option.filter_eq_some_iff.mp hstored
    obtain ⟨rfl, -⟩ := Tx.pure_ok.mp h
    simpa using hlength

lemma readCumulativeLogs_stored (hs : s.cumulativeLogs pair = some logs)
    (h : Logged (s.observations pair) logs) :
    readCumulativeLogs pair (s.observations pair) s = .ok (logs, s) := by
  have hstored : (s.cumulativeLogs pair).filter
      (fun logs => decide (logs.length = (s.observations pair).length)) = some logs := by
    simp [hs, h.length_eq]
  simp only [readCumulativeLogs, Tx.read_bind, hstored]
  rfl

lemma mem_prune {α : Type} {full : Bool} {a : α} {as : List α} (h : a ∈ prune full as) :
    a ∈ as := by
  cases full with
  | false => exact h
  | true => exact List.mem_of_mem_drop h

lemma accumulator_bounded {log cumulative : ℤ} {before now : ℕ} (hn : 0 ≤ log)
    (hl : log ≤ logBound) (hc : 0 ≤ cumulative) (hb : cumulative ≤ logBound * before)
    (ht : before ≤ now) : 0 ≤ log * (now - before : ℕ) ∧
      0 ≤ cumulative + log * (now - before : ℕ) ∧
        cumulative + log * (now - before : ℕ) ≤ logBound * now := by
  have hincrement : 0 ≤ log * (now - before : ℕ) := mul_nonneg hn (Int.natCast_nonneg _)
  have hle : log * (now - before : ℕ) ≤ logBound * (now - before : ℕ) :=
    mul_le_mul_of_nonneg_right hl (Int.natCast_nonneg _)
  refine ⟨hincrement, add_nonneg hc hincrement, ?_⟩
  calc cumulative + log * (now - before : ℕ)
      ≤ logBound * before + logBound * (now - before : ℕ) := add_le_add hb hle
    _ = logBound * now := by
        rw [Nat.cast_sub ht]
        ring

lemma nextLog_bounded {cumulative next : ℤ} (hp : 0 < previous.price)
    (hm : previous.price ≤ maxPrice) (hc : 0 ≤ cumulative)
    (hb : cumulative ≤ logBound * previous.timestamp) (ht : previous.timestamp ≤ timestamp)
    (h : nextLog cumulative previous timestamp s = .ok (next, t)) :
    0 ≤ next ∧ next ≤ logBound * timestamp := by
  obtain ⟨log, hlog, -, -, rfl, -⟩ := nextLog_ok.mp h
  obtain ⟨log', hlog', hnonneg, hle⟩ := log2Q64_ok (s := s) hp (hm.trans maxPrice_le)
  obtain rfl : log' = log := by
    rw [hlog] at hlog'
    cases hlog'
    rfl
  exact (accumulator_bounded hnonneg hle hc hb ht).2

lemma Sound.record (hs : Sound s) {observations : List Observation}
    (hp : ∀ o ∈ observations, 0 < o.price ∧ o.price ≤ maxPrice)
    (hl : Logged observations logs) : Sound (s.record pair observations logs) := by
  refine ⟨hs.limit, fun other o ho => ?_, fun other hne => ?_⟩
  · by_cases he : other = pair
    · subst he
      rw [observations_record] at ho
      exact hp o (mem_prune ho)
    · rw [observations_record_ne _ _ he] at ho
      exact hs.priced other o ho
  · by_cases he : other = pair
    · subst he
      rw [observations_record]
      exact ⟨_, by simp [State.record], hl.pruned _⟩
    · rw [observations_record_ne _ _ he] at hne ⊢
      obtain ⟨stored, hstored, hlogged⟩ := hs.logged other hne
      exact ⟨stored, by simpa [State.record, he] using hstored, hlogged⟩

lemma observed_sound (hs : Sound s) (ha : Admissible s env price timestamp)
    (hlogs : readCumulativeLogs pair (s.observations pair) s = .ok (logs, s))
    (h : Observed pair price timestamp s logs n t) : Sound t := by
  cases h with
  | first empty =>
    rw [empty] at hlogs
    obtain rfl := readCumulativeLogs_nil hlogs
    refine hs.record (by simpa using ⟨ha.positive, ha.bounded⟩) ⟨by simp, ?_⟩
    simp [logBound, q64]
  | tripped previous last later beyond => exact ⟨hs.limit, hs.priced, hs.logged⟩
  | appended previous last later within log next =>
    have hmem := List.mem_of_getLast? last
    obtain ⟨stored, hstored, hlogged⟩ := hs.logged pair (List.ne_nil_of_mem hmem)
    obtain rfl : stored = logs := by
      rw [readCumulativeLogs_stored hstored hlogged] at hlogs
      cases hlogs
      rfl
    obtain ⟨hp, hm⟩ := hs.priced pair previous hmem
    obtain ⟨hc, hb⟩ := hlogged.last last
    obtain ⟨hnonneg, hle⟩ := nextLog_bounded hp hm hc hb (by omega) next
    refine hs.record (fun o ho => ?_) (hlogged.append rfl hnonneg hle)
    rcases List.mem_append.mp ho with ho | ho
    · exact hs.priced pair o ho
    · obtain rfl := List.mem_singleton.mp ho
      exact ⟨ha.positive, ha.bounded⟩

lemma Sound.unrecorded (hs : Sound s) (h : Unrecorded s t) : Sound t := by
  refine ⟨h.limit hs.limit, fun pair o ho => ?_, fun pair hne => ?_⟩
  · rw [h.observations] at ho
    exact hs.priced pair o ho
  · rw [h.observations] at hne ⊢
    rw [h.cumulativeLogs]
    exact hs.logged pair hne

lemma step_sound (call : Call) (hs : Sound s) : Sound (step call s) := by
  obtain ⟨env, op⟩ := call
  rcases step_cases ⟨env, op⟩ s with he | ⟨a, hok⟩
  · rwa [he]
  · by_cases hop : ∀ pair price timestamp, op ≠ .observe pair price timestamp
    · exact hs.unrecorded (op.invoke_unrecorded env hop _ _ _ hok)
    · push Not at hop
      obtain ⟨pair, price, timestamp, rfl⟩ := hop
      obtain ⟨n, hok, -⟩ := answering_ok.mp hok
      obtain ⟨ha, logs, hlogs, ho⟩ := observe_ok hok
      exact observed_sound hs ha hlogs ho

lemma after_sound (calls : List Call) : Sound (after calls) := by
  have hinit : Sound {} := ⟨by decide, by simp [State.observations], by simp [State.observations]⟩
  exact run_invariant (fun s call hs _ => step_sound call hs) hinit
    (along_of_forall step (fun _ _ => trivial) _ calls)

end Soundness

section Exactness

variable {pair : Pair} {s : State} {env : Env} {price : ℤ} {timestamp : ℕ}
  {previous : Observation} {logs : List LogObservation}

/-- The segment that ends at `timestamp` has a logarithm the accumulator can take. -/
def LogFits (s : State) (pair : Pair) (previous : Observation) (timestamp : ℕ) : Prop :=
  ∃ log next, log2Q64 previous.price s = .ok (log, s) ∧
    FitsI128 (log * (timestamp - previous.timestamp : ℕ)) ∧
    next = lastLog ((s.cumulativeLogs pair).getD []) +
      log * (timestamp - previous.timestamp : ℕ) ∧ FitsI128 next

/-- An admissible observation that comes late enough after the last one. -/
structure Timely (s : State) (env : Env) (pair : Pair) (price : ℤ) (timestamp : ℕ)
    (previous : Observation) : Prop extends Admissible s env price timestamp where
  last : s.latestObservation pair = some previous
  later : previous.timestamp + minIntervalSeconds ≤ timestamp

lemma price_differences {p q : ℤ} (hp : 0 < p) (hp' : p ≤ maxPrice) (hq : 0 < q)
    (hq' : q ≤ maxPrice) : FitsI128 (p - q) ∧ FitsI128 (|p - q| * bpsDivisor) := by
  have ha : |p - q| ≤ maxPrice := abs_sub_le_of_nonneg_of_le hp.le hp' hq.le hq'
  have hn := abs_nonneg (p - q)
  have hc : maxPrice * bpsDivisor ≤ maxI128 := by decide
  have hm : |p - q| * bpsDivisor ≤ maxPrice * bpsDivisor :=
    mul_le_mul_of_nonneg_right ha (by decide)
  have hm' : 0 ≤ |p - q| * bpsDivisor := mul_nonneg hn (by decide)
  have hle := abs_le.mp ha
  have hmax := maxPrice_le
  have hmin : minI128 ≤ -maxPrice := by decide
  exact ⟨⟨by omega, by omega⟩, ⟨le_trans (by decide) hm', hm.trans hc⟩⟩

/-- Rounded down, the deviation exceeds the limit when it is a whole basis point beyond it. -/
lemma deviationBps_lt_iff {q p : ℤ} (hq : 0 < q) (bps : ℤ) :
    bps < deviationBps q p ↔ (bps + 1) * q ≤ |p - q| * 10000 := by
  have hn : 0 ≤ |p - q| * bpsDivisor := mul_nonneg (abs_nonneg _) (by decide)
  rw [deviationBps, Int.tdiv_eq_ediv_of_nonneg hn]
  exact (Int.le_ediv_iff_mul_le hq)

lemma observe_timely (hs : Sound s) (h : Timely s env pair price timestamp previous) :
    ∃ logs, s.cumulativeLogs pair = some logs ∧ observe env pair price timestamp s =
      if (s.maxSingleUpdateDevBps : ℤ) < deviationBps previous.price price then
        .ok (s.observationCount pair,
          s.trip previous.price price (deviationBps previous.price price))
      else (nextLog (lastLog logs) previous timestamp >>= fun log => store pair
        (s.observations pair ++ [⟨timestamp, price, previous.advance timestamp⟩])
        (logs ++ [⟨timestamp, log⟩])) s := by
  have hlast : (s.observations pair).getLast? = some previous := h.last
  have hmem := List.mem_of_getLast? hlast
  obtain ⟨logs, hlogs, hlogged⟩ := hs.logged pair (List.ne_nil_of_mem hmem)
  obtain ⟨hp, hm⟩ := hs.priced pair previous hmem
  obtain ⟨hd, hscaled⟩ := price_differences h.positive h.bounded hp hm
  refine ⟨logs, hlogs, ?_⟩
  have hprice : ¬ (price ≤ 0 ∨ maxPrice < price) := by
    have hpos := h.positive
    have hbounded := h.bounded
    omega
  have hpast : ¬ env.timestamp < timestamp := h.past.not_gt
  have hafter : ¬ timestamp ≤ previous.timestamp := by
    have hlater := h.later
    simp only [minIntervalSeconds] at hlater
    omega
  have hspaced : ¬ timestamp - previous.timestamp < minIntervalSeconds := by
    have hlater := h.later
    omega
  have hdeviation : ∀ {α : Type} (f : ℤ → Tx State Error α),
      (checkedI128 (price - previous.price) >>= f) s = f (price - previous.price) s :=
    fun f => Tx.bind_of_ok (checkedI128_ok.mpr ⟨hd, rfl, rfl⟩)
  have hbps : ∀ {α : Type} (f : ℤ → Tx State Error α),
      (checkedPrice (|price - previous.price| * bpsDivisor) >>= f) s =
        f (|price - previous.price| * bpsDivisor) s :=
    fun f => Tx.bind_of_ok (checkedPrice_ok.mpr ⟨hscaled, rfl, rfl⟩)
  have hnonempty : logs ≠ [] := by
    rintro rfl
    have hlength := hlogged.length_eq
    rw [List.length_nil] at hlength
    exact List.ne_nil_of_mem hmem (List.length_eq_zero_iff.mp hlength.symm)
  rw [observe, Tx.bind_of_ok (requireAdmin_ok.mpr ⟨h.admin, rfl⟩)]
  simp only [Tx.read_bind, Tx.reject, h.untripped, hprice, hpast, if_false, Bool.false_eq_true,
    Tx.pure_bind]
  rw [Tx.bind_of_ok (readCumulativeLogs_stored hlogs hlogged)]
  simp only [hlast, hafter, hspaced, if_false, Tx.pure_bind, Tx.read_bind, hdeviation, hbps,
    Tx.demand, hp.ne', ne_eq, not_false_eq_true, if_true, deviationBps]
  by_cases hbeyond : (s.maxSingleUpdateDevBps : ℤ) <
      (|price - previous.price| * bpsDivisor).tdiv previous.price
  · simp only [hbeyond, if_true]
    rfl
  · simp only [hbeyond, if_false, hnonempty, not_false_eq_true, if_true]
    rfl

lemma nextLog_fits (hs : s.cumulativeLogs pair = some logs) :
    LogFits s pair previous timestamp ↔
      ∃ log, nextLog (lastLog logs) previous timestamp s = .ok (log, s) := by
  simp only [LogFits, nextLog_ok, hs, Option.getD_some]
  constructor
  · rintro ⟨log, next, hlog, hincrement, rfl, hsum⟩
    exact ⟨_, log, hlog, hincrement, hsum, rfl, trivial⟩
  · rintro ⟨next, log, hlog, hincrement, hsum, rfl, -⟩
    exact ⟨log, _, hlog, hincrement, rfl, hsum⟩

/-- For some 2 * 10 ^ 9 years the logarithms fit. -/
lemma logFits_of_early (hs : Sound s) (h : Timely s env pair price timestamp previous)
    (hearly : timestamp < 2 ^ 56) : LogFits s pair previous timestamp := by
  have hmem := List.mem_of_getLast? h.last
  obtain ⟨logs, hlogs, hlogged⟩ := hs.logged pair (List.ne_nil_of_mem hmem)
  obtain ⟨hp, hm⟩ := hs.priced pair previous hmem
  obtain ⟨log, hlog, hnonneg, hle⟩ := log2Q64_ok (s := s) hp (hm.trans maxPrice_le)
  obtain ⟨hc, hb⟩ := hlogged.last h.last
  have hlater : previous.timestamp ≤ timestamp := (Nat.le_add_right _ _).trans h.later
  obtain ⟨hincrement, hsum, hbound⟩ := accumulator_bounded hnonneg hle hc hb hlater
  have htime : logBound * timestamp ≤ maxI128 := by
    simp only [logBound, q64, maxI128]
    omega
  have hmin : minI128 ≤ 0 := by decide
  refine ⟨log, _, hlog, ⟨hmin.trans hincrement, by omega⟩, rfl, ?_⟩
  rw [hlogs]
  exact ⟨hmin.trans hsum, hbound.trans htime⟩

/-- The observation is now the last one of the history. -/
def Entered (s : State) (pair : Pair) (price : ℤ) (timestamp : ℕ) : Prop :=
  ∃ cumulativePrice, s.latestObservation pair = some ⟨timestamp, price, cumulativePrice⟩

/-- An observation enters the history exactly when it is within the limit, and beyond it trips the
breaker. -/
structure ExactlyBroken (s t : State) (pair : Pair) (price : ℤ) (timestamp : ℕ)
    (within : Prop) : Prop where
  enters : Entered t pair price timestamp ↔ within
  trips : ¬ within → t.observations pair = s.observations pair ∧ t.isCircuitBreakerTripped = true

lemma latest_record (o : Observation) (observations : List Observation)
    (logs : List LogObservation) :
    (s.record pair (observations ++ [o]) logs).latestObservation pair = some o := by
  rw [State.latestObservation, observations_record]
  cases hfull : State.isFull (observations ++ [o]) with
  | false => simp [prune]
  | true =>
    have hlength := of_decide_eq_true hfull
    cases observations with
    | nil => simp [maxObservations] at hlength
    | cons first rest => simp [prune]

lemma not_entered (h : Timely s env pair price timestamp previous) :
    ¬ Entered s pair price timestamp := by
  rintro ⟨cumulativePrice, hlatest⟩
  have hlater := h.later
  rw [h.last] at hlatest
  simp only [Option.some.injEq] at hlatest
  simp only [hlatest, minIntervalSeconds] at hlater
  omega

/-- The three outcomes of a timely observation. -/
lemma step_timely (hs : Sound s) (h : Timely s env pair price timestamp previous) :
    let t := step ⟨env, .observe pair price timestamp⟩ s
    ((s.maxSingleUpdateDevBps : ℤ) < deviationBps previous.price price ∧
        t = s.trip previous.price price (deviationBps previous.price price)) ∨
      (¬ (s.maxSingleUpdateDevBps : ℤ) < deviationBps previous.price price ∧
        ((LogFits s pair previous timestamp ∧ Entered t pair price timestamp) ∨
          (¬ LogFits s pair previous timestamp ∧ t = s))) := by
  intro t
  obtain ⟨logs, hlogs, hobserve⟩ := observe_timely hs h
  by_cases hbeyond : (s.maxSingleUpdateDevBps : ℤ) < deviationBps previous.price price
  · rw [if_pos hbeyond] at hobserve
    exact .inl ⟨hbeyond, Tx.commit_ok (answering_ok.mpr ⟨_, hobserve, rfl⟩)⟩
  · rw [if_neg hbeyond] at hobserve
    refine .inr ⟨hbeyond, ?_⟩
    by_cases hfits : LogFits s pair previous timestamp
    · obtain ⟨log, hlog⟩ := (nextLog_fits hlogs).mp hfits
      rw [Tx.bind_of_ok hlog] at hobserve
      have ht : t = s.record pair
          (s.observations pair ++ [⟨timestamp, price, previous.advance timestamp⟩])
          (logs ++ [⟨timestamp, log⟩]) :=
        Tx.commit_ok (answering_ok.mpr ⟨_, hobserve, rfl⟩)
      refine .inl ⟨hfits, previous.advance timestamp, ?_⟩
      rw [ht, latest_record]
    · refine .inr ⟨hfits, Tx.commit_of_fails (Bool.eq_false_iff.mpr fun hok => ?_)⟩
      obtain ⟨a, ha⟩ := Tx.succeeds_iff.mp hok
      obtain ⟨n, hn, -⟩ := answering_ok.mp ha
      rw [hobserve, Tx.bind_ok] at hn
      obtain ⟨log, u, hlog, -⟩ := hn
      obtain rfl := nextLog_reads _ _ _ _ _ _ hlog
      exact hfits ((nextLog_fits hlogs).mpr ⟨log, hlog⟩)

/-- A timely observation meets the limit exactly, compared without rounding, when it is within the
limit and its logarithm fits, or a whole basis point beyond the limit. Before 2 ^ 56 seconds the
logarithm always fits. -/
theorem breaker_exact (calls : List Call) (env : Env) (pair : Pair) (price : ℤ) (timestamp : ℕ)
    (previous : Observation) (h : Timely (after calls) env pair price timestamp previous) :
    let s := after calls
    let t := step ⟨env, .observe pair price timestamp⟩ s
    let bps : ℤ := s.maxSingleUpdateDevBps
    let within := |price - previous.price| * 10000 ≤ bps * previous.price
    (ExactlyBroken s t pair price timestamp within ↔
      (within ∧ LogFits s pair previous timestamp) ∨
        (bps + 1) * previous.price ≤ |price - previous.price| * 10000) ∧
      (timestamp < 2 ^ 56 → LogFits s pair previous timestamp) := by
  intro s t bps within
  have hs : Sound s := after_sound calls
  obtain ⟨hq, -⟩ := hs.priced pair previous (List.mem_of_getLast? h.last)
  refine ⟨?_, logFits_of_early hs h⟩
  have hgap : bps * previous.price < (bps + 1) * previous.price := by
    rw [add_one_mul]
    omega
  have hbeyond := deviationBps_lt_iff (p := price) hq bps
  rcases step_timely hs h with ⟨hdev, ht⟩ | ⟨hdev, ⟨hfits, hentered⟩ | ⟨hfits, ht⟩⟩
  · change t = _ at ht
    have hfar := hbeyond.mp hdev
    have hout : ¬ within := by
      simp only [within]
      omega
    refine ⟨fun _ => .inr hfar, fun _ => ⟨⟨fun he => ?_, fun hw => absurd hw hout⟩, fun _ => ?_⟩⟩
    · rw [Entered, ht] at he
      exact absurd (show Entered s pair price timestamp from he) (not_entered h)
    · rw [ht]
      exact ⟨rfl, rfl⟩
  · have hnear : ¬ (bps + 1) * previous.price ≤ |price - previous.price| * 10000 :=
      fun hfar => hdev (hbeyond.mpr hfar)
    refine ⟨fun he => .inl ⟨he.enters.mp hentered, hfits⟩, fun hc => ?_⟩
    obtain ⟨hw, -⟩ := hc.resolve_right hnear
    exact ⟨⟨fun _ => hw, fun _ => hentered⟩, fun hout => absurd hw hout⟩
  · change t = s at ht
    have hnear : ¬ (bps + 1) * previous.price ≤ |price - previous.price| * 10000 :=
      fun hfar => hdev (hbeyond.mpr hfar)
    have hstill : ¬ Entered t pair price timestamp := by
      rw [ht]
      exact not_entered h
    refine ⟨fun he => ?_, fun hc => absurd (hc.resolve_right hnear).2 hfits⟩
    have hout : ¬ within := fun hw => hstill (he.enters.mpr hw)
    have htripped := (he.trips hout).2
    rw [ht, h.untripped] at htripped
    cases htripped

end Exactness

section Examples

def opened (price : ℤ) : List Call :=
  [⟨adminEnv 1000, .initialise ⟨3⟩⟩, ⟨adminEnv 1000, .observe samplePair price 1000⟩]

lemma opened_timely (price : ℤ) (q : ℤ) (hq : 0 < q) (hm : q ≤ maxPrice)
    (hlast : (after (opened price)).latestObservation samplePair = some ⟨1000, price, 0⟩)
    (hadmin : (after (opened price)).admin = some ⟨3⟩)
    (huntripped : (after (opened price)).isCircuitBreakerTripped = false) :
    Timely (after (opened price)) (adminEnv 1060) samplePair q 1060 ⟨1000, price, 0⟩ :=
  ⟨⟨⟨⟨3⟩, hadmin, rfl⟩, huntripped, hq, hm, le_rfl⟩, hlast, (by decide : 1000 + 60 ≤ 1060)⟩

theorem breaker_exact_doubled :
    let s := after (opened 100)
    let t := step ⟨adminEnv 1060, .observe samplePair 200 1060⟩ s
    let bps : ℤ := s.maxSingleUpdateDevBps
    let within := |200 - 100| * 10000 ≤ bps * 100
    (ExactlyBroken s t samplePair 200 1060 within ↔
      (within ∧ LogFits s samplePair ⟨1000, 100, 0⟩ 1060) ∨
        (bps + 1) * 100 ≤ |200 - 100| * 10000) ∧
      (1060 < 2 ^ 56 → LogFits s samplePair ⟨1000, 100, 0⟩ 1060) :=
  breaker_exact (opened 100) (adminEnv 1060) samplePair 200 1060 ⟨1000, 100, 0⟩
    (opened_timely 100 200 (by decide) (by decide) rfl rfl rfl)

/-- From 10005 to 11006 is more than the ten percent allowed, by less than a basis point. -/
theorem rounding_lets_pass :
    let s := after (opened 10005)
    let t := step ⟨adminEnv 1060, .observe samplePair 11006 1060⟩ s
    Timely s (adminEnv 1060) samplePair 11006 1060 ⟨1000, 10005, 0⟩ ∧
      ¬ |11006 - 10005| * 10000 ≤ (s.maxSingleUpdateDevBps : ℤ) * 10005 ∧
      Entered t samplePair 11006 1060 ∧ t.isCircuitBreakerTripped = false :=
  ⟨opened_timely 10005 11006 (by decide) (by decide) rfl rfl rfl, by decide,
    ⟨BitVec.ofNat 256 600300, rfl⟩, rfl⟩

end Examples

end StellarTags.Oracle
