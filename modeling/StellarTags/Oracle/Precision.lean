import StellarTags.Library.BinaryLogarithms
import StellarTags.Oracle.Accumulators

/-! The fixed-point logarithm against the real one, and observations whose sums cannot overflow. -/

namespace StellarTags.Oracle

open Library.Transactions Library.Integers Library.Runs Library.BinaryLogarithms Soroban

section Digits

variable {v w m f bit n : ℕ} {x y : ℤ}

lemma shiftRight_eq_square (m : ℕ) : (m * m) >>> 63 = square 63 m :=
  Nat.shiftRight_eq_div_pow _ _

/-- The digits that are still to come are added below those there are. -/
lemma foldl_nextDigit (n : ℕ) (hn : bit + n = 32) (hf : 2 ^ (64 - bit) ∣ f) :
    ((List.range' bit n).foldl nextDigit (m, f)).2 = f + digits 63 n m * 2 ^ 32 := by
  induction n generalizing bit m f with
  | zero => simp [digits]
  | succ n ih =>
    rw [List.range'_succ, List.foldl_cons, digits, nextDigit]
    simp only [shiftRight_eq_square]
    have hwidth : 64 - bit = 63 - bit + 1 := by omega
    obtain ⟨c, rfl⟩ := hf
    by_cases hbig : 2 ^ 64 ≤ square 63 m
    · have hlt : 2 ^ (63 - bit) < 2 ^ (64 - bit) := Nat.pow_lt_pow_right one_lt_two (by omega)
      have hor : 2 ^ (64 - bit) * c ||| 2 ^ (63 - bit) = 2 ^ (64 - bit) * c + 2 ^ (63 - bit) :=
        (Nat.two_pow_add_eq_or_of_lt hlt c).symm
      have hdvd : 2 ^ (64 - (bit + 1)) ∣ 2 ^ (64 - bit) * c + 2 ^ (63 - bit) := by
        rw [hwidth, pow_succ, mul_assoc, show 64 - (bit + 1) = 63 - bit by omega]
        exact Dvd.dvd.add (dvd_mul_right _ _) dvd_rfl
      have hplace : 2 ^ (63 - bit) = 2 ^ n * 2 ^ 32 := by
        rw [← pow_add]
        congr 1
        omega
      rw [if_pos hbig, if_pos hbig, hor, ih (by omega) hdvd, Nat.shiftRight_eq_div_pow, pow_one,
        hplace]
      ring
    · have hdvd : 2 ^ (64 - (bit + 1)) ∣ 2 ^ (64 - bit) * c := by
        rw [hwidth, pow_succ, mul_assoc, show 64 - (bit + 1) = 63 - bit by omega]
        exact dvd_mul_right _ _
      rw [if_neg hbig, if_neg hbig, ih (by omega) hdvd]

lemma fraction_eq (v : ℕ) : fraction v = digits 63 32 (mantissa v) * 2 ^ 32 := by
  rw [fraction, List.range_eq_range', foldl_nextDigit 32 rfl (dvd_zero _), zero_add]

lemma le_mantissa (hv : 0 < v) : 2 ^ 63 ≤ mantissa v := by
  have hlog : 2 ^ v.log2 ≤ v := Nat.log2_self_le hv.ne'
  rw [mantissa]
  split
  · rw [Nat.shiftRight_eq_div_pow, Nat.le_div_iff_mul_le (by positivity), ← pow_add]
    rwa [show 63 + (v.log2 - 63) = v.log2 by omega]
  · rw [Nat.shiftLeft_eq]
    calc 2 ^ 63 = 2 ^ v.log2 * 2 ^ (63 - v.log2) := by rw [← pow_add]; congr 1; omega
      _ ≤ v * 2 ^ (63 - v.log2) := Nat.mul_le_mul_right _ hlog

lemma mantissa_mono (hlog : v.log2 = w.log2) (h : v ≤ w) : mantissa v ≤ mantissa w := by
  rw [mantissa, mantissa, hlog]
  split
  · rw [Nat.shiftRight_eq_div_pow, Nat.shiftRight_eq_div_pow]
    exact Nat.div_le_div_right h
  · rw [Nat.shiftLeft_eq, Nat.shiftLeft_eq]
    exact Nat.mul_le_mul_right _ h

lemma mantissa_two_pow (k : ℕ) : mantissa (2 ^ k) = 2 ^ 63 := by
  rw [mantissa, Nat.log2_two_pow]
  split
  · rw [Nat.shiftRight_eq_div_pow, Nat.pow_div (by omega) two_pos]
    congr 1
    omega
  · rw [Nat.shiftLeft_eq, ← pow_add]
    congr 1
    omega

/-- A value is at least what its highest 64 bits stand for. -/
lemma scaled_mantissa_le (v : ℕ) : 2 ^ v.log2 * scaled 63 (mantissa v) ≤ v := by
  rw [mantissa]
  split
  · have hdiv : ((v / 2 ^ (v.log2 - 63) : ℕ) : ℝ) ≤ v / (2 ^ (v.log2 - 63) : ℕ) := Nat.cast_div_le
    have hpow : (2 : ℝ) ^ v.log2 = 2 ^ (v.log2 - 63) * 2 ^ 63 := by
      rw [← pow_add]
      congr 1
      omega
    rw [Nat.shiftRight_eq_div_pow, scaled, hpow, mul_assoc, mul_div_cancel₀ _ (by positivity)]
    push_cast at hdiv
    rw [le_div_iff₀ (by positivity)] at hdiv
    linarith
  · have hpow : (2 : ℝ) ^ 63 = 2 ^ v.log2 * 2 ^ (63 - v.log2) := by
      rw [← pow_add]
      congr 1
      omega
    rw [Nat.shiftLeft_eq, scaled, hpow]
    push_cast
    exact le_of_eq (by field_simp)

lemma floor_logb (hx : 0 < x) : ⌊Real.logb 2 x⌋ = x.toNat.log2 := by
  have hcast : (x : ℝ) = (x.toNat : ℕ) := by
    rw [← Int.cast_natCast, Int.toNat_of_nonneg hx.le]
  have hfloor := Real.floor_logb_natCast (b := 2) (r := (x : ℝ)) (by exact_mod_cast hx.le)
  rw [Nat.cast_ofNat] at hfloor
  rw [hfloor, hcast, Int.log_natCast, Nat.log2_eq_log_two]

lemma log2Value_le_logb (hx : 0 < x) : (log2Value x : ℝ) ≤ 2 ^ 64 * Real.logb 2 x := by
  have hv : 0 < x.toNat := by omega
  have hcast : (x : ℝ) = (x.toNat : ℕ) := by
    rw [← Int.cast_natCast, Int.toNat_of_nonneg hx.le]
  have hone := one_le_scaled (le_mantissa hv)
  have hsplit : Real.logb 2 (2 ^ x.toNat.log2 * scaled 63 (mantissa x.toNat)) =
      x.toNat.log2 + Real.logb 2 (scaled 63 (mantissa x.toNat)) := by
    rw [Real.logb_mul (by positivity) (by linarith), Real.logb_pow,
      Real.logb_self_eq_one one_lt_two, mul_one]
  have hlog : (x.toNat.log2 : ℝ) + Real.logb 2 (scaled 63 (mantissa x.toNat)) ≤ Real.logb 2 x := by
    rw [← hsplit, hcast]
    exact Real.logb_le_logb_of_le one_lt_two (by positivity) (scaled_mantissa_le _)
  have hdigits := digits_le_logb 32 (le_mantissa hv)
  rw [log2Value, fraction_eq, q64]
  push_cast
  linarith

lemma log2Value_mono (hx : 0 < x) (h : x ≤ y) : log2Value x ≤ log2Value y := by
  have hle : x.toNat ≤ y.toNat := Int.toNat_le_toNat h
  have hv : x.toNat ≠ 0 := by omega
  have hw : y.toNat ≠ 0 := by omega
  have hlog : x.toNat.log2 ≤ y.toNat.log2 :=
    (Nat.le_log2 hw).mpr ((Nat.log2_self_le hv).trans hle)
  rcases hlog.lt_or_eq with hlt | heq
  · have hx := fraction_lt x.toNat
    simp only [log2Value, q64]
    omega
  · have hdigits : fraction x.toNat ≤ fraction y.toNat := by
      rw [fraction_eq, fraction_eq]
      exact Nat.mul_le_mul_right _ (digits_mono (mantissa_mono heq hle))
    simp only [log2Value, heq]
    omega

lemma log2Value_two_pow (k : ℕ) : log2Value (2 ^ k) = k * 2 ^ 64 := by
  have hcast : ((2 : ℤ) ^ k).toNat = 2 ^ k := by
    rw [← Int.toNat_natCast (2 ^ k), Nat.cast_pow, Nat.cast_ofNat]
  rw [log2Value, hcast, fraction_eq, mantissa_two_pow, digits_one, Nat.log2_two_pow, q64]
  simp

/-- The fixed-point logarithm of every positive value is the one given, is exact for the powers of
two, and otherwise at most the real one and in the same unit; it never decreases. -/
structure PreciseLog (log : ℤ → ℤ) : Prop where
  computed : ∀ x s, 0 < x → x ≤ maxI128 → log2Q64 x s = .ok (log x, s)
  powers : ∀ k : ℕ, k ≤ 126 → log (2 ^ k) = k * 2 ^ 64
  floor : ∀ x : ℤ, 0 < x → x ≤ maxI128 →
    2 ^ 64 * ⌊Real.logb 2 x⌋ ≤ log x ∧ log x < 2 ^ 64 * (⌊Real.logb 2 x⌋ + 1)
  below : ∀ x : ℤ, 0 < x → x ≤ maxI128 → (log x : ℝ) ≤ 2 ^ 64 * Real.logb 2 x
  monotone : ∀ x y, 0 < x → x ≤ y → y ≤ maxI128 → log x ≤ log y

lemma preciseLog_log2Value : PreciseLog log2Value := by
  refine ⟨fun x s hx hm => log2Q64_eq hx hm, fun k _ => log2Value_two_pow k, fun x hx _ => ?_,
    fun x hx _ => log2Value_le_logb hx, fun x y hx h _ => log2Value_mono hx h⟩
  have hf := fraction_lt x.toNat
  rw [floor_logb hx, log2Value, q64]
  omega

end Digits

section Overflow

variable {pair : Pair} {s t : State} {env : Env} {price : ℤ} {timestamp n : ℕ}
  {logs : List LogObservation}

/-- A history from before 2 ^ 56 seconds, with no logarithms or with small ones. -/
structure Punctual (pair : Pair) (s : State) : Prop where
  bookkept : Bookkept pair s
  early : ∀ o ∈ s.observations pair, o.timestamp < 2 ^ 56
  logged : ∀ logs, s.cumulativeLogs pair = some logs → Logged (s.observations pair) logs

namespace Punctual

lemma start (pair : Pair) : Punctual pair {} :=
  ⟨bookkept_start pair, by simp [State.observations], by simp⟩

lemma withoutLogs (h : Punctual pair s) : Punctual pair s.withoutLogs :=
  ⟨h.bookkept.withoutLogs, h.early, by simp [State.withoutLogs]⟩

lemma record {observations : List Observation}
    (hb : Bookkept pair (s.record pair observations logs))
    (he : ∀ o ∈ observations, o.timestamp < 2 ^ 56) (hl : Logged observations logs) :
    Punctual pair (s.record pair observations logs) := by
  refine ⟨hb, fun o ho => ?_, fun stored hstored => ?_⟩
  · rw [observations_record] at ho
    exact he o (mem_prune ho)
  · simp only [State.record, Function.update_self, Option.some.injEq] at hstored
    subst hstored
    rw [observations_record]
    exact hl.pruned _

/-- The logarithms are there, or can be rebuilt. -/
lemma readable (h : Punctual pair s) :
    ∃ logs, readCumulativeLogs pair (s.observations pair) s = .ok (logs, s) ∧
      Logged (s.observations pair) logs := by
  obtain ⟨logs, hread, hlogged⟩ := readCumulativeLogs_ok pair s h.bookkept.recorded h.early
  exact ⟨logs, hread, hlogged h.logged⟩

lemma observed (h : Punctual pair s) (ha : Admissible s env price timestamp)
    (henv : env.timestamp < 2 ^ 56)
    (hlogs : readCumulativeLogs pair (s.observations pair) s = .ok (logs, s))
    (ho : Observed pair price timestamp s logs n t) : Punctual pair t := by
  have hbookkept := ho.bookkept ha h.bookkept hlogs
  have hearly : timestamp < 2 ^ 56 := ha.past.trans_lt henv
  obtain ⟨stored, hstored, hlogged⟩ := h.readable
  obtain rfl : stored = logs := by
    rw [hlogs] at hstored
    cases hstored
    rfl
  cases ho with
  | first empty =>
    rw [empty] at hlogged
    obtain rfl := List.length_eq_zero_iff.mp hlogged.length_eq
    refine record hbookkept (by simpa using hearly) ⟨rfl, ?_⟩
    simp [logBound, q64]
  | tripped previous last later beyond => exact ⟨hbookkept, h.early, h.logged⟩
  | appended previous last later within log next =>
    obtain ⟨hp, hm⟩ := h.bookkept.recorded.priced previous (List.mem_of_getLast? last)
    obtain ⟨hc, hb⟩ := hlogged.last last
    obtain ⟨hnonneg, hle⟩ := nextLog_bounded hp hm hc hb (by omega) next
    refine record hbookkept (fun o ho => ?_) (hlogged.append rfl hnonneg hle)
    rcases List.mem_append.mp ho with ho | ho
    · exact h.early o ho
    · obtain rfl := List.mem_singleton.mp ho
      exact hearly

lemma step (call : Call) (h : Punctual pair s) (henv : call.env.timestamp < 2 ^ 56) :
    Punctual pair (step call s) := by
  rcases step_history call pair s with ⟨hobservations, hlogs⟩ | ⟨_, _, _, _, ha, hlogs, ho⟩
  · refine ⟨h.bookkept.congr hobservations hlogs, ?_, ?_⟩
    · rw [hobservations]
      exact h.early
    · rw [hobservations, hlogs]
      exact h.logged
  · exact h.observed ha henv hlogs ho

lemma run {calls : List Call} (h : Punctual pair s)
    (henv : ∀ call ∈ calls, call.env.timestamp < 2 ^ 56) :
    Punctual pair (run Oracle.step s calls) := by
  induction calls generalizing s with
  | nil => exact h
  | cons call calls ih =>
    exact ih (h.step call (henv call List.mem_cons_self)) fun c hc =>
      henv c (List.mem_cons_of_mem _ hc)

/-- Every price and every sum that an observation forms fits. -/
lemma observe_spares (h : Punctual pair s) (henv : env.timestamp < 2 ^ 56) (price : ℤ)
    (timestamp : ℕ) : Tx.Spares .priceOverflow (observe env pair price timestamp) s := by
  obtain ⟨logs, hread, hlogged⟩ := h.readable
  refine .bind (.bind (.bind (.of_ok rfl) fun _ _ _ => .unwrap (by decide)) fun _ _ _ => .demand _)
    fun _ u hadmin => ?_
  obtain ⟨-, rfl⟩ := requireAdmin_ok.mp hadmin
  refine .bind (.of_ok rfl) fun _ u hu => ?_
  obtain ⟨-, rfl⟩ := Tx.read_ok.mp hu
  refine .bind (.reject fun _ => by decide) fun _ u hu => ?_
  obtain ⟨-, rfl⟩ := Tx.reject_ok.mp hu
  refine .bind (.reject fun _ => by decide) fun _ u hu => ?_
  obtain ⟨hprice, rfl⟩ := Tx.reject_ok.mp hu
  refine .bind (.reject fun _ => by decide) fun _ u hu => ?_
  obtain ⟨hpast, rfl⟩ := Tx.reject_ok.mp hu
  refine .bind (.of_ok rfl) fun _ u hu => ?_
  obtain ⟨rfl, rfl⟩ := Tx.read_ok.mp hu
  refine .bind (.of_ok hread) fun _ u hu => ?_
  rw [hread] at hu
  obtain ⟨rfl, rfl⟩ := Prod.mk.inj (Except.ok.inj hu)
  cases hlast : (u.observations pair).getLast? with
  | none => exact .of_ok rfl
  | some previous =>
    obtain ⟨hp, hm⟩ := h.bookkept.recorded.priced previous (List.mem_of_getLast? hlast)
    obtain ⟨hc, hb⟩ := hlogged.last hlast
    obtain ⟨hd, hscaled⟩ := price_differences (p := price) (by omega) (by omega) hp hm
    refine .bind (.reject fun _ => by decide) fun _ v hv => ?_
    obtain ⟨hlater, rfl⟩ := Tx.reject_ok.mp hv
    refine .bind (.reject fun _ => by decide) fun _ v hv => ?_
    obtain ⟨-, rfl⟩ := Tx.reject_ok.mp hv
    refine .bind (.of_ok rfl) fun _ v hv => ?_
    obtain ⟨-, rfl⟩ := Tx.read_ok.mp hv
    refine .bind (.of_ok (checkedI128_ok.mpr ⟨hd, rfl, rfl⟩)) fun _ v hv => ?_
    obtain ⟨-, rfl, rfl⟩ := checkedI128_ok.mp hv
    refine .bind (.of_ok (checkedPrice_ok.mpr ⟨hscaled, rfl, rfl⟩)) fun _ v hv => ?_
    obtain ⟨-, rfl, rfl⟩ := checkedPrice_ok.mp hv
    refine .bind (.demand _) fun _ v hv => ?_
    obtain ⟨-, rfl⟩ := Tx.demand_ok.mp hv
    dsimp only
    split
    · exact .of_ok rfl
    · refine .bind (.demand _) fun _ w hw => ?_
      obtain ⟨-, rfl⟩ := Tx.demand_ok.mp hw
      obtain ⟨next, hnext, -⟩ := nextLog_of_early (s := w) hp hm hc hb (by omega)
        ((not_lt.mp hpast).trans_lt henv)
      exact .bind (.of_ok hnext) fun _ _ _ => .of_ok rfl

end Punctual

/-- The logarithm is precise, and so no observation on a ledger before 2 ^ 56 seconds fails for an
overflow, whatever was observed before and wherever the logarithms were left out until then. -/
theorem log2_precise :
    PreciseLog log2Value ∧
      ∀ (old : List Call) (upgraded : Bool) (calls : List Call) (env : Env) (pair : Pair) (price : ℤ)
        (timestamp : ℕ), (∀ call ∈ old ++ calls, call.env.timestamp < 2 ^ 56) →
          env.timestamp < 2 ^ 56 →
        let s := if upgraded then (after old).withoutLogs else after old
        let t := run step s calls
        (⟨env, .observe pair price timestamp⟩ : Call).answer t ≠ .error (.err .priceOverflow) := by
  refine ⟨preciseLog_log2Value, fun old upgraded calls env pair price timestamp hcalls henv => ?_⟩
  intro s t
  have hold : Punctual pair (after old) :=
    (Punctual.start pair).run fun call hc => hcalls call (List.mem_append_left _ hc)
  have hs : Punctual pair s := by
    cases upgraded with
    | false => exact hold
    | true => exact hold.withoutLogs
  have ht : Punctual pair t := hs.run fun call hc => hcalls call (List.mem_append_right _ hc)
  have hobserve : Tx.Spares .priceOverflow
      (answering .count (observe env pair price timestamp)) t :=
    .bind (ht.observe_spares henv price timestamp) fun _ _ _ => .of_ok rfl
  intro hanswer
  refine hobserve ?_
  rw [Call.answer, Op.invoke] at hanswer
  cases hresult : answering .count (observe env pair price timestamp) t with
  | ok r =>
    rw [hresult] at hanswer
    cases hanswer
  | error failure =>
    rw [hresult] at hanswer
    exact congrArg Except.error (Except.error.inj hanswer)

theorem log2_precise_hundred :
    log2Q64 100 {} = .ok (log2Value 100, {}) ∧
      (⟨adminEnv 1060, .observe samplePair 105 1060⟩ : Call).answer (run step (after (opened 100)) [])
        ≠ .error (.err .priceOverflow) :=
  ⟨log2_precise.1.computed 100 {} (by decide) (by decide),
    log2_precise.2 (opened 100) false [] (adminEnv 1060) samplePair 105 1060
      (by simp [opened, adminEnv]) (by decide)⟩

end Overflow

end StellarTags.Oracle
