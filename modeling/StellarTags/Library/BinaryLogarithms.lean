import Mathlib.Analysis.SpecialFunctions.Log.Base

/-! Binary logarithms computed digit by digit, by squaring a mantissa between one and two. -/

namespace StellarTags.Library.BinaryLogarithms

/-- The square of a mantissa with `p` digits after the point, rounded down. -/
def square (p m : ℕ) : ℕ := m * m / 2 ^ p

/-- The first `n` digits of the mantissa's logarithm, as a whole number. -/
def digits (p : ℕ) : ℕ → ℕ → ℕ
  | 0, _ => 0
  | n + 1, m =>
    if 2 ^ (p + 1) ≤ square p m then 2 ^ n + digits p n (square p m / 2) else digits p n (square p m)

variable {p n m k : ℕ}

lemma digits_lt (n m : ℕ) : digits p n m < 2 ^ n := by
  induction n generalizing m with
  | zero => exact Nat.one_pos
  | succ n ih =>
    have hpow : 2 ^ (n + 1) = 2 ^ n + 2 ^ n := by ring
    rw [digits]
    split
    · have hrest := ih (square p m / 2)
      omega
    · have hrest := ih (square p m)
      omega

lemma square_mono (h : m ≤ k) : square p m ≤ square p k :=
  Nat.div_le_div_right (Nat.mul_le_mul h h)

lemma digits_mono (h : m ≤ k) : digits p n m ≤ digits p n k := by
  induction n generalizing m k with
  | zero => exact le_rfl
  | succ n ih =>
    have hsquare : square p m ≤ square p k := square_mono h
    rw [digits, digits]
    by_cases hm : 2 ^ (p + 1) ≤ square p m
    · rw [if_pos hm, if_pos (hm.trans hsquare)]
      exact Nat.add_le_add_left (ih (Nat.div_le_div_right hsquare)) _
    · rw [if_neg hm]
      by_cases hk : 2 ^ (p + 1) ≤ square p k
      · rw [if_pos hk]
        exact (digits_lt n _).le.trans (Nat.le_add_right _ _)
      · rw [if_neg hk]
        exact ih hsquare

lemma square_one (p : ℕ) : square p (2 ^ p) = 2 ^ p :=
  Nat.mul_div_cancel _ (by positivity)

lemma digits_one (n : ℕ) : digits p n (2 ^ p) = 0 := by
  induction n with
  | zero => rfl
  | succ n ih =>
    have hsmall : ¬ 2 ^ (p + 1) ≤ 2 ^ p := by
      rw [pow_succ]
      have hpos : 0 < 2 ^ p := by positivity
      omega
    rw [digits, square_one, if_neg hsmall, ih]

lemma le_square (h : 2 ^ p ≤ m) : 2 ^ p ≤ square p m := by
  calc 2 ^ p = square p (2 ^ p) := (square_one p).symm
    _ ≤ square p m := square_mono h

/-- What a mantissa stands for. -/
noncomputable def scaled (p m : ℕ) : ℝ := m / 2 ^ p

lemma one_le_scaled (h : 2 ^ p ≤ m) : 1 ≤ scaled p m := by
  rw [scaled, one_le_div (by positivity)]
  exact_mod_cast h

lemma scaled_square_le (p m : ℕ) : scaled p (square p m) ≤ scaled p m ^ 2 := by
  have hdiv : ((square p m : ℕ) : ℝ) ≤ (m * m : ℕ) / (2 ^ p : ℕ) := Nat.cast_div_le
  rw [scaled, scaled, div_pow, div_le_div_iff₀ (by positivity) (by positivity)]
  push_cast at hdiv
  rw [le_div_iff₀ (by positivity)] at hdiv
  calc (square p m : ℝ) * (2 ^ p) ^ 2 = square p m * 2 ^ p * 2 ^ p := by ring
    _ ≤ m * m * 2 ^ p := mul_le_mul_of_nonneg_right hdiv (by positivity)
    _ = m ^ 2 * 2 ^ p := by ring

lemma scaled_half_le (p m : ℕ) : scaled p (m / 2) ≤ scaled p m / 2 := by
  have hdiv : ((m / 2 : ℕ) : ℝ) ≤ m / 2 := by exact_mod_cast Nat.cast_div_le (α := ℝ) (n := 2)
  rw [scaled, scaled, div_right_comm]
  exact div_le_div_of_nonneg_right hdiv (by positivity)

/-- The digits never exceed the logarithm. -/
lemma digits_le_logb (n : ℕ) (h : 2 ^ p ≤ m) :
    (digits p n m : ℝ) ≤ 2 ^ n * Real.logb 2 (scaled p m) := by
  induction n generalizing m with
  | zero => simpa [digits] using Real.logb_nonneg one_lt_two (one_le_scaled h)
  | succ n ih =>
    have hsquare := le_square h
    have hone := one_le_scaled hsquare
    have hdouble : Real.logb 2 (scaled p (square p m)) ≤ 2 * Real.logb 2 (scaled p m) := by
      calc Real.logb 2 (scaled p (square p m)) ≤ Real.logb 2 (scaled p m ^ 2) :=
            Real.logb_le_logb_of_le one_lt_two (by linarith) (scaled_square_le p m)
        _ = 2 * Real.logb 2 (scaled p m) := by
            rw [Real.logb_pow]
            norm_num
    have hpow : (0 : ℝ) ≤ 2 ^ n := by positivity
    rw [digits]
    split
    · rename_i hbig
      have hhalf : 2 ^ p ≤ square p m / 2 := by
        rw [pow_succ] at hbig
        omega
      have hlog : Real.logb 2 (scaled p (square p m / 2)) ≤
          Real.logb 2 (scaled p (square p m)) - 1 := by
        calc Real.logb 2 (scaled p (square p m / 2)) ≤ Real.logb 2 (scaled p (square p m) / 2) :=
              Real.logb_le_logb_of_le one_lt_two (by linarith [one_le_scaled hhalf])
                (scaled_half_le p _)
          _ = Real.logb 2 (scaled p (square p m)) - 1 := by
              rw [Real.logb_div (by linarith) two_ne_zero,
                Real.logb_self_eq_one one_lt_two]
      have hrest := ih hhalf
      have hstep := mul_le_mul_of_nonneg_left (hlog.trans (sub_le_sub_right hdouble 1)) hpow
      push_cast
      calc (2 : ℝ) ^ n + digits p n (square p m / 2)
          ≤ 2 ^ n + 2 ^ n * (2 * Real.logb 2 (scaled p m) - 1) := by linarith
        _ = 2 ^ (n + 1) * Real.logb 2 (scaled p m) := by ring
    · calc (digits p n (square p m) : ℝ) ≤ 2 ^ n * Real.logb 2 (scaled p (square p m)) := ih hsquare
        _ ≤ 2 ^ n * (2 * Real.logb 2 (scaled p m)) := mul_le_mul_of_nonneg_left hdouble hpow
        _ = 2 ^ (n + 1) * Real.logb 2 (scaled p m) := by ring

end StellarTags.Library.BinaryLogarithms
