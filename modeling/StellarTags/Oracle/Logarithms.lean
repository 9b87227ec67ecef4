import StellarTags.Oracle.History

/-! The fixed-point logarithm of a price never fails, and is below 127 whole digits. -/

namespace StellarTags.Oracle

open Library.Transactions Library.Integers Soroban

variable {s t : State}

lemma digit_bound {n : ℕ} (hn : n < 2 ^ 64) :
    n * n ≤ maxU128 ∧ (n * n) >>> 63 < 2 ^ 65 := by
  have hsquare : n * n ≤ (2 ^ 64 - 1) * (2 ^ 64 - 1) := Nat.mul_le_mul (by omega) (by omega)
  simp only [maxU128, Nat.shiftRight_eq_div_pow]
  omega

/-- The digit that comes next, where no square overflows. -/
def nextDigit (acc : ℕ × ℕ) (bit : ℕ) : ℕ × ℕ :=
  let squared := (acc.1 * acc.1) >>> 63
  if 2 ^ 64 ≤ squared then (squared >>> 1, acc.2 ||| 2 ^ (63 - bit)) else (squared, acc.2)

lemma nextDigit_lt {acc : ℕ × ℕ} (hn : acc.1 < 2 ^ 64) (hf : acc.2 < 2 ^ 64) (bit : ℕ) :
    (nextDigit acc bit).1 < 2 ^ 64 ∧ (nextDigit acc bit).2 < 2 ^ 64 := by
  obtain ⟨-, hshift⟩ := digit_bound hn
  by_cases hbig : 2 ^ 64 ≤ (acc.1 * acc.1) >>> 63
  · have hbit : 2 ^ (63 - bit) < 2 ^ 64 := Nat.pow_lt_pow_right (by decide) (by omega)
    have hhalf : (acc.1 * acc.1) >>> 63 >>> 1 < 2 ^ 64 := by
      rw [Nat.shiftRight_eq_div_pow _ 1]
      omega
    rw [nextDigit, if_pos hbig]
    exact ⟨hhalf, Nat.or_lt_two_pow hf hbit⟩
  · rw [nextDigit, if_neg hbig]
    exact ⟨not_le.mp hbig, hf⟩

lemma log2Digit_eq {acc : ℕ × ℕ} (hn : acc.1 < 2 ^ 64) (bit : ℕ) :
    log2Digit acc bit s = .ok (nextDigit acc bit, s) := by
  obtain ⟨hsquare, -⟩ := digit_bound hn
  simp only [log2Digit, Tx.reject, hsquare.not_gt, if_false, Tx.pure_bind, nextDigit]
  split
  · rfl
  · rfl

lemma log2Digits_eq {a : ℕ × ℕ} (hn : a.1 < 2 ^ 64) (hf : a.2 < 2 ^ 64) (bits : List ℕ) :
    Tx.fold log2Digit a bits s = .ok (bits.foldl nextDigit a, s) ∧
      (bits.foldl nextDigit a).2 < 2 ^ 64 := by
  induction bits generalizing a with
  | nil => exact ⟨rfl, hf⟩
  | cons bit bits ih =>
    obtain ⟨hn', hf'⟩ := nextDigit_lt hn hf bit
    obtain ⟨hrest, hlt⟩ := ih hn' hf'
    exact ⟨Tx.fold_cons.mpr ⟨_, _, log2Digit_eq hn bit, hrest⟩, hlt⟩

/-- The value's highest 64 bits. -/
def mantissa (v : ℕ) : ℕ := if 63 ≤ v.log2 then v >>> (v.log2 - 63) else v <<< (63 - v.log2)

lemma mantissa_lt (v : ℕ) : mantissa v < 2 ^ 64 := by
  have hv : v < 2 ^ (v.log2 + 1) := Nat.lt_log2_self
  rw [mantissa]
  split
  · rename_i h
    rw [Nat.shiftRight_eq_div_pow]
    apply Nat.div_lt_of_lt_mul
    rw [← pow_add, show v.log2 - 63 + 64 = v.log2 + 1 by omega]
    exact hv
  · rename_i h
    rw [Nat.shiftLeft_eq]
    calc v * 2 ^ (63 - v.log2) < 2 ^ (v.log2 + 1) * 2 ^ (63 - v.log2) :=
          Nat.mul_lt_mul_of_pos_right hv (by positivity)
      _ = 2 ^ 64 := by rw [← pow_add, show v.log2 + 1 + (63 - v.log2) = 64 by omega]

def logBound : ℤ := 127 * q64

def fraction (v : ℕ) : ℕ := ((List.range 32).foldl nextDigit (mantissa v, 0)).2

def log2Value (value : ℤ) : ℤ := value.toNat.log2 * q64 + fraction value.toNat

lemma fraction_lt (v : ℕ) : fraction v < 2 ^ 64 :=
  (log2Digits_eq (s := {}) (a := (mantissa v, 0)) (mantissa_lt v) (by norm_num)
    (List.range 32)).2

lemma log2Value_bounds {value : ℤ} (hp : 0 < value) (hm : value ≤ maxI128) :
    0 ≤ log2Value value ∧ log2Value value ≤ logBound := by
  have hvalue : value.toNat < 2 ^ 127 := by
    simp only [maxI128] at hm
    omega
  have hhigh : value.toNat.log2 ≤ 126 :=
    Nat.lt_succ_iff.mp ((Nat.log2_lt (by omega)).mpr hvalue)
  have hf := fraction_lt value.toNat
  simp only [log2Value, q64, logBound]
  omega

lemma log2Q64_eq {value : ℤ} (hp : 0 < value) (hm : value ≤ maxI128) :
    log2Q64 value s = .ok (log2Value value, s) := by
  have hdigits := (log2Digits_eq (s := s) (a := (mantissa value.toNat, 0))
    (mantissa_lt value.toNat) (by norm_num) (List.range 32)).1
  obtain ⟨hlow, hhigh⟩ := log2Value_bounds hp hm
  have hfits : FitsI128 (fraction value.toNat : ℤ) ∧
      FitsI128 ((value.toNat.log2 : ℤ) * q64) ∧ FitsI128 (log2Value value) := by
    have hf' := fraction_lt value.toNat
    simp only [FitsI128, minI128, maxI128, log2Value, q64, logBound] at hlow hhigh ⊢
    omega
  simp only [log2Q64, Tx.reject_bind_ok, not_le]
  refine ⟨hp, Tx.bind_ok.mpr ⟨_, s, hdigits, ?_⟩⟩
  simpa [fraction, log2Value] using hfits

lemma log2Q64_ok {value : ℤ} (hp : 0 < value) (hm : value ≤ maxI128) :
    ∃ log, log2Q64 value s = .ok (log, s) ∧ 0 ≤ log ∧ log ≤ logBound :=
  ⟨log2Value value, log2Q64_eq hp hm, log2Value_bounds hp hm⟩

lemma nextLog_ok {cumulative next : ℤ} {previous : Observation} {timestamp : ℕ} :
    nextLog cumulative previous timestamp s = .ok (next, t) ↔
      ∃ log, log2Q64 previous.price s = .ok (log, s) ∧
        FitsI128 (log * (timestamp - previous.timestamp : ℕ)) ∧
        FitsI128 (cumulative + log * (timestamp - previous.timestamp : ℕ)) ∧
        next = cumulative + log * (timestamp - previous.timestamp : ℕ) ∧ t = s := by
  rw [nextLog, Tx.bind_ok]
  constructor
  · rintro ⟨log, u, hlog, hnext⟩
    obtain rfl := log2Q64_reads _ _ _ _ hlog
    simp only [checkedPrice_bind_ok, checkedPrice_ok] at hnext
    exact ⟨log, hlog, hnext.1, hnext.2.1, hnext.2.2⟩
  · rintro ⟨log, hlog, hincrement, hsum, rfl, rfl⟩
    refine ⟨log, t, hlog, ?_⟩
    simp only [checkedPrice_bind_ok, checkedPrice_ok]
    exact ⟨hincrement, hsum, by simp⟩

end StellarTags.Oracle
