import Mathlib.Tactic

/-! Numbers as byte strings of a fixed length, the most significant byte first. -/

namespace StellarTags.Library.BigEndian

instance byteNeZero : NeZero 256 := ⟨by decide⟩

def toBytes : ℕ → ℕ → List (Fin 256)
  | 0, _ => []
  | k + 1, n => toBytes k (n / 256) ++ [⟨n % 256, Nat.mod_lt n (by decide)⟩]

def ofBytes (b : List (Fin 256)) : ℕ := b.foldl (fun n d => n * 256 + d) 0

/-- Two's complement in `k` bytes. -/
def toBytesSigned (k : ℕ) (n : ℤ) : List (Fin 256) := toBytes k (n % 256 ^ k).toNat

def ofBytesSigned (k : ℕ) (b : List (Fin 256)) : ℤ :=
  if 2 * ofBytes b < 256 ^ k then ofBytes b else ofBytes b - 256 ^ k

variable {k n : ℕ} {b : List (Fin 256)}

@[simp] lemma length_toBytes (k n : ℕ) : (toBytes k n).length = k := by
  induction k generalizing n with
  | zero => rfl
  | succ k ih => simp [toBytes, ih]

@[simp] lemma ofBytes_append (b : List (Fin 256)) (d : Fin 256) :
    ofBytes (b ++ [d]) = ofBytes b * 256 + d := by
  simp [ofBytes]

lemma ofBytes_cons (d : Fin 256) (b : List (Fin 256)) :
    ofBytes (d :: b) = d * 256 ^ b.length + ofBytes b := by
  induction b using List.reverseRecOn with
  | nil => simp [ofBytes]
  | append_singleton b c ih =>
    rw [← List.cons_append, ofBytes_append, ih, ofBytes_append, List.length_append,
      List.length_singleton, pow_succ]
    ring

lemma ofBytes_lt (b : List (Fin 256)) : ofBytes b < 256 ^ b.length := by
  induction b using List.reverseRecOn with
  | nil => simp [ofBytes]
  | append_singleton b d ih =>
    have hd := d.isLt
    rw [ofBytes_append, List.length_append, List.length_singleton, pow_succ]
    omega

lemma ofBytes_toBytes (h : n < 256 ^ k) : ofBytes (toBytes k n) = n := by
  induction k generalizing n with
  | zero =>
    have hn : n = 0 := by simpa using h
    simp [toBytes, ofBytes, hn]
  | succ k ih =>
    have hn : n / 256 < 256 ^ k := by
      apply Nat.div_lt_of_lt_mul
      rwa [pow_succ, mul_comm] at h
    rw [toBytes, ofBytes_append, ih hn]
    exact Nat.div_add_mod' n 256

lemma toBytes_ofBytes (b : List (Fin 256)) : toBytes b.length (ofBytes b) = b := by
  induction b using List.reverseRecOn with
  | nil => rfl
  | append_singleton b d ih =>
    have hdiv : (ofBytes b * 256 + d) / 256 = ofBytes b := by omega
    have hmod : (ofBytes b * 256 + d) % 256 = d := by omega
    simp only [List.length_append, List.length_singleton, toBytes, ofBytes_append, hdiv, hmod, ih]

lemma toBytes_add (k m n : ℕ) :
    toBytes (k + m) n = toBytes k (n / 256 ^ m) ++ toBytes m (n % 256 ^ m) := by
  induction m generalizing n with
  | zero => simp [toBytes]
  | succ m ih =>
    have hpow : 256 ^ (m + 1) = 256 * 256 ^ m := by rw [pow_succ, mul_comm]
    have hdiv : n % 256 ^ (m + 1) / 256 = n / 256 % 256 ^ m := by
      rw [hpow, Nat.mod_mul_right_div_self]
    have hmod : n % 256 ^ (m + 1) % 256 = n % 256 := by
      rw [hpow, Nat.mod_mul_right_mod]
    rw [← add_assoc, toBytes, ih, Nat.div_div_eq_div_mul, ← hpow, List.append_assoc, toBytes]
    simp only [hdiv, hmod]

@[simp] lemma length_toBytesSigned (k : ℕ) (n : ℤ) : (toBytesSigned k n).length = k :=
  length_toBytes _ _

lemma ofBytesSigned_toBytesSigned {n : ℤ} (hl : -(256 ^ k : ℤ) ≤ 2 * n) (hu : 2 * n < 256 ^ k) :
    ofBytesSigned k (toBytesSigned k n) = n := by
  have hpos : (0 : ℤ) < 256 ^ k := by positivity
  have hmod : (n % 256 ^ k).toNat < 256 ^ k := by
    have hlt := Int.emod_lt_of_pos n hpos
    have hnonneg := Int.emod_nonneg n hpos.ne'
    zify
    rwa [Int.toNat_of_nonneg hnonneg]
  rw [ofBytesSigned, toBytesSigned, ofBytes_toBytes hmod]
  zify
  rw [Int.toNat_of_nonneg (Int.emod_nonneg n hpos.ne')]
  by_cases hn : 0 ≤ n
  · rw [Int.emod_eq_of_lt hn (by omega), if_pos hu]
  · have hn' : n % 256 ^ k = n + 256 ^ k := by
      rw [← Int.add_emod_right, Int.emod_eq_of_lt (by omega) (by omega)]
    rw [hn', if_neg (by omega)]
    ring

lemma toBytesSigned_injective {n m : ℤ} (hn : -(256 ^ k : ℤ) ≤ 2 * n ∧ 2 * n < 256 ^ k)
    (hm : -(256 ^ k : ℤ) ≤ 2 * m ∧ 2 * m < 256 ^ k)
    (h : toBytesSigned k n = toBytesSigned k m) : n = m := by
  rw [← ofBytesSigned_toBytesSigned hn.1 hn.2, h, ofBytesSigned_toBytesSigned hm.1 hm.2]

lemma ofBytesSigned_bounds (hb : b.length = k) :
    -(256 ^ k : ℤ) ≤ 2 * ofBytesSigned k b ∧ 2 * ofBytesSigned k b < 256 ^ k := by
  have hlt : (ofBytes b : ℤ) < 256 ^ k := by
    have h := ofBytes_lt b
    rw [hb] at h
    exact_mod_cast h
  rw [ofBytesSigned]
  zify
  split
  · omega
  · omega

end StellarTags.Library.BigEndian

/-! One digit of a long division by a divisor of two digits: estimating it, and lowering the estimate
until it is exact. -/

namespace StellarTags.Library.LongDivision

/-- Dividing `high * B + digit` by `top * B + low`: `q` is an estimate of the quotient from above,
and `r` is what it leaves of `high` when `top` alone is divided by. -/
structure Estimate (B top low high digit q r : ℕ) : Prop where
  split : q * top + r = high
  above : (high * B + digit) / (top * B + low) ≤ q

variable {B top low high digit q r : ℕ}

lemma Estimate.start (htop : 0 < top) (hdigit : digit < B) :
    Estimate B top low high digit (high / top) (high % top) := by
  refine ⟨Nat.div_add_mod' high top, ?_⟩
  rw [Nat.le_div_iff_mul_le htop]
  have hmul := Nat.div_mul_le_self (high * B + digit) (top * B + low)
  set q := (high * B + digit) / (top * B + low)
  have hlt : q * top * B < (high + 1) * B := by nlinarith [Nat.zero_le (q * low)]
  have := Nat.lt_of_mul_lt_mul_right hlt
  omega

/-- With the top digit of the divisor at least half the base, the estimate is two too high at most. -/
lemma start_close (htop : B ≤ 2 * top) (hlow : low < B) (hhigh : high < top * B + low) :
    high / top ≤ (high * B + digit) / (top * B + low) + 2 := by
  have hpos : 0 < top := by omega
  have hv : 0 < top * B + low := (Nat.zero_le high).trans_lt hhigh
  have hmul : high / top * top ≤ high := Nat.div_mul_le_self high top
  have hlt : high * B + digit < ((high * B + digit) / (top * B + low) + 1) * (top * B + low) := by
    have h := Nat.lt_div_mul_add hv (a := high * B + digit)
    linarith
  set e := high / top
  set q := (high * B + digit) / (top * B + low)
  by_contra hfar
  have he : e ≤ B + 1 := by
    by_contra hbig
    have : (B + 2) * top ≤ e * top := Nat.mul_le_mul_right top (by omega)
    nlinarith
  have h3 : (q + 3) * (top * B + low) ≤ e * (top * B + low) := Nat.mul_le_mul_right _ (by omega)
  have hup : e * (top * B) ≤ high * B := by nlinarith
  have hel : e * low ≤ (B + 1) * low := Nat.mul_le_mul_right low he
  have hbb : B * B ≤ 2 * (top * B) := by nlinarith
  nlinarith

namespace Estimate

/-- The comparison of single digits says exactly whether the estimate is too high. -/
lemma too_high_iff (h : Estimate B top low high digit q r) (hv : 0 < top * B + low) :
    B * r + digit < q * low ↔ (high * B + digit) / (top * B + low) < q := by
  rw [Nat.div_lt_iff_lt_mul hv, ← h.split]
  constructor <;> intro hlt <;> nlinarith

lemma lower (h : Estimate B top low high digit q r)
    (hlt : (high * B + digit) / (top * B + low) < q) :
    Estimate B top low high digit (q - 1) (r + top) := by
  obtain ⟨k, rfl⟩ := Nat.exists_eq_succ_of_ne_zero (Nat.ne_zero_of_lt hlt)
  refine ⟨?_, by simpa using Nat.le_of_lt_succ hlt⟩
  rw [← h.split, Nat.succ_sub_one, Nat.succ_mul, add_assoc, add_comm r]

lemma eq_of_not_too_high (h : Estimate B top low high digit q r) (hv : 0 < top * B + low)
    (hle : ¬ B * r + digit < q * low) : q = (high * B + digit) / (top * B + low) := by
  rw [h.too_high_iff hv, not_lt] at hle
  exact le_antisymm hle h.above

/-- Once the rest has outgrown a digit, the estimate is exact. -/
lemma eq_of_carry (h : Estimate B top low high digit q r) (hv : 0 < top * B + low) (hr : B ≤ r)
    (hq : q ≤ B) (hlow : low < B) : q = (high * B + digit) / (top * B + low) := by
  refine h.eq_of_not_too_high hv (not_lt.mpr ?_)
  calc q * low ≤ B * B := Nat.mul_le_mul hq hlow.le
    _ ≤ B * r := Nat.mul_le_mul_left B hr
    _ ≤ B * r + digit := Nat.le_add_right ..

end Estimate

end StellarTags.Library.LongDivision
