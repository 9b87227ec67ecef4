import Mathlib.Tactic

/-! 256-bit integers as two 128-bit words: their sums, differences, products and shifts. -/

namespace StellarTags.Ethnum

/-- `u128`. -/
abbrev Word : Type := BitVec 128

structure U256 where
  high : Word
  low : Word
  deriving DecidableEq

namespace U256

def from_words (hi lo : Word) : U256 := ⟨hi, lo⟩

def ZERO : U256 := ⟨0, 0⟩

def toBitVec (a : U256) : BitVec 256 := a.high ++ a.low

def toNat (a : U256) : ℕ := a.high.toNat * 2 ^ 128 + a.low.toNat

lemma toNat_lt (a : U256) : a.toNat < 2 ^ 256 := by
  have hh := a.high.isLt
  have hl := a.low.isLt
  unfold toNat
  omega

lemma toNat_toBitVec (a : U256) : a.toBitVec.toNat = a.toNat := by
  rw [toBitVec, BitVec.toNat_append, ← Nat.shiftLeft_add_eq_or_of_lt a.low.isLt, Nat.shiftLeft_eq]
  rfl

lemma toNat_injective : Function.Injective toNat := by
  rintro ⟨h, l⟩ ⟨h', l'⟩ he
  have hl := l.isLt
  have hl' := l'.isLt
  simp only [toNat] at he
  have hhigh : h.toNat = h'.toNat := by omega
  have hlow : l.toNat = l'.toNat := by omega
  rw [BitVec.eq_of_toNat_eq hhigh, BitVec.eq_of_toNat_eq hlow]

end U256

section Checked

/-- Arithmetic that panics on overflow: `none` is the panic. -/
def checkedAdd (a b : Word) : Option Word := if a.toNat + b.toNat < 2 ^ 128 then some (a + b) else none

def checkedSub (a b : Word) : Option Word := if b.toNat ≤ a.toNat then some (a - b) else none

def checkedMul (a b : Word) : Option Word := if a.toNat * b.toNat < 2 ^ 128 then some (a * b) else none

def checkedDiv (a b : Word) : Option Word := if b = 0 then none else some (a / b)

def checkedRem (a b : Word) : Option Word := if b = 0 then none else some (a % b)

def checkedShl (a : Word) (n : ℕ) : Option Word := if n < 128 then some (a <<< n) else none

def checkedShr (a : Word) (n : ℕ) : Option Word := if n < 128 then some (a >>> n) else none

def overflowingAdd (a b : Word) : Word × Bool := (a + b, 2 ^ 128 ≤ a.toNat + b.toNat)

def overflowingSub (a b : Word) : Word × Bool := (a - b, a.toNat < b.toNat)

def overflowingMul (a b : Word) : Word × Bool := (a * b, 2 ^ 128 ≤ a.toNat * b.toNat)

def ofBool (b : Bool) : Word := if b then 1 else 0

/-- The computation does not panic, and its result satisfies `Q`. -/
def Yields {α : Type} (m : Option α) (Q : α → Prop) : Prop := ∃ a, m = some a ∧ Q a

namespace Yields

variable {α β : Type} {m : Option α} {Q Q' : α → Prop} {a b : Word} {n : ℕ}

lemma pure {a : α} (h : Q a) : Yields (some a) Q := ⟨a, rfl, h⟩

lemma mono (h : Yields m Q) (hq : ∀ a, Q a → Q' a) : Yields m Q' := by
  obtain ⟨a, hm, ha⟩ := h
  exact ⟨a, hm, hq a ha⟩

lemma bind {f : α → Option β} {S : β → Prop} (hm : Yields m Q) (hf : ∀ a, Q a → Yields (f a) S) :
    Yields (m >>= f) S := by
  obtain ⟨a, rfl, ha⟩ := hm
  exact hf a ha

lemma add (h : a.toNat + b.toNat < 2 ^ 128) :
    Yields (checkedAdd a b) fun c => c.toNat = a.toNat + b.toNat := by
  exact ⟨a + b, if_pos h, (BitVec.toNat_add a b).trans (Nat.mod_eq_of_lt h)⟩

lemma sub (h : b.toNat ≤ a.toNat) :
    Yields (checkedSub a b) fun c => c.toNat = a.toNat - b.toNat :=
  ⟨a - b, if_pos h, BitVec.toNat_sub_of_le (BitVec.le_def.mpr h)⟩

lemma mul (h : a.toNat * b.toNat < 2 ^ 128) :
    Yields (checkedMul a b) fun c => c.toNat = a.toNat * b.toNat := by
  exact ⟨a * b, if_pos h, (BitVec.toNat_mul a b).trans (Nat.mod_eq_of_lt h)⟩

lemma div (h : 0 < b.toNat) : Yields (checkedDiv a b) fun c => c.toNat = a.toNat / b.toNat := by
  refine ⟨a / b, if_neg fun h0 => ?_, BitVec.toNat_udiv⟩
  rw [h0] at h
  exact lt_irrefl _ h

lemma rem (h : 0 < b.toNat) : Yields (checkedRem a b) fun c => c.toNat = a.toNat % b.toNat := by
  refine ⟨a % b, if_neg fun h0 => ?_, BitVec.toNat_umod⟩
  rw [h0] at h
  exact lt_irrefl _ h

lemma shl (h : n < 128) :
    Yields (checkedShl a n) fun c => c.toNat = a.toNat * 2 ^ n % 2 ^ 128 := by
  refine ⟨a <<< n, if_pos h, ?_⟩
  change (a <<< n).toNat = _
  rw [BitVec.toNat_shiftLeft, Nat.shiftLeft_eq]

lemma shr (h : n < 128) : Yields (checkedShr a n) fun c => c.toNat = a.toNat / 2 ^ n := by
  refine ⟨a >>> n, if_pos h, ?_⟩
  change (a >>> n).toNat = _
  rw [BitVec.toNat_ushiftRight, Nat.shiftRight_eq_div_pow]

end Yields

end Checked

section Operations

def add3 (a b : U256) : U256 :=
  let (lo, carry) := overflowingAdd a.low b.low
  let hi := a.high + ofBool carry + b.high
  .from_words hi lo

def uaddc (a b : U256) : U256 × Bool :=
  let (lo, carry_lo) := overflowingAdd a.low b.low
  let (hi, carry_c) := overflowingAdd a.high (ofBool carry_lo)
  let (hi, carry_hi) := overflowingAdd hi b.high
  (.from_words hi lo, carry_c || carry_hi)

def sub3 (a b : U256) : U256 :=
  let (lo, carry) := overflowingSub a.low b.low
  let hi := a.high - ofBool carry - b.high
  .from_words hi lo

def usubc (a b : U256) : U256 × Bool :=
  let (lo, carry_lo) := overflowingSub a.low b.low
  let (hi, carry_c) := overflowingSub a.high (ofBool carry_lo)
  let (hi, carry_hi) := overflowingSub hi b.high
  (.from_words hi lo, carry_c || carry_hi)

def LOWER_MASK : Word := 0xFFFFFFFFFFFFFFFF

def umulddi3 (a b : Word) : Option U256 := do
  let low ← checkedMul (a &&& LOWER_MASK) (b &&& LOWER_MASK)
  let t ← checkedShr low 64
  let low := low &&& LOWER_MASK
  let t ← checkedAdd t (← checkedMul (← checkedShr a 64) (b &&& LOWER_MASK))
  let low ← checkedAdd low (← checkedShl (t &&& LOWER_MASK) 64)
  let high ← checkedShr t 64
  let t ← checkedShr low 64
  let low := low &&& LOWER_MASK
  let t ← checkedAdd t (← checkedMul (← checkedShr b 64) (a &&& LOWER_MASK))
  let low ← checkedAdd low (← checkedShl (t &&& LOWER_MASK) 64)
  let high ← checkedAdd high (← checkedShr t 64)
  let high ← checkedAdd high (← checkedMul (← checkedShr a 64) (← checkedShr b 64))
  return .from_words high low

def mul3 (a b : U256) : Option U256 := do
  let r ← umulddi3 a.low b.low
  let hi_lo := a.high * b.low
  let lo_hi := a.low * b.high
  return { r with high := r.high + (hi_lo + lo_hi) }

def umulc (a b : U256) : Option (U256 × Bool) := do
  let res ← umulddi3 a.low b.low
  let (hi_lo, overflow_hi_lo) := overflowingMul a.high b.low
  let (lo_hi, overflow_lo_hi) := overflowingMul a.low b.high
  let (hi, overflow_hi) := overflowingAdd hi_lo lo_hi
  let (high, overflow_high) := overflowingAdd res.high hi
  let overflow_hi_hi := a.high ≠ 0 ∧ b.high ≠ 0
  return ({ res with high },
    overflow_hi_lo || overflow_lo_hi || overflow_hi || overflow_high || overflow_hi_hi)

def shl3 (a : U256) (b : ℕ) : Option U256 :=
  if b = 0 then some a
  else if b < 128 then do
    let hi := (← checkedShl a.high b) ||| (← checkedShr a.low (128 - b))
    return .from_words hi (← checkedShl a.low b)
  else do
    return .from_words (← checkedShl a.low (b &&& 0x7f)) 0

def shr3 (a : U256) (b : ℕ) : Option U256 :=
  if b = 0 then some a
  else if b < 128 then do
    let lo := (← checkedShr a.low b) ||| (← checkedShl a.high (128 - b))
    return .from_words (← checkedShr a.high b) lo
  else do
    return .from_words 0 (← checkedShr a.high (b &&& 0x7f))

end Operations

section Sums

variable (a b : U256) {x y z : Word} {c : Bool}

@[simp] lemma toNat_ofBool (c : Bool) : (ofBool c).toNat = c.toNat := by
  cases c <;> rfl

lemma overflowingAdd_spec (h : overflowingAdd x y = (z, c)) :
    z.toNat + 2 ^ 128 * c.toNat = x.toNat + y.toNat := by
  obtain ⟨rfl, rfl⟩ := Prod.ext_iff.mp h.symm
  have hx := x.isLt
  have hy := y.isLt
  simp only [overflowingAdd, BitVec.toNat_add]
  by_cases hc : 2 ^ 128 ≤ x.toNat + y.toNat
  · rw [decide_eq_true hc, Bool.toNat_true]
    omega
  · rw [decide_eq_false hc, Bool.toNat_false]
    omega

lemma overflowingSub_spec (h : overflowingSub x y = (z, c)) :
    z.toNat + y.toNat = x.toNat + 2 ^ 128 * c.toNat := by
  obtain ⟨rfl, rfl⟩ := Prod.ext_iff.mp h.symm
  have hx := x.isLt
  have hy := y.isLt
  simp only [overflowingSub, BitVec.toNat_sub]
  by_cases hc : x.toNat < y.toNat
  · rw [decide_eq_true hc, Bool.toNat_true]
    omega
  · rw [decide_eq_false hc, Bool.toNat_false]
    omega

lemma toNat_add3 : (add3 a b).toNat = (a.toNat + b.toNat) % 2 ^ 256 := by
  rcases hlow : overflowingAdd a.low b.low with ⟨lo, carry⟩
  have h := overflowingAdd_spec hlow
  have hlo := lo.isLt
  have hc := carry.toNat_le
  simp only [add3, hlow, U256.from_words, U256.toNat, BitVec.toNat_add, toNat_ofBool]
  omega

lemma toNat_sub3 : (sub3 a b).toNat = (a.toNat + 2 ^ 256 - b.toNat) % 2 ^ 256 := by
  rcases hlow : overflowingSub a.low b.low with ⟨lo, carry⟩
  have h := overflowingSub_spec hlow
  have hlo := lo.isLt
  have hc := carry.toNat_le
  have ha := a.high.isLt
  have hb := b.high.isLt
  simp only [sub3, hlow, U256.from_words, U256.toNat, BitVec.toNat_sub, toNat_ofBool]
  omega

/-- With the carry, the sum is exact. -/
lemma toNat_uaddc : (uaddc a b).1.toNat + 2 ^ 256 * (uaddc a b).2.toNat = a.toNat + b.toNat := by
  rcases hlow : overflowingAdd a.low b.low with ⟨lo, carry_lo⟩
  rcases hmid : overflowingAdd a.high (ofBool carry_lo) with ⟨mid, carry_c⟩
  rcases hhigh : overflowingAdd mid b.high with ⟨hi, carry_hi⟩
  have h1 := overflowingAdd_spec hlow
  have h2 := overflowingAdd_spec hmid
  have h3 := overflowingAdd_spec hhigh
  have ha := a.high.isLt
  have hb := b.high.isLt
  simp only [uaddc, hlow, hmid, hhigh, U256.from_words, U256.toNat]
  rw [toNat_ofBool] at h2
  have hl := carry_lo.toNat_le
  cases carry_c <;> cases carry_hi <;> simp only [Bool.toNat_true, Bool.toNat_false,
    Bool.or_true, Bool.or_false, Bool.or_self] at * <;> omega

lemma toNat_usubc : (usubc a b).1.toNat + b.toNat = a.toNat + 2 ^ 256 * (usubc a b).2.toNat := by
  rcases hlow : overflowingSub a.low b.low with ⟨lo, carry_lo⟩
  rcases hmid : overflowingSub a.high (ofBool carry_lo) with ⟨mid, carry_c⟩
  rcases hhigh : overflowingSub mid b.high with ⟨hi, carry_hi⟩
  have h1 := overflowingSub_spec hlow
  have h2 := overflowingSub_spec hmid
  have h3 := overflowingSub_spec hhigh
  have hm := mid.isLt
  have hh := hi.isLt
  simp only [usubc, hlow, hmid, hhigh, U256.from_words, U256.toNat]
  rw [toNat_ofBool] at h2
  have hl := carry_lo.toNat_le
  cases carry_c <;> cases carry_hi <;> simp only [Bool.toNat_true, Bool.toNat_false,
    Bool.or_true, Bool.or_false, Bool.or_self] at * <;> omega

end Sums

section Products

variable (a b : U256) (x y : Word)

lemma toNat_lower : (x &&& LOWER_MASK).toNat = x.toNat % 2 ^ 64 := by
  rw [BitVec.toNat_and, show LOWER_MASK.toNat = 2 ^ 64 - 1 from rfl, Nat.and_two_pow_sub_one_eq_mod]

lemma halves_mul_lt {m n : ℕ} (hm : m < 2 ^ 64) (hn : n < 2 ^ 64) :
    m * n ≤ (2 ^ 64 - 1) * (2 ^ 64 - 1) :=
  Nat.mul_le_mul (Nat.le_pred_of_lt hm) (Nat.le_pred_of_lt hn)

/-- The schoolbook product of four halves is exact, and no step of it overflows. -/
lemma umulddi3_yields : Yields (umulddi3 x y) fun r => r.toNat = x.toNat * y.toNat := by
  have hx := x.isLt
  have hy := y.isLt
  obtain ⟨x0, hx0⟩ : ∃ n, n = x.toNat % 2 ^ 64 := ⟨_, rfl⟩
  obtain ⟨x1, hx1⟩ : ∃ n, n = x.toNat / 2 ^ 64 := ⟨_, rfl⟩
  obtain ⟨y0, hy0⟩ : ∃ n, n = y.toNat % 2 ^ 64 := ⟨_, rfl⟩
  obtain ⟨y1, hy1⟩ : ∃ n, n = y.toNat / 2 ^ 64 := ⟨_, rfl⟩
  have h00 : x0 * y0 ≤ (2 ^ 64 - 1) * (2 ^ 64 - 1) := halves_mul_lt (by omega) (by omega)
  have h10 : x1 * y0 ≤ (2 ^ 64 - 1) * (2 ^ 64 - 1) := halves_mul_lt (by omega) (by omega)
  have h01 : y1 * x0 ≤ (2 ^ 64 - 1) * (2 ^ 64 - 1) := halves_mul_lt (by omega) (by omega)
  have h11 : x1 * y1 ≤ (2 ^ 64 - 1) * (2 ^ 64 - 1) := halves_mul_lt (by omega) (by omega)
  have hprod : x.toNat * y.toNat =
      x1 * y1 * 2 ^ 128 + (x1 * y0 + y1 * x0) * 2 ^ 64 + x0 * y0 := by
    have hx' : x.toNat = x1 * 2 ^ 64 + x0 := by omega
    have hy' : y.toNat = y1 * 2 ^ 64 + y0 := by omega
    rw [hx', hy']
    ring
  rw [hprod]
  refine .bind (.mul (by rw [toNat_lower, toNat_lower, ← hx0, ← hy0]; omega)) fun low e => ?_
  rw [toNat_lower, toNat_lower, ← hx0, ← hy0] at e
  refine .bind (.shr (by decide)) fun t ht => .bind (.shr (by decide)) fun xh hxh => ?_
  rw [← hx1] at hxh
  refine .bind (.mul (by rw [hxh, toNat_lower, ← hy0]; omega)) fun m10 e10 => ?_
  rw [hxh, toNat_lower, ← hy0] at e10
  refine .bind (.add (by omega)) fun t1 ht1 => .bind (.shl (by decide)) fun s1 hs1 => ?_
  rw [toNat_lower] at hs1
  refine .bind (.add (by rw [toNat_lower]; omega)) fun low1 hlow1 => ?_
  rw [toNat_lower] at hlow1
  refine .bind (.shr (by decide)) fun high hhigh => .bind (.shr (by decide)) fun t2 ht2 => ?_
  refine .bind (.shr (by decide)) fun yh hyh => ?_
  rw [← hy1] at hyh
  refine .bind (.mul (by rw [hyh, toNat_lower, ← hx0]; omega)) fun m01 e01 => ?_
  rw [hyh, toNat_lower, ← hx0] at e01
  refine .bind (.add (by omega)) fun t3 ht3 => .bind (.shl (by decide)) fun s2 hs2 => ?_
  rw [toNat_lower] at hs2
  refine .bind (.add (by rw [toNat_lower]; omega)) fun low2 hlow2 => ?_
  rw [toNat_lower] at hlow2
  refine .bind (.shr (by decide)) fun c hc => .bind (.add (by omega)) fun high1 hhigh1 => ?_
  refine .bind (.shr (by decide)) fun xh' hxh' => .bind (.shr (by decide)) fun yh' hyh' => ?_
  rw [← hx1] at hxh'
  rw [← hy1] at hyh'
  refine .bind (.mul (by rw [hxh', hyh']; omega)) fun m11 e11 => ?_
  rw [hxh', hyh'] at e11
  refine .bind (.add (by omega)) fun high2 hhigh2 => .pure ?_
  simp only [U256.from_words, U256.toNat]
  omega

lemma toNat_mul_words : a.toNat * b.toNat =
    a.high.toNat * b.high.toNat * 2 ^ 256 +
      (a.high.toNat * b.low.toNat + a.low.toNat * b.high.toNat) * 2 ^ 128 +
      a.low.toNat * b.low.toNat := by
  simp only [U256.toNat]
  ring

lemma mul3_yields : Yields (mul3 a b) fun r => r.toNat = a.toNat * b.toNat % 2 ^ 256 := by
  refine .bind (umulddi3_yields a.low b.low) fun r hr => .pure ?_
  rw [toNat_mul_words, ← hr]
  have hl := r.low.isLt
  simp only [U256.toNat, BitVec.toNat_add, BitVec.toNat_mul]
  generalize a.high.toNat * b.low.toNat = p10
  generalize a.low.toNat * b.high.toNat = p01
  generalize a.high.toNat * b.high.toNat = p11
  omega

/-- The flag is up exactly if the product does not fit. -/
lemma umulc_yields : Yields (umulc a b) fun r =>
    r.1.toNat = a.toNat * b.toNat % 2 ^ 256 ∧ (r.2 = true ↔ 2 ^ 256 ≤ a.toNat * b.toNat) := by
  refine .bind (umulddi3_yields a.low b.low) fun r hr => .pure ?_
  have hl := r.low.isLt
  have hh := r.high.isLt
  have hzero (w : Word) : w = 0 ↔ w.toNat = 0 := (BitVec.toNat_inj (y := 0)).symm
  rw [toNat_mul_words, ← hr]
  simp only [U256.toNat, BitVec.toNat_add, BitVec.toNat_mul, ne_eq,
    hzero, Bool.or_eq_true, decide_eq_true_eq]
  have h10 : a.high.toNat = 0 → a.high.toNat * b.low.toNat = 0 := fun h => by rw [h, Nat.zero_mul]
  have h01 : b.high.toNat = 0 → a.low.toNat * b.high.toNat = 0 := fun h => by rw [h, Nat.mul_zero]
  have h11 : a.high.toNat * b.high.toNat = 0 ↔ a.high.toNat = 0 ∨ b.high.toNat = 0 :=
    Nat.mul_eq_zero
  generalize a.high.toNat * b.high.toNat = p11 at *
  generalize a.low.toNat * b.high.toNat = p01 at *
  generalize a.high.toNat * b.low.toNat = p10 at *
  refine ⟨?_, ?_⟩ <;> omega

end Products

section Shifts

variable {a : U256} {x y : Word} {h l n : ℕ}

lemma mul_pow_mod (hn : n ≤ 128) : h * 2 ^ n % 2 ^ 128 = h % 2 ^ (128 - n) * 2 ^ n := by
  rw [← Nat.mul_mod_mul_right, ← pow_add, Nat.sub_add_cancel hn]

lemma div_pow_lt (hl : l < 2 ^ 128) (hn : n ≤ 128) : l / 2 ^ (128 - n) < 2 ^ n := by
  rwa [Nat.div_lt_iff_lt_mul (by positivity), ← pow_add, Nat.add_sub_cancel' hn]

/-- What is shifted in fills the place that the shift has cleared. -/
lemma toNat_or_shifted (hn : n ≤ 128) (hl : l < 2 ^ 128) (hx : x.toNat = h * 2 ^ n % 2 ^ 128)
    (hy : y.toNat = l / 2 ^ (128 - n)) :
    (x ||| y).toNat = h * 2 ^ n % 2 ^ 128 + l / 2 ^ (128 - n) := by
  rw [BitVec.toNat_or, hx, hy, mul_pow_mod hn, ← Nat.shiftLeft_eq,
    Nat.shiftLeft_add_eq_or_of_lt (div_pow_lt hl hn)]

lemma toNat_or_shifted_comm (hn : n ≤ 128) (hl : l < 2 ^ 128) (hx : x.toNat = h * 2 ^ n % 2 ^ 128)
    (hy : y.toNat = l / 2 ^ (128 - n)) :
    (y ||| x).toNat = h * 2 ^ n % 2 ^ 128 + l / 2 ^ (128 - n) := by
  rw [BitVec.or_comm, toNat_or_shifted hn hl hx hy]

lemma mul_pow_div (hn : n ≤ 128) : l * 2 ^ n / 2 ^ 128 = l / 2 ^ (128 - n) := by
  have hpow : (2 : ℕ) ^ 128 = 2 ^ (128 - n) * 2 ^ n := by rw [← pow_add, Nat.sub_add_cancel hn]
  rw [hpow, Nat.mul_div_mul_right _ _ (by positivity)]

lemma shl3_yields (hn : n < 256) : Yields (shl3 a n) fun r => r.toNat = a.toNat * 2 ^ n % 2 ^ 256 := by
  have ha := a.toNat_lt
  have hl := a.low.isLt
  rw [shl3]
  by_cases h0 : n = 0
  · subst h0
    rw [if_pos rfl, pow_zero, mul_one, Nat.mod_eq_of_lt ha]
    exact .pure rfl
  rw [if_neg h0]
  by_cases h128 : n < 128
  · rw [if_pos h128]
    refine .bind (.shl h128) fun x hx => .bind (.shr (by omega)) fun y hy => ?_
    refine .bind (.shl h128) fun lo hlo => .pure ?_
    have hor := toNat_or_shifted h128.le hl hx hy
    have hlt := (x ||| y).isLt
    rw [hor] at hlt
    have hdiv := Nat.div_add_mod (a.low.toNat * 2 ^ n) (2 ^ 128)
    rw [mul_pow_div h128.le] at hdiv
    have hexpand : a.toNat * 2 ^ n =
        a.high.toNat * 2 ^ n * 2 ^ 128 + a.low.toNat * 2 ^ n := by
      rw [U256.toNat]
      ring
    simp only [U256.from_words]
    rw [hexpand, U256.toNat, hor, hlo]
    generalize a.high.toNat * 2 ^ n = u at *
    generalize a.low.toNat * 2 ^ n = v at *
    generalize a.low.toNat / 2 ^ (128 - n) = c at *
    omega
  · rw [if_neg h128]
    have hand : n &&& 0x7f = n - 128 := by
      rw [show 0x7f = 2 ^ 7 - 1 from rfl, Nat.and_two_pow_sub_one_eq_mod]
      omega
    rw [hand]
    refine .bind (.shl (by omega)) fun hi hhi => .pure ?_
    have hexpand : a.toNat * 2 ^ n =
        (a.high.toNat * 2 ^ (n - 128) * 2 ^ 128 + a.low.toNat * 2 ^ (n - 128)) * 2 ^ 128 := by
      have hpow : (2 : ℕ) ^ n = 2 ^ (n - 128) * 2 ^ 128 := by
        rw [← pow_add, Nat.sub_add_cancel (by omega)]
      rw [U256.toNat, hpow]
      ring
    simp only [U256.from_words]
    rw [hexpand, U256.toNat, hhi]
    generalize a.high.toNat * 2 ^ (n - 128) = u
    generalize a.low.toNat * 2 ^ (n - 128) = v
    change _ * 2 ^ 128 + 0 = _
    omega

lemma shr3_yields (hn : n < 256) : Yields (shr3 a n) fun r => r.toNat = a.toNat / 2 ^ n := by
  have ha := a.high.isLt
  have hl := a.low.isLt
  rw [shr3]
  by_cases h0 : n = 0
  · subst h0
    rw [if_pos rfl, pow_zero, Nat.div_one]
    exact .pure rfl
  rw [if_neg h0]
  by_cases h128 : n < 128
  · rw [if_pos h128]
    refine .bind (.shr h128) fun y hy => .bind (.shl (by omega)) fun x hx => ?_
    refine .bind (.shr h128) fun hi hhi => .pure ?_
    have hback : 128 - (128 - n) = n := by omega
    have hor := toNat_or_shifted_comm (n := 128 - n) (by omega) hl hx (by rw [hy, hback])
    rw [hback] at hor
    have hdiv := Nat.div_add_mod (a.high.toNat * 2 ^ (128 - n)) (2 ^ 128)
    rw [mul_pow_div (by omega), hback] at hdiv
    have hexpand : a.toNat / 2 ^ n =
        a.high.toNat * 2 ^ (128 - n) + a.low.toNat / 2 ^ n := by
      have hpow : (2 : ℕ) ^ 128 = 2 ^ (128 - n) * 2 ^ n := by
        rw [← pow_add, Nat.sub_add_cancel h128.le]
      rw [U256.toNat, hpow, ← mul_assoc, add_comm, Nat.add_mul_div_right _ _ (by positivity),
        add_comm]
    simp only [U256.from_words]
    rw [hexpand, U256.toNat, hor, hhi]
    omega
  · rw [if_neg h128]
    have hand : n &&& 0x7f = n - 128 := by
      rw [show 0x7f = 2 ^ 7 - 1 from rfl, Nat.and_two_pow_sub_one_eq_mod]
      omega
    rw [hand]
    refine .bind (.shr (by omega)) fun lo hlo => .pure ?_
    have hexpand : a.toNat / 2 ^ n = a.high.toNat / 2 ^ (n - 128) := by
      have hpow : (2 : ℕ) ^ n = 2 ^ 128 * 2 ^ (n - 128) := by
        rw [← pow_add, Nat.add_sub_cancel' (by omega)]
      rw [hpow, ← Nat.div_div_eq_div_mul, U256.toNat]
      congr 1
      omega
    simp only [U256.from_words]
    rw [hexpand, U256.toNat, hlo]
    simp

end Shifts

/-- Word by word, the operations are those of bit vectors of 256 bits: what wraps around wraps around
as they do, the flags say exactly when the true result does not fit, and nothing panics. -/
theorem words_refine (a b : U256) :
    ((add3 a b).toBitVec = a.toBitVec + b.toBitVec ∧
      (sub3 a b).toBitVec = a.toBitVec - b.toBitVec ∧
      Yields (mul3 a b) fun r => r.toBitVec = a.toBitVec * b.toBitVec) ∧
    ((uaddc a b).1 = add3 a b ∧ ((uaddc a b).2 = true ↔ 2 ^ 256 ≤ a.toNat + b.toNat)) ∧
    ((usubc a b).1 = sub3 a b ∧ ((usubc a b).2 = true ↔ a.toNat < b.toNat)) ∧
    (Yields (umulc a b) fun r => mul3 a b = some r.1 ∧ (r.2 = true ↔ 2 ^ 256 ≤ a.toNat * b.toNat)) ∧
    ∀ n < 256, (Yields (shl3 a n) fun r => r.toBitVec = a.toBitVec <<< n) ∧
      Yields (shr3 a n) fun r => r.toBitVec = a.toBitVec >>> n := by
  have ha := a.toNat_lt
  have hb := b.toNat_lt
  refine ⟨⟨?_, ?_, ?_⟩, ⟨?_, ?_⟩, ⟨?_, ?_⟩, ?_, fun n hn => ⟨?_, ?_⟩⟩
  · apply BitVec.eq_of_toNat_eq
    rw [BitVec.toNat_add, U256.toNat_toBitVec, U256.toNat_toBitVec, U256.toNat_toBitVec, toNat_add3]
  · apply BitVec.eq_of_toNat_eq
    rw [BitVec.toNat_sub, U256.toNat_toBitVec, U256.toNat_toBitVec, U256.toNat_toBitVec, toNat_sub3]
    congr 1
    omega
  · refine (mul3_yields a b).mono fun r hr => BitVec.eq_of_toNat_eq ?_
    rw [BitVec.toNat_mul, U256.toNat_toBitVec, U256.toNat_toBitVec, U256.toNat_toBitVec, hr]
  · have h := toNat_uaddc a b
    have hr := (uaddc a b).1.toNat_lt
    apply U256.toNat_injective
    rw [toNat_add3]
    omega
  · have h := toNat_uaddc a b
    have hr := (uaddc a b).1.toNat_lt
    cases hc : (uaddc a b).2 <;> simp only [hc, Bool.toNat_true, Bool.toNat_false] at h ⊢ <;>
      simp only [Bool.false_eq_true, false_iff, true_iff] <;> omega
  · have h := toNat_usubc a b
    have hr := (usubc a b).1.toNat_lt
    apply U256.toNat_injective
    rw [toNat_sub3]
    have hc := (usubc a b).2.toNat_le
    omega
  · have h := toNat_usubc a b
    have hr := (usubc a b).1.toNat_lt
    cases hc : (usubc a b).2 <;> simp only [hc, Bool.toNat_true, Bool.toNat_false] at h ⊢ <;>
      simp only [Bool.false_eq_true, false_iff, true_iff] <;> omega
  · obtain ⟨m, hm, hmv⟩ := mul3_yields a b
    refine (umulc_yields a b).mono fun r hr => ⟨?_, hr.2⟩
    rw [hm, U256.toNat_injective (hmv.trans hr.1.symm)]
  · refine (shl3_yields hn).mono fun r hr => BitVec.eq_of_toNat_eq ?_
    rw [BitVec.toNat_shiftLeft, U256.toNat_toBitVec, U256.toNat_toBitVec, hr, Nat.shiftLeft_eq]
  · refine (shr3_yields hn).mono fun r hr => BitVec.eq_of_toNat_eq ?_
    rw [BitVec.toNat_ushiftRight, U256.toNat_toBitVec, U256.toNat_toBitVec, hr,
      Nat.shiftRight_eq_div_pow]

end StellarTags.Ethnum
