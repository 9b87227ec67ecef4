import StellarTags.Ethnum.Words
import StellarTags.Library.PositionalNumerals

/-! The division of 256-bit integers, word by word: it is exact, and panics for a divisor of zero
only. -/

namespace StellarTags.Ethnum

open Library.LongDivision

section Operations

def leading_zeros (x : Word) : ℕ := if x = 0 then 128 else 127 - Nat.log2 x.toNat

/-- The number base: half a word. -/
def B : Word := 0x10000000000000000

/-- A word that the code asserts not to be zero. -/
def nonZero (x : Word) : Option Word := if x = 0 then none else some x

def shl_nz (x : Word) (n : ℕ) : Option Word := do
  nonZero (← checkedShl x n)

def shr_nz (x : Word) (n : ℕ) : Option Word := do
  nonZero (← checkedShr x n)

def tooHigh (vn0 un q rhat : Word) : Option Bool :=
  if q ≥ B then some true
  else do
    let product ← checkedMul q vn0
    let rest ← checkedAdd (← checkedMul B rhat) un
    return product > rest

/-- The loop that lowers a digit, with so many iterations left. -/
def lowerDigit (vn1 vn0 un : Word) : ℕ → Word → Word → Option Word
  | 0, q, rhat => do
    if ← tooHigh vn0 un q rhat then none else return q
  | fuel + 1, q, rhat => do
    if ← tooHigh vn0 un q rhat then
      let q ← checkedSub q 1
      let rhat ← checkedAdd rhat vn1
      if rhat ≥ B then return q else lowerDigit vn1 vn0 un fuel q rhat
    else return q

/-- The divisor and the dividend, shifted so far that the divisor fills its word. -/
def normalize (s : ℕ) (u1 u0 v : Word) : Option (Word × Word × Word) :=
  if s > 0 then do
    let v ← shl_nz v s
    let un128 := (← checkedShl u1 s) ||| (← checkedShr u0 (128 - s))
    let un10 ← checkedShl u0 s
    return (v, un128, un10)
  else return (v, u1, u0)

/-- The quotient and the remainder. -/
def udiv256_by_128_to_128 (u1 u0 v : Word) : Option (Word × Word) := do
  guard (v > u1)
  let s := leading_zeros v
  guard (s ≠ 128)
  let (v, un128, un10) ← normalize s u1 u0 v
  let vn1 ← shr_nz v 64
  let vn0 := v &&& LOWER_MASK
  let un1 ← checkedShr un10 64
  let un0 := un10 &&& LOWER_MASK
  let q1 ← checkedDiv un128 vn1
  let rhat ← checkedSub un128 (← checkedMul q1 vn1)
  let q1 ← lowerDigit vn1 vn0 un1 2 q1 rhat
  let un21 := un128 * B + un1 - q1 * v
  let q0 ← checkedDiv un21 vn1
  let rhat ← checkedSub un21 (← checkedMul q0 vn1)
  let q0 ← lowerDigit vn1 vn0 un0 2 q0 rhat
  let r ← checkedShr (un21 * B + un0 - q0 * v) s
  return (← checkedAdd (← checkedMul q1 B) q0, r)

end Operations

section HalfWords

variable {x y q v : Word} {r n : ℕ}

lemma toNat_B : B.toNat = 2 ^ 64 := rfl

lemma ge_B_iff : x ≥ B ↔ 2 ^ 64 ≤ x.toNat := by
  rw [ge_iff_le, BitVec.le_def, toNat_B]

lemma nonZero_yields {Q : Word → Prop} (hx : 0 < x.toNat) (h : Q x) : Yields (nonZero x) Q := by
  refine ⟨x, if_neg fun h0 => ?_, h⟩
  rw [h0] at hx
  exact lt_irrefl _ hx

lemma guard_yields {p : Prop} [Decidable p] (hp : p) : Yields (guard p) fun _ => True :=
  ⟨(), if_pos hp, trivial⟩

lemma leading_zeros_spec (hx : 0 < x.toNat) : leading_zeros x < 128 ∧
    2 ^ 127 ≤ x.toNat * 2 ^ leading_zeros x ∧ x.toNat * 2 ^ leading_zeros x < 2 ^ 128 := by
  have hlow : 2 ^ Nat.log2 x.toNat ≤ x.toNat := Nat.log2_self_le hx.ne'
  have hhigh : x.toNat < 2 ^ (Nat.log2 x.toNat + 1) := Nat.lt_log2_self
  have hlog : Nat.log2 x.toNat < 128 := (Nat.log2_lt hx.ne').mpr x.isLt
  have hs : leading_zeros x = 127 - Nat.log2 x.toNat := if_neg fun h0 => by
    rw [h0] at hx
    exact lt_irrefl _ hx
  rw [hs]
  refine ⟨by omega, ?_, ?_⟩
  · calc 2 ^ 127 = 2 ^ Nat.log2 x.toNat * 2 ^ (127 - Nat.log2 x.toNat) := by
          rw [← pow_add, Nat.add_sub_cancel' (by omega)]
      _ ≤ _ := Nat.mul_le_mul_right _ hlow
  · calc _ < 2 ^ (Nat.log2 x.toNat + 1) * 2 ^ (127 - Nat.log2 x.toNat) :=
          Nat.mul_lt_mul_of_pos_right hhigh (by positivity)
      _ = 2 ^ 128 := by
          rw [← pow_add]
          congr 1
          omega

/-- A difference that wraps around twice is exact where the true one is a word. -/
lemma toNat_wrapping (h : x.toNat * 2 ^ 64 + y.toNat = q.toNat * v.toNat + r) (hr : r < 2 ^ 128) :
    (x * B + y - q * v).toNat = r := by
  have hsum : x * B + y = q * v + BitVec.ofNat 128 r := by
    apply BitVec.eq_of_toNat_eq
    rw [BitVec.toNat_add, BitVec.toNat_mul, toNat_B, Nat.mod_add_mod, h, BitVec.toNat_add,
      BitVec.toNat_mul, BitVec.toNat_ofNat, ← Nat.add_mod]
  rw [hsum, BitVec.add_comm, BitVec.add_sub_cancel, BitVec.toNat_ofNat, Nat.mod_eq_of_lt hr]

end HalfWords

section Digits

variable {vn1 vn0 un q rhat : Word} {high : ℕ}

/-- The quotient digit that the loop is after. -/
abbrev digit (high : ℕ) (vn1 vn0 un : Word) : ℕ :=
  (high * 2 ^ 64 + un.toNat) / (vn1.toNat * 2 ^ 64 + vn0.toNat)

lemma tooHigh_yields (h : Estimate (2 ^ 64) vn1.toNat vn0.toNat high un.toNat q.toNat rhat.toNat)
    (hv : 0 < vn1.toNat) (hlow : vn0.toNat < 2 ^ 64) (hun : un.toNat < 2 ^ 64)
    (hr : rhat.toNat < 2 ^ 64) (hd : digit high vn1 vn0 un < 2 ^ 64) :
    Yields (tooHigh vn0 un q rhat) fun b => b = decide (digit high vn1 vn0 un < q.toNat) := by
  rw [tooHigh]
  by_cases hq : q ≥ B
  · rw [if_pos hq]
    exact .pure (decide_eq_true (hd.trans_le (ge_B_iff.mp hq))).symm
  · have hq' : q.toNat < 2 ^ 64 := not_le.mp fun hge => hq (ge_B_iff.mpr hge)
    rw [if_neg hq]
    have hprod := halves_mul_lt hq' hlow
    refine .bind (.mul (by omega)) fun product hp => ?_
    refine .bind (.mul (by rw [toNat_B]; omega)) fun shifted hs => ?_
    rw [toNat_B] at hs
    refine .bind (.add (by omega)) fun rest hrest => .pure ?_
    refine decide_eq_decide.mpr ?_
    rw [gt_iff_lt, BitVec.lt_def, hrest, hs, hp]
    exact h.too_high_iff (by positivity)

/-- At most so many iterations bring an estimate that is so much too high down to the digit. -/
lemma lowerDigit_yields {fuel : ℕ}
    (h : Estimate (2 ^ 64) vn1.toNat vn0.toNat high un.toNat q.toNat rhat.toNat)
    (htop : 0 < vn1.toNat) (htop' : vn1.toNat < 2 ^ 64) (hlow : vn0.toNat < 2 ^ 64)
    (hun : un.toNat < 2 ^ 64) (hr : rhat.toNat < 2 ^ 64) (hd : digit high vn1 vn0 un < 2 ^ 64)
    (hq : q.toNat ≤ digit high vn1 vn0 un + fuel) (hq' : q.toNat ≤ 2 ^ 64 + 1) :
    Yields (lowerDigit vn1 vn0 un fuel q rhat) fun d => d.toNat = digit high vn1 vn0 un := by
  have hv : 0 < vn1.toNat * 2 ^ 64 + vn0.toNat := by positivity
  induction fuel generalizing q rhat with
  | zero =>
    rw [lowerDigit]
    refine .bind (tooHigh_yields h htop hlow hun hr hd) fun b hb => ?_
    rw [Nat.add_zero] at hq
    rw [hb, decide_eq_false (not_lt.mpr hq)]
    exact .pure (le_antisymm hq h.above)
  | succ fuel ih =>
    rw [lowerDigit]
    refine .bind (tooHigh_yields h htop hlow hun hr hd) fun b hb => ?_
    subst hb
    by_cases hlt : digit high vn1 vn0 un < q.toNat
    · rw [decide_eq_true hlt, if_pos rfl]
      have hone : (1 : Word).toNat = 1 := rfl
      refine .bind (.sub (by omega)) fun q' hq1 => .bind (.add (by omega)) fun rhat' hr1 => ?_
      rw [hone] at hq1
      have hnext := h.lower hlt
      rw [← hq1, ← hr1] at hnext
      by_cases hcarry : rhat' ≥ B
      · rw [if_pos hcarry]
        exact .pure (hnext.eq_of_carry hv (ge_B_iff.mp hcarry) (by omega) hlow)
      · rw [if_neg hcarry]
        exact ih hnext (not_le.mp fun hge => hcarry (ge_B_iff.mpr hge)) (by omega) (by omega)
    · rw [decide_eq_false hlt, if_neg Bool.false_ne_true]
      exact .pure (le_antisymm (not_lt.mp hlt) h.above)

end Digits

section TwoDigits

variable {v u x y vn1 vn0 un q rhat : Word} {high : ℕ}

/-- The digit that the estimate of a normalised divisor is lowered to. -/
lemma first_digit (htop : 2 ^ 63 ≤ vn1.toNat) (htop' : vn1.toNat < 2 ^ 64)
    (hlow : vn0.toNat < 2 ^ 64) (hun : un.toNat < 2 ^ 64)
    (hhigh : high < vn1.toNat * 2 ^ 64 + vn0.toNat) (hq : q.toNat = high / vn1.toNat)
    (hr : rhat.toNat = high % vn1.toNat) :
    Yields (lowerDigit vn1 vn0 un 2 q rhat) fun d => d.toNat = digit high vn1 vn0 un := by
  have hpos : 0 < vn1.toNat := by omega
  have hclose : high / vn1.toNat ≤ digit high vn1 vn0 un + 2 :=
    start_close (by omega) hlow hhigh
  have hd : digit high vn1 vn0 un < 2 ^ 64 := by
    rw [Nat.div_lt_iff_lt_mul (by omega)]
    nlinarith
  have hmod := Nat.mod_lt high hpos
  have hest : Estimate (2 ^ 64) vn1.toNat vn0.toNat high un.toNat (high / vn1.toNat)
      (high % vn1.toNat) := .start hpos hun
  rw [← hq, ← hr] at hest
  rw [← hq] at hclose
  rw [← hr] at hmod
  exact lowerDigit_yields hest hpos htop' hlow hun (hmod.trans htop') hd hclose (by omega)

lemma normalize_yields {s : ℕ} (hs : s < 128) (hu : u.toNat < v.toNat)
    (hv : v.toNat * 2 ^ s < 2 ^ 128) (hv0 : 0 < v.toNat) :
    Yields (normalize s u x v) fun r => r.1.toNat = v.toNat * 2 ^ s ∧
      r.2.1.toNat * 2 ^ 128 + r.2.2.toNat = (u.toNat * 2 ^ 128 + x.toNat) * 2 ^ s := by
  rw [normalize]
  by_cases h0 : s > 0
  · rw [if_pos h0]
    have hu' : u.toNat * 2 ^ s < 2 ^ 128 := (Nat.mul_le_mul_right _ hu.le).trans_lt hv
    refine .bind (Q := fun w => w.toNat = v.toNat * 2 ^ s) ?_ fun v' hv' => ?_
    · refine .bind (.shl hs) fun w hw => ?_
      rw [Nat.mod_eq_of_lt hv] at hw
      exact nonZero_yields (by rw [hw]; positivity) hw
    · refine .bind (.shl hs) fun hi hhi => .bind (.shr (by omega)) fun lo hlo => ?_
      refine .bind (.shl hs) fun rest hrest => .pure ⟨hv', ?_⟩
      have hor := toNat_or_shifted hs.le x.isLt hhi hlo
      have hdiv := Nat.div_add_mod (x.toNat * 2 ^ s) (2 ^ 128)
      rw [mul_pow_div hs.le] at hdiv
      rw [hor, hrest, Nat.mod_eq_of_lt hu', add_mul, add_assoc, Nat.mul_comm (_ / _), hdiv]
      ring
  · obtain rfl : s = 0 := by omega
    rw [if_neg h0]
    exact .pure ⟨by rw [pow_zero, mul_one], by rw [pow_zero, mul_one]⟩

/-- Two digits, one after the other, give the quotient and what remains. -/
lemma two_digits {n m d b r t : ℕ} (hd : d = n / m) (hr : r = n % m) (hm : 0 < m) :
    (n * b + t) / m = d * b + (r * b + t) / m ∧ (n * b + t) % m = (r * b + t) % m := by
  have hsplit : n * b + t = m * (d * b) + (r * b + t) := by
    have h := Nat.div_add_mod n m
    rw [← hd, ← hr] at h
    rw [← h]
    ring
  rw [hsplit, Nat.mul_add_div hm, Nat.mul_add_mod]
  exact ⟨rfl, rfl⟩

lemma append_halves (n m : ℕ) : (n * 2 ^ 64 + m / 2 ^ 64) * 2 ^ 64 + m % 2 ^ 64 = n * 2 ^ 128 + m := by
  omega

lemma append_div_lt {n m d : ℕ} (hn : n < d) (hm : m < 2 ^ 128) : (n * 2 ^ 128 + m) / d < 2 ^ 128 := by
  rw [Nat.div_lt_iff_lt_mul (Nat.zero_lt_of_lt hn)]
  omega

lemma udiv256_by_128_to_128_yields (h : u.toNat < v.toNat) :
    Yields (udiv256_by_128_to_128 u x v) fun r =>
      r.1.toNat = (u.toNat * 2 ^ 128 + x.toNat) / v.toNat ∧
        r.2.toNat = (u.toNat * 2 ^ 128 + x.toNat) % v.toNat := by
  have hv0 : 0 < v.toNat := by omega
  obtain ⟨hs, hlow, hhigh⟩ := leading_zeros_spec hv0
  have hx := x.isLt
  rw [udiv256_by_128_to_128]
  generalize leading_zeros v = s at *
  refine .bind (guard_yields (BitVec.lt_def.mpr h)) fun _ _ => ?_
  refine .bind (guard_yields hs.ne) fun _ _ => ?_
  refine .bind (normalize_yields hs h hhigh hv0) ?_
  rintro ⟨v', un128, un10⟩ ⟨hv', hun⟩
  simp only at hv' hun ⊢
  have hdividend : (u.toNat * 2 ^ 128 + x.toNat) * 2 ^ s < v'.toNat * 2 ^ 128 := by
    rw [hv', mul_right_comm]
    refine Nat.mul_lt_mul_of_pos_right ?_ (by positivity)
    omega
  have hv1 := v'.isLt
  have hun10 := un10.isLt
  rw [← hun] at hdividend
  have hlt : un128.toNat < v'.toNat := by omega
  rw [← hv'] at hlow hhigh
  refine .bind (.bind (.shr (by decide)) fun w hw => nonZero_yields (by omega) hw) fun vn1 hvn1 => ?_
  refine .bind (.shr (by decide)) fun un1 hun1 => ?_
  have hvn0 := toNat_lower v'
  have hun0 := toNat_lower un10
  generalize v' &&& LOWER_MASK = vn0 at *
  generalize un10 &&& LOWER_MASK = un0 at *
  have hsplit : vn1.toNat * 2 ^ 64 + vn0.toNat = v'.toNat := by
    rw [hvn1, hvn0, Nat.div_add_mod']
  have htop : 2 ^ 63 ≤ vn1.toNat := by omega
  have htop' : vn1.toNat < 2 ^ 64 := by omega
  have hlow0 : vn0.toNat < 2 ^ 64 := by omega
  have hun1' : un1.toNat < 2 ^ 64 := by omega
  have hun0' : un0.toNat < 2 ^ 64 := by omega
  have hpos : 0 < vn1.toNat := by omega
  have hstep {n r : Word} {m q : Word} (hq : q.toNat = n.toNat / vn1.toNat)
      (hm : m.toNat = q.toNat * vn1.toNat) (hr : r.toNat = n.toNat - m.toNat) :
      r.toNat = n.toNat % vn1.toNat := by
    rw [hr, hm, hq]
    have := Nat.div_add_mod' n.toNat vn1.toNat
    omega
  have hbound {n q : Word} (hq : q.toNat = n.toNat / vn1.toNat) : q.toNat * vn1.toNat ≤ n.toNat := by
    rw [hq]
    exact Nat.div_mul_le_self _ _
  refine .bind (.div hpos) fun q1 hq1 => ?_
  refine .bind (.mul ((hbound hq1).trans_lt un128.isLt)) fun m1 hm1 => ?_
  refine .bind (.sub (hm1 ▸ hbound hq1)) fun rhat1 hr1 => ?_
  refine .bind (first_digit htop htop' hlow0 hun1' (hsplit ▸ hlt) hq1 (hstep hq1 hm1 hr1))
    fun d1 hd1 => ?_
  rw [digit, hsplit] at hd1
  have hv'pos : 0 < v'.toNat := by omega
  have hrest1 : (un128 * B + un1 - d1 * v').toNat = (un128.toNat * 2 ^ 64 + un1.toNat) % v'.toNat := by
    refine toNat_wrapping ?_ ((Nat.mod_lt _ hv'pos).trans hv1)
    rw [hd1, Nat.div_add_mod']
  generalize un128 * B + un1 - d1 * v' = un21 at *
  have hlt21 : un21.toNat < v'.toNat := hrest1 ▸ Nat.mod_lt _ hv'pos
  refine .bind (.div hpos) fun q0 hq0 => ?_
  refine .bind (.mul ((hbound hq0).trans_lt un21.isLt)) fun m0 hm0 => ?_
  refine .bind (.sub (hm0 ▸ hbound hq0)) fun rhat0 hr0 => ?_
  refine .bind (first_digit htop htop' hlow0 hun0' (hsplit ▸ hlt21) hq0 (hstep hq0 hm0 hr0))
    fun d0 hd0 => ?_
  rw [digit, hsplit] at hd0
  have hrest0 : (un21 * B + un0 - d0 * v').toNat = (un21.toNat * 2 ^ 64 + un0.toNat) % v'.toNat := by
    refine toNat_wrapping ?_ ((Nat.mod_lt _ hv'pos).trans hv1)
    rw [hd0, Nat.div_add_mod']
  obtain ⟨hquot, hrem⟩ := two_digits hd1 hrest1 hv'pos
  rw [← hd0] at hquot
  rw [← hrest0] at hrem
  have hwhole : (un128.toNat * 2 ^ 64 + un1.toNat) * 2 ^ 64 + un0.toNat =
      (u.toNat * 2 ^ 128 + x.toNat) * 2 ^ s := by
    rw [hun1, hun0, append_halves, hun]
  rw [hwhole, hv', Nat.mul_div_mul_right _ _ (by positivity)] at hquot
  rw [hwhole, hv', Nat.mul_mod_mul_right] at hrem
  refine .bind (.shr hs) fun r hr => ?_
  rw [← hrem, Nat.mul_div_cancel _ (by positivity)] at hr
  have hfit := append_div_lt h hx
  rw [hquot] at hfit
  refine .bind (.mul (by rw [toNat_B]; exact (Nat.le_add_right ..).trans_lt hfit)) fun m hm => ?_
  rw [toNat_B] at hm
  refine .bind (.add (by rw [hm]; exact hfit)) fun q hq => .pure ⟨?_, hr⟩
  change q.toNat = _
  rw [hq, hm, hquot]

end TwoDigits

section Knuth

/-- `[u128; 3]`. -/
structure Wide where
  w0 : Word
  w1 : Word
  w2 : Word

def Wide.toNat (u : Wide) : ℕ := (u.w2.toNat * 2 ^ 128 + u.w1.toNat) * 2 ^ 128 + u.w0.toNat

def full_shl (a : U256) (shift : ℕ) : Option Wide := do
  let u_lo ← checkedShl a.low shift
  let u_hi ← shr3 a (128 - shift)
  return ⟨u_lo, u_hi.low, u_hi.high⟩

def full_shr (u : Wide) (shift : ℕ) : Option U256 := do
  let low ← checkedShr u.w0 shift
  let high ← checkedShr u.w1 shift
  if shift > 0 then do
    let sh := 128 - shift
    let low := low ||| (← checkedShl u.w1 sh)
    return .from_words (high ||| (← checkedShl u.w2 sh)) low
  else return .from_words high low

def split_u128_to_u128 (a : Word) : Word × Word := (a &&& LOWER_MASK, a >>> 64)

def fullmul_u128 (a b : Word) : Option (Word × Word) := do
  let (a0, a1) := split_u128_to_u128 a
  let (b0, b1) := split_u128_to_u128 b
  let t ← checkedMul a0 b0
  let (w3, k) := split_u128_to_u128 t
  let t ← checkedAdd (← checkedMul a1 b0) k
  let (w1, w2) := split_u128_to_u128 t
  let t ← checkedAdd (← checkedMul a0 b1) w1
  let k ← checkedShr t 64
  let w_hi ← checkedAdd (← checkedAdd (← checkedMul a1 b1) w2) k
  let w_lo ← checkedAdd (← checkedShl t 64) w3
  return (w_lo, w_hi)

def fullmul_u256_u128 (a : U256) (b : Word) : Option Wide :=
  if b ≠ 0 then do
    let (lo, carry) ← fullmul_u128 a.low b
    let (lo', carry') ← fullmul_u128 a.high b
    let (mid, c) := overflowingAdd carry lo'
    return ⟨lo, mid, ← checkedAdd carry' (ofBool c)⟩
  else return ⟨0, 0, 0⟩

def add_carry (a b : Word) (c : Bool) : Word × Bool :=
  let (res1, overflow1) := overflowingAdd b (ofBool c)
  let (res2, overflow2) := overflowingAdd a res1
  (res2, overflow1 || overflow2)

def sub_carry (a b : Word) (c : Bool) : Word × Bool :=
  let (res1, overflow1) := overflowingAdd b (ofBool c)
  let (res2, overflow2) := overflowingSub a res1
  (res2, overflow1 || overflow2)

/-- `u[j..] -= q_hat_v`, with the borrow that is left. -/
def subtract (u p : Wide) : Wide × Bool :=
  let (w0, c) := sub_carry u.w0 p.w0 false
  let (w1, c) := sub_carry u.w1 p.w1 c
  let (w2, c) := sub_carry u.w2 p.w2 c
  (⟨w0, w1, w2⟩, c)

def addBack (u : Wide) (v : U256) : Wide :=
  let (w0, c) := add_carry u.w0 v.low false
  let (w1, c) := add_carry u.w1 v.high c
  ⟨w0, w1, u.w2 + ofBool c⟩

/-- Whether the loop over the guess goes on. -/
def anotherIteration (v_n_2 u_0 q_hat r_hat : Word) : Option Bool := do
  let (lo, hi) ← fullmul_u128 q_hat v_n_2
  return hi > r_hat || (hi == r_hat && lo > u_0)

/-- The loop that lowers the guess, with so many iterations left. -/
def lowerGuess (v_n_1 v_n_2 u_0 : Word) : ℕ → Word → Word → Option Word
  | 0, q_hat, r_hat => do
    if ← anotherIteration v_n_2 u_0 q_hat r_hat then none else return q_hat
  | fuel + 1, q_hat, r_hat => do
    if ← anotherIteration v_n_2 u_0 q_hat r_hat then
      let q_hat ← checkedSub q_hat 1
      let (r_hat, overflow) := overflowingAdd r_hat v_n_1
      if overflow then return q_hat else lowerGuess v_n_1 v_n_2 u_0 fuel q_hat r_hat
    else return q_hat

def guess (u : Wide) (v_n_1 v_n_2 : Word) : Option Word :=
  if u.w2 < v_n_1 then do
    let (q_hat, r_hat) ← udiv256_by_128_to_128 u.w2 u.w1 v_n_1
    lowerGuess v_n_1 v_n_2 u.w0 2 q_hat r_hat
  else return BitVec.allOnes 128

def div_mod_knuth (u v : U256) : Option (U256 × U256) := do
  guard (u.high ≠ 0)
  let shift := leading_zeros v.high
  guard (shift < 128)
  let v ← shl3 v shift
  let u ← full_shl u shift
  guard (v.high >>> 127 = 1)
  let q_hat ← guess u v.high v.low
  let q_hat_v ← fullmul_u256_u128 v q_hat
  let (u, c) := subtract u q_hat_v
  if c then
    let q_hat ← checkedSub q_hat 1
    return (.from_words 0 q_hat, ← full_shr (addBack u v) shift)
  else return (.from_words 0 q_hat, ← full_shr u shift)

def udivmod4 (a b : U256) : Option (U256 × U256) :=
  if a.high ||| b.high = 0 then do
    let q ← checkedDiv a.low b.low
    return (.from_words 0 q, .from_words 0 (← checkedRem a.low b.low))
  else if b.high > a.high ∨ (b.high = a.high ∧ b.low > a.low) then return (.ZERO, a)
  else if b.high = 0 then
    if a.high < b.low then do
      let (q, r) ← udiv256_by_128_to_128 a.high a.low b.low
      return (.from_words 0 q, .from_words 0 r)
    else do
      let high ← checkedDiv a.high b.low
      let (q, r) ← udiv256_by_128_to_128 (← checkedRem a.high b.low) a.low b.low
      return (.from_words high q, .from_words 0 r)
  else div_mod_knuth a b

end Knuth

section WideWords

variable {a v : U256} {u p : Wide} {x y z : Word} {c c' : Bool} {n s : ℕ}

lemma full_shl_yields (hs : s < 128) : Yields (full_shl a s) fun u => u.toNat = a.toNat * 2 ^ s := by
  refine .bind (.shl hs) fun lo hlo => .bind (shr3_yields (by omega)) fun hi hhi => .pure ?_
  have hlow : a.low.toNat * 2 ^ s % 2 ^ 128 = a.toNat * 2 ^ s % 2 ^ 128 := by
    rw [U256.toNat, add_mul, mul_right_comm, Nat.mul_add_mod_self_right]
  have hsplit := Nat.div_add_mod' (a.toNat * 2 ^ s) (2 ^ 128)
  rw [mul_pow_div hs.le, ← hhi, ← hlow, ← hlo] at hsplit
  exact hsplit

lemma full_shr_eq_shr3 (hu : u.w2 = 0) (hs : s < 128) : full_shr u s = shr3 ⟨u.w1, u.w0⟩ s := by
  obtain ⟨w0, w1, w2⟩ := u
  subst hu
  rw [full_shr, shr3]
  by_cases h0 : s = 0
  · subst h0
    simp [checkedShr, U256.from_words]
  · have hsub : 128 - s < 128 := by omega
    simp [checkedShr, checkedShl, h0, hs, hsub, Nat.pos_of_ne_zero h0]

lemma full_shr_yields (hs : s < 128) (hu : u.toNat = n * 2 ^ s)
    (hfit : u.toNat < 2 ^ 256) : Yields (full_shr u s) fun r => r.toNat = n := by
  have h0 := u.w0.isLt
  have h1 := u.w1.isLt
  have h2 : u.w2 = 0 := by
    apply BitVec.eq_of_toNat_eq
    rw [Wide.toNat] at hfit
    change _ = 0
    omega
  rw [full_shr_eq_shr3 h2 hs]
  refine (shr3_yields (by omega)).mono fun r hr => ?_
  have hval : U256.toNat ⟨u.w1, u.w0⟩ = u.toNat := by
    rw [Wide.toNat, h2, U256.toNat]
    change _ = (0 * 2 ^ 128 + _) * 2 ^ 128 + _
    rw [Nat.zero_mul, Nat.zero_add]
  rw [hr, hval, hu, Nat.mul_div_cancel _ (by positivity)]

lemma split_spec (h : split_u128_to_u128 x = (y, z)) :
    y.toNat = x.toNat % 2 ^ 64 ∧ z.toNat = x.toNat / 2 ^ 64 := by
  obtain ⟨rfl, rfl⟩ := Prod.ext_iff.mp h.symm
  refine ⟨toNat_lower x, ?_⟩
  change (x >>> 64).toNat = _
  rw [BitVec.toNat_ushiftRight, Nat.shiftRight_eq_div_pow]

lemma fullmul_u128_yields :
    Yields (fullmul_u128 x y) fun r => r.2.toNat * 2 ^ 128 + r.1.toNat = x.toNat * y.toNat := by
  rcases hx : split_u128_to_u128 x with ⟨x0, x1⟩
  rcases hy : split_u128_to_u128 y with ⟨y0, y1⟩
  obtain ⟨ex0, ex1⟩ := split_spec hx
  obtain ⟨ey0, ey1⟩ := split_spec hy
  have hxlt := x.isLt
  have hylt := y.isLt
  simp only [fullmul_u128, hx, hy]
  have h00 : x0.toNat * y0.toNat ≤ (2 ^ 64 - 1) * (2 ^ 64 - 1) := halves_mul_lt (by omega) (by omega)
  have h10 : x1.toNat * y0.toNat ≤ (2 ^ 64 - 1) * (2 ^ 64 - 1) := halves_mul_lt (by omega) (by omega)
  have h01 : x0.toNat * y1.toNat ≤ (2 ^ 64 - 1) * (2 ^ 64 - 1) := halves_mul_lt (by omega) (by omega)
  have h11 : x1.toNat * y1.toNat ≤ (2 ^ 64 - 1) * (2 ^ 64 - 1) := halves_mul_lt (by omega) (by omega)
  have hprod : x.toNat * y.toNat = x1.toNat * y1.toNat * 2 ^ 128 +
      (x1.toNat * y0.toNat + x0.toNat * y1.toNat) * 2 ^ 64 + x0.toNat * y0.toNat := by
    have hx' : x.toNat = x1.toNat * 2 ^ 64 + x0.toNat := by omega
    have hy' : y.toNat = y1.toNat * 2 ^ 64 + y0.toNat := by omega
    rw [hx', hy']
    ring
  rw [hprod]
  clear hprod hxlt hylt ex0 ex1 ey0 ey1
  refine .bind (.mul (by omega)) fun t ht => ?_
  rcases ht' : split_u128_to_u128 t with ⟨w3, k⟩
  obtain ⟨e3, ek⟩ := split_spec ht'
  simp only
  refine .bind (.mul (by omega)) fun m10 e10 => .bind (.add (by omega)) fun t1 ht1 => ?_
  rcases ht1' : split_u128_to_u128 t1 with ⟨w1, w2⟩
  obtain ⟨e1, e2⟩ := split_spec ht1'
  simp only
  refine .bind (.mul (by omega)) fun m01 e01 => .bind (.add (by omega)) fun t2 ht2 => ?_
  refine .bind (.shr (by decide)) fun k2 ek2 => .bind (.mul (by omega)) fun m11 e11 => ?_
  refine .bind (.add (by omega)) fun s1 hs1 => .bind (.add (by omega)) fun hi hhi => ?_
  refine .bind (.shl (by decide)) fun sh hsh => .bind (.add (by omega)) fun lo hlo => .pure ?_
  change hi.toNat * 2 ^ 128 + lo.toNat = _
  omega

lemma fullmul_u256_u128_yields :
    Yields (fullmul_u256_u128 a x) fun p => p.toNat = a.toNat * x.toNat := by
  rw [fullmul_u256_u128]
  by_cases h0 : x = 0
  · subst h0
    rw [if_neg (not_not.mpr rfl)]
    exact .pure (Nat.mul_zero _).symm
  rw [if_pos h0]
  refine .bind fullmul_u128_yields ?_
  rintro ⟨lo, carry⟩ hlow
  refine .bind fullmul_u128_yields ?_
  rintro ⟨lo', carry'⟩ hhigh
  rcases hmid : overflowingAdd carry lo' with ⟨mid, c⟩
  have hadd := overflowingAdd_spec hmid
  have hle : a.high.toNat * x.toNat ≤ (2 ^ 128 - 1) * (2 ^ 128 - 1) :=
    Nat.mul_le_mul (Nat.le_pred_of_lt a.high.isLt) (Nat.le_pred_of_lt x.isLt)
  have hc := c.toNat_le
  simp only [hmid] at hlow hhigh ⊢
  refine .bind (.add (by rw [toNat_ofBool]; omega)) fun hi hhi => .pure ?_
  rw [toNat_ofBool] at hhi
  have hexpand : a.toNat * x.toNat =
      a.high.toNat * x.toNat * 2 ^ 128 + a.low.toNat * x.toNat := by
    rw [U256.toNat]
    ring
  rw [hexpand, ← hhigh, ← hlow, Wide.toNat]
  change (hi.toNat * 2 ^ 128 + mid.toNat) * 2 ^ 128 + lo.toNat = _
  linear_combination 2 ^ 128 * 2 ^ 128 * hhi + 2 ^ 128 * hadd

lemma sub_carry_spec (h : sub_carry x y c = (z, c')) :
    z.toNat + y.toNat + c.toNat = x.toNat + 2 ^ 128 * c'.toNat := by
  rcases h1 : overflowingAdd y (ofBool c) with ⟨res1, overflow1⟩
  rcases h2 : overflowingSub x res1 with ⟨res2, overflow2⟩
  simp only [sub_carry, h1, h2, Prod.mk.injEq] at h
  obtain ⟨rfl, rfl⟩ := h
  have e1 := overflowingAdd_spec h1
  have e2 := overflowingSub_spec h2
  have hr := res2.isLt
  have hx := x.isLt
  have hy := y.isLt
  have hc := c.toNat_le
  rw [toNat_ofBool] at e1
  cases overflow1 <;> cases overflow2 <;> simp only [Bool.toNat_true, Bool.toNat_false,
    Bool.or_true, Bool.or_false, Bool.or_self] at * <;> omega

/-- Nothing is borrowed where the difference is not negative. -/
lemma subtract_spec (hle : p.toNat ≤ u.toNat) :
    (subtract u p).2 = false ∧ (subtract u p).1.toNat = u.toNat - p.toNat := by
  rcases h0 : sub_carry u.w0 p.w0 false with ⟨w0, c0⟩
  rcases h1 : sub_carry u.w1 p.w1 c0 with ⟨w1, c1⟩
  rcases h2 : sub_carry u.w2 p.w2 c1 with ⟨w2, c2⟩
  have e0 := sub_carry_spec h0
  have e1 := sub_carry_spec h1
  have e2 := sub_carry_spec h2
  have l0 := w0.isLt
  have l1 := w1.isLt
  have l2 := w2.isLt
  rw [Bool.toNat_false] at e0
  simp only [subtract, h0, h1, h2, Wide.toNat] at hle ⊢
  cases c2
  · rw [Bool.toNat_false] at e2
    refine ⟨rfl, ?_⟩
    omega
  · rw [Bool.toNat_true] at e2
    omega

end WideWords

section Guess

variable {v1 v2 u_0 q r : Word} {u : Wide} {high fuel : ℕ}

/-- The digit that the guess is lowered to. -/
abbrev guessed (high : ℕ) (v1 v2 u_0 : Word) : ℕ :=
  (high * 2 ^ 128 + u_0.toNat) / (v1.toNat * 2 ^ 128 + v2.toNat)

lemma anotherIteration_yields
    (h : Estimate (2 ^ 128) v1.toNat v2.toNat high u_0.toNat q.toNat r.toNat) (hv : 0 < v1.toNat) :
    Yields (anotherIteration v2 u_0 q r) fun b => b = decide (guessed high v1 v2 u_0 < q.toNat) := by
  refine .bind fullmul_u128_yields ?_
  rintro ⟨lo, hi⟩ hprod
  refine .pure ?_
  have hlo := lo.isLt
  have hu := u_0.isLt
  rw [Bool.eq_iff_iff, Bool.or_eq_true, Bool.and_eq_true, decide_eq_true_iff, decide_eq_true_iff,
    decide_eq_true_iff, beq_iff_eq, ← h.too_high_iff (by positivity), ← hprod, gt_iff_lt, gt_iff_lt,
    BitVec.lt_def, BitVec.lt_def, ← BitVec.toNat_inj]
  simp only
  omega

lemma lowerGuess_yields (h : Estimate (2 ^ 128) v1.toNat v2.toNat high u_0.toNat q.toNat r.toNat)
    (htop : 0 < v1.toNat) (hq : q.toNat ≤ guessed high v1 v2 u_0 + fuel) :
    Yields (lowerGuess v1 v2 u_0 fuel q r) fun d => d.toNat = guessed high v1 v2 u_0 := by
  induction fuel generalizing q r with
  | zero =>
    rw [lowerGuess]
    refine .bind (anotherIteration_yields h htop) fun b hb => ?_
    rw [Nat.add_zero] at hq
    rw [hb, decide_eq_false (not_lt.mpr hq)]
    exact .pure (le_antisymm hq h.above)
  | succ fuel ih =>
    rw [lowerGuess]
    refine .bind (anotherIteration_yields h htop) fun b hb => ?_
    subst hb
    by_cases hlt : guessed high v1 v2 u_0 < q.toNat
    · rw [decide_eq_true hlt, if_pos rfl]
      have hone : (1 : Word).toNat = 1 := rfl
      refine .bind (.sub (by omega)) fun q' hq1 => ?_
      rw [hone] at hq1
      rcases hadd : overflowingAdd r v1 with ⟨r', overflow⟩
      have hr := overflowingAdd_spec hadd
      have hnext := h.lower hlt
      rw [← hq1] at hnext
      cases overflow with
      | false =>
        rw [Bool.toNat_false, Nat.mul_zero, Nat.add_zero] at hr
        rw [← hr] at hnext
        exact ih hnext (by omega)
      | true =>
        rw [Bool.toNat_true] at hr
        exact .pure (hnext.eq_of_carry (by positivity) (by omega) q'.isLt.le v2.isLt)
    · rw [decide_eq_false hlt, if_neg Bool.false_ne_true]
      exact .pure (le_antisymm (not_lt.mp hlt) h.above)

/-- Both digits of a normalised divisor of two words are looked at, so that the guess is exact. -/
lemma guess_yields (htop : 2 ^ 127 ≤ v1.toNat) (hu : u.w2.toNat < v1.toNat) :
    Yields (guess u v1 v2) fun q => q.toNat = u.toNat / (v1.toNat * 2 ^ 128 + v2.toNat) := by
  have hpos : 0 < v1.toNat := by omega
  have hw1 := u.w1.isLt
  rw [guess, if_pos (BitVec.lt_def.mpr hu)]
  refine .bind (udiv256_by_128_to_128_yields hu) ?_
  rintro ⟨q, r⟩ ⟨hq, hr⟩
  simp only at hq hr ⊢
  have hest : Estimate (2 ^ 128) v1.toNat v2.toNat (u.w2.toNat * 2 ^ 128 + u.w1.toNat) u.w0.toNat
      ((u.w2.toNat * 2 ^ 128 + u.w1.toNat) / v1.toNat)
      ((u.w2.toNat * 2 ^ 128 + u.w1.toNat) % v1.toNat) := .start hpos u.w0.isLt
  have hclose : _ ≤ guessed (u.w2.toNat * 2 ^ 128 + u.w1.toNat) v1 v2 u.w0 + 2 :=
    start_close (by omega) v2.isLt (by omega)
  rw [← hq, ← hr] at hest
  rw [← hq] at hclose
  exact lowerGuess_yields hest hpos hclose

end Guess

section Quotients

variable {a b : U256}

/-- What the division is to give. -/
abbrev Divides (a b : U256) (r : U256 × U256) : Prop :=
  r.1.toNat = a.toNat / b.toNat ∧ r.2.toNat = a.toNat % b.toNat

lemma from_words_zero_toNat (x : Word) : (U256.from_words 0 x).toNat = x.toNat := by
  change 0 * 2 ^ 128 + x.toNat = _
  rw [Nat.zero_mul, Nat.zero_add]

lemma high_pos {x : Word} (h : x ≠ 0) : 0 < x.toNat :=
  Nat.pos_of_ne_zero fun h0 => h (BitVec.eq_of_toNat_eq h0)

/-- A divisor stays within its two words when it is shifted until the top one is full. -/
lemma shifted_fits {h l s : ℕ} (hs : s ≤ 128) (hl : l < 2 ^ 128) (hh : h * 2 ^ s < 2 ^ 128) :
    (h * 2 ^ 128 + l) * 2 ^ s < 2 ^ 256 := by
  have hpow : (2 : ℕ) ^ 128 = 2 ^ (128 - s) * 2 ^ s := by rw [← pow_add, Nat.sub_add_cancel hs]
  have hlt : h + 1 ≤ 2 ^ (128 - s) := by
    rw [hpow] at hh
    exact Nat.lt_of_mul_lt_mul_right hh
  calc (h * 2 ^ 128 + l) * 2 ^ s < (h + 1) * 2 ^ 128 * 2 ^ s :=
        Nat.mul_lt_mul_of_pos_right (by omega) (by positivity)
    _ = (h + 1) * 2 ^ s * 2 ^ 128 := mul_right_comm ..
    _ ≤ 2 ^ 128 * 2 ^ 128 := by
        refine Nat.mul_le_mul_right _ ?_
        rw [hpow]
        exact Nat.mul_le_mul_right _ hlt
    _ = 2 ^ 256 := by rw [← pow_add]

lemma div_mod_knuth_yields (ha : a.high ≠ 0) (hb : b.high ≠ 0) :
    Yields (div_mod_knuth a b) (Divides a b) := by
  obtain ⟨hs, hlow, hhigh⟩ := leading_zeros_spec (high_pos hb)
  rw [div_mod_knuth]
  generalize leading_zeros b.high = s at *
  refine .bind (guard_yields ha) fun _ _ => .bind (guard_yields hs) fun _ _ => ?_
  have hfit : b.toNat * 2 ^ s < 2 ^ 256 := shifted_fits hs.le b.low.isLt hhigh
  refine .bind (shl3_yields (by omega)) fun v hv => ?_
  rw [Nat.mod_eq_of_lt hfit] at hv
  refine .bind (full_shl_yields hs) fun u hu => ?_
  have htop : 2 ^ 127 ≤ v.high.toNat := by
    have hle : 2 ^ 127 * 2 ^ 128 ≤ v.toNat := by
      calc 2 ^ 127 * 2 ^ 128 ≤ b.high.toNat * 2 ^ s * 2 ^ 128 := Nat.mul_le_mul_right _ hlow
        _ = b.high.toNat * 2 ^ 128 * 2 ^ s := mul_right_comm ..
        _ ≤ b.toNat * 2 ^ s := Nat.mul_le_mul_right _ (Nat.le_add_right ..)
        _ = v.toNat := hv.symm
    have hl := v.low.isLt
    rw [U256.toNat] at hle
    omega
  have hu2 : u.w2.toNat < v.high.toNat := by
    have hlt : u.toNat < 2 ^ 256 * 2 ^ 127 := by
      rw [hu]
      calc a.toNat * 2 ^ s < 2 ^ 256 * 2 ^ s := Nat.mul_lt_mul_of_pos_right a.toNat_lt (by positivity)
        _ ≤ 2 ^ 256 * 2 ^ 127 := Nat.mul_le_mul_left _ (Nat.pow_le_pow_right two_pos (by omega))
    rw [Wide.toNat] at hlt
    omega
  have hone : v.high >>> 127 = 1 := by
    apply BitVec.eq_of_toNat_eq
    rw [BitVec.toNat_ushiftRight, Nat.shiftRight_eq_div_pow]
    have hlt := v.high.isLt
    change _ = 1
    omega
  refine .bind (guard_yields hone) fun _ _ => .bind (guess_yields htop hu2) fun q hq => ?_
  change q.toNat = u.toNat / v.toNat at hq
  refine .bind fullmul_u256_u128_yields fun p hp => ?_
  rw [hq] at hp
  obtain ⟨hc, hrest⟩ := subtract_spec (hp.trans_le (Nat.mul_div_le u.toNat v.toNat))
  rw [hp, ← Nat.mod_eq_sub] at hrest
  have hv0 : 0 < v.toNat := by
    rw [U256.toNat]
    omega
  have hlt := (Nat.mod_lt u.toNat hv0).trans v.toNat_lt
  rw [← hrest] at hlt
  rw [hu, hv, Nat.mul_mod_mul_right] at hrest
  rw [hu, hv, Nat.mul_div_mul_right _ _ (by positivity)] at hq
  generalize subtract u p = w at *
  obtain ⟨u', c⟩ := w
  obtain rfl : c = false := hc
  refine .bind (full_shr_yields hs hrest hlt) fun r hr => .pure ⟨?_, hr⟩
  exact (from_words_zero_toNat q).trans hq

lemma lt_iff_toNat : (b.high > a.high ∨ (b.high = a.high ∧ b.low > a.low)) ↔ a.toNat < b.toNat := by
  have ha := a.low.isLt
  have hb := b.low.isLt
  rw [gt_iff_lt, gt_iff_lt, BitVec.lt_def, BitVec.lt_def, ← BitVec.toNat_inj, U256.toNat, U256.toNat]
  omega

lemma toNat_zero : U256.ZERO.toNat = 0 := by
  change 0 * 2 ^ 128 + 0 = 0
  rw [Nat.zero_mul]

lemma toNat_of_high_zero (h : a.high = 0) : a.toNat = a.low.toNat := by
  rw [U256.toNat, h]
  change 0 * 2 ^ 128 + _ = _
  rw [Nat.zero_mul, Nat.zero_add]

lemma low_ne_zero (h : a.high = 0) (ha : a ≠ .ZERO) : 0 < a.low.toNat := by
  refine high_pos fun hl => ha ?_
  obtain ⟨high, low⟩ := a
  subst h hl
  rfl

lemma Divides.toBitVec {r : U256 × U256} (h : Divides a b r) :
    r.1.toBitVec = a.toBitVec / b.toBitVec ∧ r.2.toBitVec = a.toBitVec % b.toBitVec := by
  constructor
  · apply BitVec.eq_of_toNat_eq
    rw [BitVec.toNat_udiv, U256.toNat_toBitVec, U256.toNat_toBitVec, U256.toNat_toBitVec, h.1]
  · apply BitVec.eq_of_toNat_eq
    rw [BitVec.toNat_umod, U256.toNat_toBitVec, U256.toNat_toBitVec, U256.toNat_toBitVec, h.2]

lemma udivmod4_yields (hb : b ≠ .ZERO) : Yields (udivmod4 a b) (Divides a b) := by
  rw [udivmod4]
  by_cases hsmall : a.high ||| b.high = 0
  · obtain ⟨ha, hbh⟩ := BitVec.or_eq_zero_iff.mp hsmall
    have hpos := low_ne_zero hbh hb
    rw [if_pos hsmall]
    refine .bind (.div hpos) fun q hq => .bind (.rem hpos) fun r hr => .pure ⟨?_, ?_⟩
    · rw [from_words_zero_toNat, hq, toNat_of_high_zero ha, toNat_of_high_zero hbh]
    · rw [from_words_zero_toNat, hr, toNat_of_high_zero ha, toNat_of_high_zero hbh]
  rw [if_neg hsmall]
  by_cases hlt : b.high > a.high ∨ (b.high = a.high ∧ b.low > a.low)
  · rw [if_pos hlt]
    rw [lt_iff_toNat] at hlt
    refine .pure ⟨?_, (Nat.mod_eq_of_lt hlt).symm⟩
    rw [Nat.div_eq_of_lt hlt, toNat_zero]
  rw [if_neg hlt]
  by_cases hbh : b.high = 0
  · have hpos := low_ne_zero hbh hb
    have hbv : b.toNat = b.low.toNat := toNat_of_high_zero hbh
    rw [if_pos hbh]
    by_cases hfit : a.high < b.low
    · rw [if_pos hfit]
      refine .bind (udiv256_by_128_to_128_yields (BitVec.lt_def.mp hfit)) ?_
      rintro ⟨q, r⟩ ⟨hq, hr⟩
      rw [← hbv] at hq hr
      exact .pure ⟨(from_words_zero_toNat q).trans hq, (from_words_zero_toNat r).trans hr⟩
    · rw [if_neg hfit]
      refine .bind (.div hpos) fun high hhigh => .bind (.rem hpos) fun rest hrest => ?_
      refine .bind (udiv256_by_128_to_128_yields (hrest ▸ Nat.mod_lt _ hpos)) ?_
      rintro ⟨q, r⟩ ⟨hq, hr⟩
      obtain ⟨hquot, hrem⟩ := two_digits (b := 2 ^ 128) (t := a.low.toNat) hhigh hrest hpos
      simp only at hq hr
      rw [← hq] at hquot
      rw [← hr] at hrem
      rw [← hbv] at hquot hrem
      exact .pure ⟨hquot.symm, (from_words_zero_toNat r).trans hrem.symm⟩
  · rw [if_neg hbh]
    refine div_mod_knuth_yields (fun ha => hlt (.inl ?_)) hbh
    rw [ha, gt_iff_lt, BitVec.lt_def]
    exact high_pos hbh

lemma udivmod4_zero : udivmod4 a .ZERO = none := by
  rw [udivmod4]
  by_cases ha : a.high = 0
  · rw [if_pos (by rw [ha]; rfl)]
    rfl
  · have hor : a.high ||| U256.ZERO.high = a.high := BitVec.or_zero
    have hle : ¬ a.toNat < U256.ZERO.toNat := by
      rw [toNat_zero]
      exact Nat.not_lt_zero _
    rw [← lt_iff_toNat] at hle
    have hlow : ¬ a.high < U256.ZERO.low := BitVec.not_lt_zero
    rw [hor, if_neg ha, if_neg hle, if_pos (by rfl), if_neg hlow]
    rfl

end Quotients

/-- Unsigned division panics for a divisor of zero only. Otherwise it gives the quotient and the
remainder, through whichever of its paths it goes. -/
theorem udivmod4_exact (a b : U256) : (udivmod4 a b = none ↔ b = .ZERO) ∧
    ∀ q r, udivmod4 a b = some (q, r) →
      q.toBitVec = a.toBitVec / b.toBitVec ∧ r.toBitVec = a.toBitVec % b.toBitVec := by
  by_cases hb : b = .ZERO
  · subst hb
    rw [udivmod4_zero]
    exact ⟨iff_of_true rfl rfl, fun q r h => (Option.some_ne_none _ h.symm).elim⟩
  · obtain ⟨⟨q, r⟩, hqr, hdiv⟩ := udivmod4_yields (a := a) hb
    rw [hqr]
    refine ⟨iff_of_false (Option.some_ne_none _) hb, ?_⟩
    rintro _ _ ⟨⟩
    exact hdiv.toBitVec

section Signed

/-- `I256`, by the words of its two's complement. -/
abbrev I256 : Type := U256

def sar3 (a : I256) (b : ℕ) : Option I256 :=
  if b = 0 then some a
  else if b < 128 then do
    let lo := (← checkedShr a.low b) ||| (← checkedShl a.high (128 - b))
    return .from_words (a.high.sshiftRight b) lo
  else return .from_words (a.high.sshiftRight 127) (a.high.sshiftRight (b &&& 0x7f))

def bitxor (a b : I256) : I256 := .from_words (a.high ^^^ b.high) (a.low ^^^ b.low)

def idivmod4 (a b : I256) : Option (I256 × I256) := do
  let s_a ← sar3 a 255
  let s_b ← sar3 b 255
  let a := sub3 (bitxor a s_a) s_a
  let b := sub3 (bitxor b s_b) s_b
  let s_b := bitxor s_b s_a
  let (q, r) ← udivmod4 a b
  return (sub3 (bitxor q s_b) s_b, sub3 (bitxor r s_a) s_a)

def U256.toInt (a : I256) : ℤ := a.toBitVec.toInt

/-- The words that a shift leaves of a negative number, and of one that is not. -/
def signWords (negative : Bool) : I256 :=
  if negative then .from_words (BitVec.allOnes 128) (BitVec.allOnes 128) else .ZERO

def applySign {w : ℕ} (negative : Bool) (x : BitVec w) : BitVec w := if negative then -x else x

variable {a b : I256} {c d : Bool}

lemma sshiftRight_last {x : Word} :
    x.sshiftRight 127 = if x.msb then BitVec.allOnes 128 else 0 := by
  cases h : x.msb with
  | false =>
    rw [BitVec.sshiftRight_eq_of_msb_false h]
    rw [BitVec.msb_eq_false_iff_two_mul_lt] at h
    apply BitVec.eq_of_toNat_eq
    rw [BitVec.toNat_ushiftRight, Nat.shiftRight_eq_div_pow]
    change _ = 0
    omega
  | true =>
    rw [BitVec.sshiftRight_eq_of_msb_true h]
    rw [BitVec.msb_eq_true_iff_two_mul_ge] at h
    have hzero : ~~~x >>> 127 = 0#128 := by
      apply BitVec.eq_of_toNat_eq
      rw [BitVec.toNat_ushiftRight, Nat.shiftRight_eq_div_pow, BitVec.toNat_not]
      change _ = 0
      omega
    rw [hzero]
    rfl

lemma sar3_sign : sar3 a 255 = some (signWords a.toBitVec.msb) := by
  have hmsb : a.toBitVec.msb = a.high.msb := by
    rw [U256.toBitVec, BitVec.msb_append, if_neg (by decide)]
  rw [sar3, if_neg (by decide), if_neg (by decide), hmsb, show 255 &&& 0x7f = 127 from rfl,
    sshiftRight_last]
  cases a.high.msb <;> rfl

lemma bitxor_signWords : bitxor (signWords c) (signWords d) = signWords (c ^^ d) := by
  cases c <;> cases d <;> rfl

lemma toBitVec_sub3 : (sub3 a b).toBitVec = a.toBitVec - b.toBitVec := by
  have hb := b.toNat_lt
  apply BitVec.eq_of_toNat_eq
  rw [BitVec.toNat_sub, U256.toNat_toBitVec, U256.toNat_toBitVec, U256.toNat_toBitVec, toNat_sub3]
  congr 1
  omega

lemma toBitVec_signed :
    (sub3 (bitxor a (signWords c)) (signWords c)).toBitVec = applySign c a.toBitVec := by
  rw [toBitVec_sub3]
  cases c with
  | false =>
    have hzero : (signWords false).toBitVec = 0#256 := by decide
    have hxor : bitxor a (signWords false) = a := by
      change U256.mk (a.high ^^^ 0#128) (a.low ^^^ 0#128) = a
      rw [BitVec.xor_zero, BitVec.xor_zero]
    rw [hzero, hxor, BitVec.sub_zero]
    rfl
  | true =>
    have hones : (signWords true).toBitVec = -1#256 := by decide
    have hxor : (bitxor a (signWords true)).toBitVec = ~~~a.toBitVec := by
      change (a.high ^^^ BitVec.allOnes 128) ++ (a.low ^^^ BitVec.allOnes 128) = ~~~a.toBitVec
      rw [BitVec.xor_allOnes, BitVec.xor_allOnes, U256.toBitVec, BitVec.not_append]
    rw [hones, hxor, BitVec.sub_neg]
    exact (BitVec.neg_eq_not_add _).symm

lemma eq_zero_iff : a = .ZERO ↔ a.toBitVec = 0 := by
  constructor
  · rintro rfl
    rfl
  · intro h
    apply U256.toNat_injective
    rw [← U256.toNat_toBitVec, h, toNat_zero]
    rfl

lemma applySign_eq_zero {w : ℕ} {x : BitVec w} : applySign c x = 0 ↔ x = 0 := by
  cases c with
  | false => exact Iff.rfl
  | true => exact BitVec.neg_eq_zero_iff

lemma sdiv_eq_applySign {w : ℕ} (x y : BitVec w) :
    x.sdiv y = applySign (y.msb ^^ x.msb) (applySign x.msb x / applySign y.msb y) := by
  rw [BitVec.sdiv_eq]
  cases x.msb <;> cases y.msb <;> rfl

lemma srem_eq_applySign {w : ℕ} (x y : BitVec w) :
    x.srem y = applySign x.msb (applySign x.msb x % applySign y.msb y) := by
  rw [BitVec.srem_eq]
  cases x.msb <;> cases y.msb <;> rfl

/-- Signed division panics for a divisor of zero only, rounds towards zero, and leaves a remainder of
the dividend's sign. The least number divided by minus one wraps around to itself. -/
theorem idivmod4_exact (a b : I256) : (idivmod4 a b = none ↔ b = .ZERO) ∧
    ∀ q r, idivmod4 a b = some (q, r) →
      q.toInt = (a.toInt.tdiv b.toInt).bmod (2 ^ 256) ∧ r.toInt = a.toInt.tmod b.toInt := by
  obtain ⟨s, hs⟩ : ∃ s, s = a.toBitVec.msb := ⟨_, rfl⟩
  obtain ⟨t, ht⟩ : ∃ t, t = b.toBitVec.msb := ⟨_, rfl⟩
  obtain ⟨x, hx⟩ : ∃ x, x = sub3 (bitxor a (signWords s)) (signWords s) := ⟨_, rfl⟩
  obtain ⟨y, hy⟩ : ∃ y, y = sub3 (bitxor b (signWords t)) (signWords t) := ⟨_, rfl⟩
  have hrun : idivmod4 a b = (udivmod4 x y).map fun p =>
      (sub3 (bitxor p.1 (signWords (t ^^ s))) (signWords (t ^^ s)),
        sub3 (bitxor p.2 (signWords s)) (signWords s)) := by
    rw [idivmod4, sar3_sign, sar3_sign, ← hs, ← ht, hx, hy, ← bitxor_signWords]
    exact Option.map_eq_bind.symm
  have hxv : x.toBitVec = applySign s a.toBitVec := hx ▸ toBitVec_signed
  have hyv : y.toBitVec = applySign t b.toBitVec := hy ▸ toBitVec_signed
  have hzero : y = .ZERO ↔ b = .ZERO := by
    rw [eq_zero_iff, eq_zero_iff, hyv, applySign_eq_zero]
  rw [hrun]
  by_cases hb : b = .ZERO
  · rw [hzero.mpr hb, udivmod4_zero]
    exact ⟨iff_of_true rfl hb, fun q r h => (Option.some_ne_none _ h.symm).elim⟩
  · obtain ⟨⟨q, r⟩, hqr, hdiv⟩ := udivmod4_yields (a := x) (mt hzero.mp hb)
    obtain ⟨hq, hr⟩ := hdiv.toBitVec
    rw [hqr]
    refine ⟨iff_of_false (Option.some_ne_none _) hb, ?_⟩
    rintro _ _ ⟨⟩
    constructor
    · rw [U256.toInt, toBitVec_signed, hq, hxv, hyv, hs, ht, ← sdiv_eq_applySign, BitVec.toInt_sdiv]
      rfl
    · rw [U256.toInt, toBitVec_signed, hr, hxv, hyv, hs, ht, ← srem_eq_applySign, BitVec.toInt_srem]
      rfl

end Signed

end StellarTags.Ethnum
