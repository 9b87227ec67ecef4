import StellarTags.Library.Apportionment
import StellarTags.YieldEscrow.Effects

/-! Sums of 128 bits, made one number after the other. -/

namespace StellarTags.YieldEscrow

open Library.Transactions Library.Integers Library.Apportionment

variable {total n : ℤ} {l : List ℤ}

/-- Adding the numbers to the total, one after the other, never leaves 128 bits. -/
def AddsUp (total : ℤ) : List ℤ → Prop
  | [] => True
  | n :: rest => FitsI128 (total + n) ∧ AddsUp (total + n) rest

instance addsUpDecidable (total : ℤ) : (l : List ℤ) → Decidable (AddsUp total l)
  | [] => instDecidableTrue
  | n :: rest =>
    have := addsUpDecidable (total + n) rest
    inferInstanceAs (Decidable (FitsI128 (total + n) ∧ AddsUp (total + n) rest))

lemma addsUp_iff : AddsUp total l ↔
    ∀ first, first <+: l → first ≠ [] → FitsI128 (total + first.sum) := by
  induction l generalizing total with
  | nil => exact ⟨fun _ first hfirst hne => absurd (List.prefix_nil.mp hfirst) hne, fun _ => trivial⟩
  | cons n rest ih =>
    rw [AddsUp, ih]
    constructor
    · rintro ⟨hn, hrest⟩ first hfirst hne
      rcases List.prefix_cons_iff.mp hfirst with rfl | ⟨tail, rfl, htail⟩
      · exact absurd rfl hne
      · rw [List.sum_cons, ← add_assoc]
        by_cases hnil : tail = []
        · rwa [hnil, List.sum_nil, add_zero]
        · exact hrest tail htail hnil
    · intro h
      refine ⟨by simpa using h [n] (by simp) (by simp), fun tail htail _ => ?_⟩
      have hcons := h (n :: tail) (List.cons_prefix_cons.mpr ⟨rfl, htail⟩) (by simp)
      rwa [List.sum_cons, ← add_assoc] at hcons

lemma addsUp_zero_iff : AddsUp 0 l ↔ ∀ first, first <+: l → FitsI128 first.sum := by
  rw [addsUp_iff]
  simp only [zero_add]
  constructor
  · intro h first hfirst
    by_cases hnil : first = []
    · rw [hnil]
      exact fitsI128_zero
    · exact h first hfirst hnil
  · exact fun h first hfirst _ => h first hfirst

/-- Where nothing is negative the sum is the last to leave 128 bits. -/
lemma addsUp_of_nonneg (htotal : 0 ≤ total) (hmax : total ≤ maxI128) (hl : ∀ n ∈ l, 0 ≤ n) :
    AddsUp total l ↔ total + l.sum ≤ maxI128 := by
  induction l generalizing total with
  | nil => simpa [AddsUp] using hmax
  | cons n rest ih =>
    obtain ⟨hn, hrest⟩ := List.forall_mem_cons.mp hl
    have hsum := List.sum_nonneg hrest
    have hlow : minI128 ≤ 0 := by decide
    rw [AddsUp, List.sum_cons, ← add_assoc]
    constructor
    · rintro ⟨hfits, h⟩
      exact (ih (add_nonneg htotal hn) hfits.2 hrest).mp h
    · intro h
      have hfits : total + n ≤ maxI128 := by omega
      exact ⟨⟨by omega, hfits⟩, (ih (add_nonneg htotal hn) hfits hrest).mpr h⟩

section Floors

variable {amount whole : ℤ} {parts : List ℤ}

/-- Where the whole is small, the products stay so far below it that the cuts do not matter. -/
lemma sum_floors_fits_of_small (ha : 0 < amount) (hlt : amount < whole) (hsmall : whole ≤ 2 ^ 124)
    (hfew : parts.length ≤ 4) (hsum : FitsI128 parts.sum) :
    FitsI128 (floors amount whole parts).sum := by
  have hw : 0 < whole := ha.trans hlt
  obtain ⟨hlow, hhigh⟩ := hsum
  simp only [minI128, maxI128] at hlow hhigh
  have hproduct : |amount * parts.sum| ≤ (whole - 1) * 2 ^ 127 := by
    rw [abs_mul, abs_of_pos ha]
    exact mul_le_mul (by omega) (abs_le.mpr ⟨by omega, by omega⟩) (abs_nonneg _) (by omega)
  have hcuts : |(cuts amount whole parts).sum| ≤ 4 * whole :=
    (abs_sum_cuts_le amount parts hw).trans
      (mul_le_mul_of_nonneg_right (by exact_mod_cast hfew) hw.le)
  have hscaled : |(floors amount whole parts).sum| * whole ≤ (whole - 1) * 2 ^ 127 + 4 * whole :=
    calc |(floors amount whole parts).sum| * whole
        = |(floors amount whole parts).sum * whole| := by rw [abs_mul, abs_of_pos hw]
      _ = |amount * parts.sum - (cuts amount whole parts).sum| := by
        rw [← sum_floors_cuts, add_sub_cancel_right]
      _ ≤ |amount * parts.sum| + |(cuts amount whole parts).sum| := abs_sub _ _
      _ ≤ (whole - 1) * 2 ^ 127 + 4 * whole := add_le_add hproduct hcuts
  have hbound : |(floors amount whole parts).sum| < 2 ^ 127 :=
    lt_of_mul_lt_mul_right (hscaled.trans_lt (by omega)) hw.le
  obtain ⟨hleast, hmost⟩ := abs_lt.mp hbound
  simp only [FitsI128, minI128, maxI128]
  omega

/-- Where it is large, products of 128 bits leave no share more than a few units. -/
lemma sum_floors_fits_of_products (hlarge : 2 ^ 124 < whole) (hfew : parts.length ≤ 4)
    (hproducts : ∀ part ∈ parts, FitsI128 (amount * part)) :
    FitsI128 (floors amount whole parts).sum := by
  have hw : 0 < whole := by omega
  have hshare : ∀ share ∈ floors amount whole parts, |share| ≤ 8 := by
    intro share hshare
    obtain ⟨part, hpart, rfl⟩ := List.mem_map.mp hshare
    obtain ⟨hmin, hmax⟩ := hproducts part hpart
    have hdiv := Int.mul_tdiv_add_tmod (amount * part) whole
    have hcut := Int.tmod_lt_of_pos (amount * part) hw
    have hcut' := Int.lt_tmod_of_pos (amount * part) hw
    simp only [minI128, maxI128] at hmin hmax
    rw [abs_le]
    constructor
    · by_contra h
      nlinarith only [h, hdiv, hcut, hmin, hmax, hlarge]
    · by_contra h
      nlinarith only [h, hdiv, hcut', hmin, hmax, hlarge]
  obtain ⟨hlow, hhigh⟩ := abs_le.mp (abs_sum_le hshare)
  rw [length_floors] at hlow hhigh
  simp only [FitsI128, minI128, maxI128]
  omega

lemma addsUp_floors (ha : 0 < amount) (hle : amount ≤ parts.sum) (hfew : parts.length ≤ 4)
    (hparts : AddsUp 0 parts) (hproducts : ∀ part ∈ parts, FitsI128 (amount * part)) :
    AddsUp 0 (floors amount parts.sum parts) := by
  rcases hle.eq_or_lt with heq | hlt
  · rwa [← heq, floors_self parts ha.ne']
  rw [addsUp_zero_iff] at hparts ⊢
  intro first hfirst
  obtain ⟨taken, htaken, rfl⟩ := List.prefix_map_iff.mp hfirst
  rw [← floors]
  have hfewer : taken.length ≤ 4 := htaken.length_le.trans hfew
  by_cases hsmall : parts.sum ≤ 2 ^ 124
  · exact sum_floors_fits_of_small ha hlt hsmall hfewer (hparts taken htaken)
  · exact sum_floors_fits_of_products (not_le.mp hsmall) hfewer fun part hpart =>
      hproducts part (htaken.subset hpart)

lemma fits_remainder (ha : 0 < amount) (hle : amount ≤ parts.sum) (hfew : parts.length ≤ 4) :
    FitsI128 (amount - (floors amount parts.sum parts).sum) := by
  have hw : 0 < parts.sum := ha.trans_le hle
  have hfour : (parts.length : ℤ) * parts.sum ≤ 4 * parts.sum :=
    mul_le_mul_of_nonneg_right (by exact_mod_cast hfew) hw.le
  obtain ⟨hlow, hhigh⟩ := abs_le.mp (abs_sum_cuts_le amount parts hw)
  rw [← remainder_mul] at hlow hhigh
  generalize amount - (floors amount parts.sum parts).sum = remainder at *
  have hmost : remainder ≤ 4 := by
    by_contra h
    nlinarith
  have hleast : -4 ≤ remainder := by
    by_contra h
    nlinarith
  simp only [FitsI128, minI128, maxI128]
  constructor <;> omega

end Floors

section Folds

variable {W α : Type} {m m' : Machine W} {r : List ℤ × ℤ}

lemma fold_adds {body : List ℤ × ℤ → α → Tx (Machine W) Error (List ℤ × ℤ)} {C : α → Prop} (g : α → ℤ)
    (hbody : ∀ (found : List ℤ × ℤ) (a : α) (r : List ℤ × ℤ) (m' : Machine W),
      body found a m = .ok (r, m') ↔ C a ∧ FitsI128 (found.2 + g a) ∧
        r = (found.1 ++ [g a], found.2 + g a) ∧ m' = m)
    (found : List ℤ × ℤ) (as : List α) : Tx.fold body found as m = .ok (r, m') ↔
      (∀ a ∈ as, C a) ∧ AddsUp found.2 (as.map g) ∧
        r = (found.1 ++ as.map g, found.2 + (as.map g).sum) ∧ m' = m := by
  induction as generalizing found with
  | nil => simp [AddsUp]
  | cons a rest ih =>
    rw [Tx.fold_cons, List.forall_mem_cons, List.map_cons, AddsUp, List.sum_cons, ← add_assoc]
    simp only [hbody]
    constructor
    · rintro ⟨_, _, ⟨ha, hfits, rfl, rfl⟩, h⟩
      obtain ⟨hrest, hsum, hr, hm⟩ := (ih _).mp h
      rw [List.append_assoc, List.singleton_append] at hr
      exact ⟨⟨ha, hrest⟩, ⟨hfits, hsum⟩, hr, hm⟩
    · rintro ⟨⟨ha, hrest⟩, ⟨hfits, hsum⟩, hr, hm⟩
      rw [← List.singleton_append, ← List.append_assoc] at hr
      exact ⟨_, _, ⟨ha, hfits, rfl, rfl⟩, (ih _).mpr ⟨hrest, hsum, hr, hm⟩⟩

lemma allocate_ok {amount whole : ℤ} {parts : List ℤ} : allocate amount whole parts m = .ok (r, m') ↔
    (∀ part ∈ parts, FitsI128 (amount * part)) ∧ AddsUp 0 (floors amount whole parts) ∧
      r = (floors amount whole parts, (floors amount whole parts).sum) ∧ m' = m := by
  rw [allocate, fold_adds (C := fun part => FitsI128 (amount * part))
    fun part => (amount * part).tdiv whole]
  · simp [floors]
  · intro found part r m'
    simp only [checked_bind_ok, Tx.pure_ok]

end Folds

end StellarTags.YieldEscrow
