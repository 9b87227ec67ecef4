import Mathlib.MeasureTheory.Integral.IntervalIntegral.Basic
import Mathlib.MeasureTheory.Measure.Lebesgue.Basic
import Mathlib.Tactic

/-! Step functions given by samples in time order, and their integrals. -/

namespace StellarTags.Library.StepFunctions

section Values

variable {τ α : Type} [LinearOrder τ]

/-- The value of the last sample at or before a time; `a` before the first one. -/
def stepAt (a : α) : List (τ × α) → τ → α
  | [], _ => a
  | (t, b) :: rest, x => if x < t then a else stepAt b rest x

variable {a b : α} {t x : τ} {pre post samples : List (τ × α)}

lemma stepAt_before (h : ∀ p ∈ samples, x < p.1) : stepAt a samples x = a := by
  cases samples with
  | nil => rfl
  | cons p rest =>
    have hp : x < p.1 := h p (by simp)
    simp [stepAt, hp]

lemma stepAt_after (h : ∀ p ∈ pre, p.1 ≤ t) (hx : t ≤ x) :
    stepAt a (pre ++ (t, b) :: post) x = stepAt b post x := by
  induction pre generalizing a with
  | nil => simp [stepAt, hx.not_gt]
  | cons p pre ih =>
    have hp : p.1 ≤ x := (h p (by simp)).trans hx
    simpa [stepAt, hp.not_gt] using ih fun q hq => h q (by simp [hq])

lemma stepAt_between (h : ∀ p ∈ pre, p.1 ≤ t) (hx : t ≤ x) (hp : ∀ p ∈ post, x < p.1) :
    stepAt a (pre ++ (t, b) :: post) x = b := by
  rw [stepAt_after h hx, stepAt_before hp]

lemma stepAt_append (h : ∀ p ∈ post, x < p.1) :
    stepAt a (samples ++ post) x = stepAt a samples x := by
  induction samples generalizing a with
  | nil => simpa [stepAt] using stepAt_before h
  | cons p rest ih => simp [stepAt, ih]

lemma stepAt_mem {P : α → Prop} (ha : P a) (h : ∀ p ∈ samples, P p.2) :
    P (stepAt a samples x) := by
  induction samples generalizing a with
  | nil => simpa [stepAt] using ha
  | cons p rest ih =>
    by_cases hx : x < p.1
    · simpa [stepAt, hx] using ha
    · have hr := ih (h p (by simp)) fun q hq => h q (by simp [hq])
      simpa [stepAt, hx] using hr

lemma exists_last_before {f : α → τ} {as : List α} (h : as.Pairwise (f · < f ·))
    (hx : ∃ c ∈ as, f c ≤ x) : ∃ before c later, as = before ++ c :: later ∧ f c ≤ x ∧
      (∀ d ∈ before, f d < f c) ∧ ∀ d ∈ later, x < f d := by
  induction as with
  | nil => simp at hx
  | cons d as ih =>
    obtain ⟨hd, has⟩ := List.pairwise_cons.mp h
    by_cases hr : ∃ c ∈ as, f c ≤ x
    · obtain ⟨before, c, later, rfl, hc, hb, hl⟩ := ih has hr
      exact ⟨d :: before, c, later, rfl, hc, by simpa [hd c] using hb, hl⟩
    · simp only [not_exists, not_and, not_le] at hr
      have hdx : f d ≤ x := by
        obtain ⟨c, hc, hcx⟩ := hx
        rcases List.mem_cons.mp hc with rfl | hc
        · exact hcx
        · exact absurd hcx (hr c hc).not_ge
      exact ⟨[], d, as, rfl, hdx, by simp, hr⟩

end Values

section Areas

variable {a p : ℤ} {n m k t : ℕ} {pre post samples : List (ℕ × ℤ)}

def area (a : ℤ) (samples : List (ℕ × ℤ)) (n m : ℕ) : ℤ :=
  ∑ x ∈ Finset.Ico n m, stepAt a samples x

lemma area_split (hn : n ≤ m) (hm : m ≤ k) :
    area a samples n k = area a samples n m + area a samples m k :=
  (Finset.sum_Ico_consecutive _ hn hm).symm

lemma area_constant (hnm : n ≤ m) (h : ∀ x, n ≤ x → x < m → stepAt a samples x = p) :
    area a samples n m = p * (m - n) := by
  have hc : ∀ x ∈ Finset.Ico n m, stepAt a samples x = p := by
    intro x hx
    exact h x (Finset.mem_Ico.mp hx).1 (Finset.mem_Ico.mp hx).2
  rw [area, Finset.sum_congr rfl hc]
  simp [Nat.cast_sub hnm, mul_comm]

lemma area_between (h : ∀ q ∈ pre, q.1 ≤ t) (ht : t ≤ m) (hp : ∀ q ∈ post, m ≤ q.1) :
    area a (pre ++ (t, p) :: post) t m = p * (m - t) := by
  refine area_constant ht fun x hx hm => ?_
  exact stepAt_between h hx fun q hq => hm.trans_le (hp q hq)

lemma area_append (h : ∀ q ∈ post, m ≤ q.1) :
    area a (samples ++ post) n m = area a samples n m := by
  refine Finset.sum_congr rfl fun x hx => ?_
  exact stepAt_append fun q hq => (Finset.mem_Ico.mp hx).2.trans_le (h q hq)

lemma area_nonneg (ha : 0 ≤ a) (h : ∀ q ∈ samples, 0 ≤ q.2) : 0 ≤ area a samples n m :=
  Finset.sum_nonneg fun _ _ => stepAt_mem ha h

lemma area_le {c : ℤ} (ha : a ≤ c) (h : ∀ q ∈ samples, q.2 ≤ c) :
    area a samples n m ≤ (m - n : ℕ) * c := by
  have hs := Finset.sum_le_card_nsmul (Finset.Ico n m) (stepAt a samples) c
    fun x _ => stepAt_mem (P := (· ≤ c)) ha h
  simpa [area] using hs

end Areas

section Integrals

lemma floor_constant {k : ℕ} {x : ℝ} (hx : x ∈ Set.Ioo (k : ℝ) (k + 1)) : ⌊x⌋₊ = k :=
  Nat.floor_eq_on_Ico k x ⟨hx.1.le, by simpa using hx.2⟩

/-- What only depends on the second integrates to the sum over the seconds. -/
lemma integral_floor (g : ℕ → ℝ) {n m : ℕ} (h : n ≤ m) :
    ∫ x in (n : ℝ)..m, g ⌊x⌋₊ = ∑ k ∈ Finset.Ico n m, g k := by
  have hconst (k : ℕ) : (Set.uIoo (k : ℝ) ((k + 1 : ℕ) : ℝ)).EqOn (fun _ => g k)
      fun x => g ⌊x⌋₊ := by
    intro x hx
    rw [Set.uIoo_of_le (by simp)] at hx
    simp only [floor_constant (by simpa using hx)]
  have hint (k : ℕ) : IntervalIntegrable (fun x : ℝ => g ⌊x⌋₊) MeasureTheory.volume
      (k : ℝ) ((k + 1 : ℕ) : ℝ) :=
    (intervalIntegrable_const).congr_uIoo (hconst k)
  rw [← intervalIntegral.sum_integral_adjacent_intervals_Ico h fun k _ => hint k]
  refine Finset.sum_congr rfl fun k _ => ?_
  rw [← intervalIntegral.integral_congr_uIoo (hconst k)]
  simp

noncomputable def curve (a : ℤ) (samples : List (ℕ × ℤ)) : ℝ → ℝ :=
  stepAt (a : ℝ) (samples.map fun p => ((p.1 : ℝ), (p.2 : ℝ)))

lemma curve_eq (a : ℤ) (samples : List (ℕ × ℤ)) {x : ℝ} (hx : 0 ≤ x) :
    curve a samples x = (stepAt a samples ⌊x⌋₊ : ℤ) := by
  induction samples generalizing a with
  | nil => rfl
  | cons p rest ih =>
    have ih := ih p.2
    simp only [curve, List.map_cons, stepAt, Nat.floor_lt hx] at ih ⊢
    split
    · rfl
    · exact ih

lemma integral_curve (a : ℤ) (samples : List (ℕ × ℤ)) {n m : ℕ} (h : n ≤ m) :
    ∫ x in (n : ℝ)..m, curve a samples x = area a samples n m := by
  have hx : ∀ x ∈ Set.uIcc (n : ℝ) m, curve a samples x = (stepAt a samples ⌊x⌋₊ : ℤ) := by
    intro x hx
    rw [Set.uIcc_of_le (by exact_mod_cast h)] at hx
    exact curve_eq a samples (n.cast_nonneg.trans hx.1)
  have hi := integral_floor (fun k => ((stepAt a samples k : ℤ) : ℝ)) h
  rw [intervalIntegral.integral_congr hx, hi]
  simp [area]

end Integrals

end StellarTags.Library.StepFunctions
