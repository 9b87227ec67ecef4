import Mathlib.Algebra.BigOperators.Finprod
import Mathlib.Algebra.BigOperators.Group.Finset.Piecewise
import Mathlib.Algebra.Order.BigOperators.Group.Finset
import Mathlib.Tactic

/-! A reserve that covers the claims of any finite set of holders. -/

namespace StellarTags.Library.Reserves

variable {A : Type}

/-- No claim is negative, and the reserve covers every finite set of claims. -/
structure Backed (claim : A → ℤ) (reserve : ℤ) : Prop where
  nonneg : ∀ a, 0 ≤ claim a
  covered : ∀ U : Finset A, ∑ a ∈ U, claim a ≤ reserve

namespace Backed

variable {claim : A → ℤ} {reserve : ℤ}

lemma mono (h : Backed claim reserve) {more : ℤ} (hm : reserve ≤ more) : Backed claim more :=
  ⟨h.nonneg, fun U => (h.covered U).trans hm⟩

lemma empty (h : 0 ≤ reserve) : Backed (fun _ : A => 0) reserve :=
  ⟨fun _ => le_rfl, fun U => by simpa using h⟩

variable [DecidableEq A]

private lemma sum_update (claim : A → ℤ) (a : A) (c : ℤ) {U : Finset A} (ha : a ∈ U) :
    ∑ x ∈ U, Function.update claim a c x = ∑ x ∈ U, claim x - claim a + c := by
  rw [Finset.sum_update_of_mem ha, ← Finset.add_sum_erase U claim ha,
    Finset.sdiff_singleton_eq_erase]
  ring

lemma credit (h : Backed claim reserve) (a : A) {n : ℤ} (hn : 0 ≤ n) :
    Backed (Function.update claim a (claim a + n)) (reserve + n) := by
  constructor
  · intro x
    by_cases hx : x = a
    · subst hx
      have := h.nonneg x
      simp only [Function.update_self]
      omega
    · simpa [hx] using h.nonneg x
  · intro U
    by_cases ha : a ∈ U
    · have hu := h.covered U
      rw [sum_update claim a _ ha]
      omega
    · have hu := h.covered U
      rw [Finset.sum_update_of_notMem ha]
      omega

lemma debit (h : Backed claim reserve) (a : A) {n : ℤ} (hn : n ≤ claim a) :
    Backed (Function.update claim a (claim a - n)) (reserve - n) := by
  constructor
  · intro x
    by_cases hx : x = a
    · subst hx
      simp only [Function.update_self]
      omega
    · simpa [hx] using h.nonneg x
  · intro U
    by_cases ha : a ∈ U
    · have hu := h.covered U
      rw [sum_update claim a _ ha]
      omega
    · have hu := h.covered (insert a U)
      rw [Finset.sum_insert ha] at hu
      rw [Finset.sum_update_of_notMem ha]
      omega

end Backed

end StellarTags.Library.Reserves

/-! Accounts of which only finitely many hold anything, and what they hold together. -/

namespace StellarTags.Library.Holdings

variable {A : Type} [DecidableEq A]

/-- The accounts hold `n` together. -/
structure Totals (f : A → ℤ) (n : ℤ) : Prop where
  finite : (Function.support f).Finite
  sum : ∑ᶠ a, f a = n

def post (f : A → ℤ) (postings : List (A × ℤ)) : A → ℤ :=
  postings.foldl (fun f p => Function.update f p.1 (f p.1 + p.2)) f

variable {f : A → ℤ} {n k : ℤ} {a : A} {postings : List (A × ℤ)}

@[simp] lemma post_nil (f : A → ℤ) : post f [] = f := rfl

@[simp] lemma post_cons (f : A → ℤ) (p : A × ℤ) (postings : List (A × ℤ)) :
    post f (p :: postings) = post (Function.update f p.1 (f p.1 + p.2)) postings := rfl

lemma post_of_notMem (h : ∀ p ∈ postings, p.1 ≠ a) : post f postings a = f a := by
  induction postings generalizing f with
  | nil => rfl
  | cons p postings ih =>
    rw [post_cons, ih fun q hq => h q (by simp [hq])]
    exact Function.update_of_ne (h p (by simp)).symm _ _

lemma post_zero (h : ∀ p ∈ postings, p.2 = 0) : post f postings = f := by
  induction postings with
  | nil => rfl
  | cons p postings ih =>
    rw [post_cons, h p (by simp), add_zero, Function.update_eq_self]
    exact ih fun q hq => h q (by simp [hq])

lemma post_nonneg (hf : ∀ a, 0 ≤ f a) (h : ∀ p ∈ postings, 0 ≤ p.2) (a : A) :
    0 ≤ post f postings a := by
  induction postings generalizing f with
  | nil => exact hf a
  | cons p postings ih =>
    refine ih (fun x => ?_) fun q hq => h q (by simp [hq])
    by_cases hx : x = p.1
    · have hp := hf p.1
      have hn := h p (by simp)
      simpa [hx] using add_nonneg hp hn
    · simpa [hx] using hf x

namespace Totals

omit [DecidableEq A] in
lemma zero : Totals (fun _ : A => 0) 0 := ⟨by simp, by simp⟩

omit [DecidableEq A] in
lemma le (h : Totals f n) (hf : ∀ a, 0 ≤ f a) (a : A) : f a ≤ n := by
  rw [← h.sum]
  exact single_le_finsum a h.finite hf

lemma update (h : Totals f n) (a : A) (k : ℤ) :
    Totals (Function.update f a (f a + k)) (n + k) := by
  have hsum : Function.update f a (f a + k) = fun x => f x + (Pi.single a k : A → ℤ) x := by
    funext x
    by_cases hx : x = a
    · subst hx
      simp
    · simp [hx]
  have hsingle : (Function.support (Pi.single a k : A → ℤ)).Finite :=
    (Set.finite_singleton a).subset (Pi.support_single_subset (i := a))
  rw [hsum]
  constructor
  · exact (h.finite.union hsingle).subset (Function.support_add f _)
  · rw [finsum_add_distrib h.finite hsingle, h.sum, finsum_eq_single _ a fun x hx => by simp [hx]]
    simp

lemma post (h : Totals f n) (postings : List (A × ℤ)) :
    Totals (post f postings) (n + (postings.map Prod.snd).sum) := by
  induction postings generalizing f n with
  | nil => simpa using h
  | cons p postings ih =>
    have hp := ih (h.update p.1 p.2)
    rw [add_assoc] at hp
    simpa using hp

end Totals

end StellarTags.Library.Holdings
