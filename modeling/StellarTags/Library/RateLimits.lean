import Mathlib.Algebra.Order.Field.Basic
import Mathlib.Algebra.Order.Group.Int
import Mathlib.Algebra.Order.Group.MinMax
import Mathlib.Data.List.Count
import Mathlib.Tactic.Common
import Mathlib.Tactic.Linarith
import Mathlib.Tactic.Ring

/-! Times that are admitted while a window that ends now has room. -/

namespace StellarTags.Library.SlidingWindows

variable {window now cutoff later : ℤ} {maximum : ℕ} {times : List ℤ}

def active (cutoff : ℤ) (times : List ℤ) : List ℤ := times.filter (cutoff < ·)

/-- No window, wherever it ends, has more times than the maximum. -/
def Bounded (window : ℤ) (maximum : ℕ) (times : List ℤ) : Prop :=
  ∀ last, times.countP (fun t => last - window < t ∧ t ≤ last) ≤ maximum

lemma bounded_nil : Bounded window maximum [] := fun _ => Nat.zero_le _

@[simp] lemma mem_active {t : ℤ} : t ∈ active cutoff times ↔ t ∈ times ∧ cutoff < t := by
  simp [active]

@[simp] lemma active_append (cutoff : ℤ) (times more : List ℤ) :
    active cutoff (times ++ more) = active cutoff times ++ active cutoff more :=
  List.filter_append ..

lemma active_active (h : cutoff ≤ later) :
    active later (active cutoff times) = active later times := by
  unfold active
  rw [List.filter_filter]
  apply List.filter_congr
  intro t _
  rw [Bool.eq_iff_iff]
  simp only [Bool.and_eq_true, decide_eq_true_eq]
  exact ⟨And.left, fun ht => ⟨ht, h.trans_lt ht⟩⟩

lemma active_eq_nil (h : ∀ t ∈ times, t ≤ cutoff) : active cutoff times = [] := by
  simpa [active] using h

lemma active_eq_self (h : ∀ t ∈ times, cutoff < t) : active cutoff times = times := by
  simpa [active] using h

lemma Bounded.snoc (h : Bounded window maximum times) (hlast : ∀ t ∈ times, t ≤ now)
    (hroom : (active (now - window) times).length < maximum) :
    Bounded window maximum (times ++ [now]) := by
  intro last
  rw [List.countP_append]
  by_cases hin : last - window < now ∧ now ≤ last
  · have hsub : times.countP (fun t => last - window < t ∧ t ≤ last) ≤
        (active (now - window) times).length := by
      rw [active, ← List.countP_eq_length_filter]
      apply List.countP_mono_left
      intro t _ ht
      simp only [decide_eq_true_eq] at ht ⊢
      omega
    have hone : [now].countP (fun t => last - window < t ∧ t ≤ last) ≤ 1 := List.countP_le_length
    omega
  · have hnone : [now].countP (fun t => last - window < t ∧ t ≤ last) = 0 := by
      simp only [List.countP_cons, List.countP_nil, decide_eq_true_eq, if_neg hin]
    rw [hnone]
    exact h last

end StellarTags.Library.SlidingWindows

/-! Grants that are paid from a bucket, which refills at a rate up to its capacity. -/

namespace StellarTags.Library.TokenBuckets

variable {α : Type} [Field α] [LinearOrder α] [IsStrictOrderedRing α]
  {capacity rate level last now : α} {times : List α}

/-- No interval has more grants than the capacity and what is refilled over its length. -/
def Bounded (capacity rate : α) (times : List α) : Prop :=
  ∀ start length, 0 ≤ length →
    (times.countP (fun t => start ≤ t ∧ t ≤ start + length) : α) ≤ capacity + rate * length

/-- What was granted, with what is left in the bucket at the last time. -/
structure Paid (capacity rate last level : α) (times : List α) : Prop where
  past : ∀ t ∈ times, t ≤ last
  nonneg : 0 ≤ level
  le_capacity : level ≤ capacity
  since : ∀ start ≤ last,
    (times.countP (fun t => start ≤ t) : α) + level ≤ capacity + rate * (last - start)
  bounded : Bounded capacity rate times

lemma paid_nil (hcapacity : 0 ≤ capacity) (hrate : 0 ≤ rate) (last : α) :
    Paid capacity rate last capacity [] where
  past _ h := by cases h
  nonneg := hcapacity
  le_capacity := le_rfl
  since start hstart := by
    have hrefill := mul_nonneg hrate (sub_nonneg.mpr hstart)
    rw [List.countP_nil, Nat.cast_zero]
    linarith
  bounded start length hlength := by
    rw [List.countP_nil, Nat.cast_zero]
    exact add_nonneg hcapacity (mul_nonneg hrate hlength)

lemma Paid.serve (h : Paid capacity rate last level times) (granted : Bool) (next : α)
    (hrate : 0 ≤ rate) (hnow : last ≤ now)
    (hnonneg : 0 ≤ next) (hcapacity : next + (if granted then 1 else 0) ≤ capacity)
    (hrefill : next + (if granted then 1 else 0) ≤ level + rate * (now - last)) :
    Paid capacity rate now next (times ++ if granted then [now] else []) := by
  have hpast : ∀ t ∈ times ++ (if granted then [now] else []), t ≤ now := by
    intro t ht
    obtain ht | ht := List.mem_append.mp ht
    · exact (h.past t ht).trans hnow
    · split_ifs at ht
      · exact (List.mem_singleton.mp ht).le
      · cases ht
  have hcount (p : α → Bool) (hp : p now = true) :
      ((times ++ if granted then [now] else []).countP p : α) =
        times.countP p + if granted then 1 else 0 := by
    rw [List.countP_append]
    cases granted <;> simp [hp]
  have hsince : ∀ start ≤ now,
      ((times ++ if granted then [now] else []).countP (fun t => start ≤ t) : α) + next ≤
        capacity + rate * (now - start) := by
    intro start hstart
    rw [hcount _ (decide_eq_true hstart)]
    obtain hle | hlt := le_or_gt start last
    · have hold := h.since start hle
      have hsplit : rate * (now - start) = rate * (last - start) + rate * (now - last) := by ring
      linarith
    · have hnone : times.countP (fun t => start ≤ t) = 0 := by
        rw [List.countP_eq_zero]
        intro t ht
        simpa using (h.past t ht).trans_lt hlt
      have hwait := mul_nonneg hrate (sub_nonneg.mpr hstart)
      rw [hnone, Nat.cast_zero]
      linarith
  refine ⟨hpast, hnonneg, le_trans ?_ hcapacity, hsince, fun start length hlength => ?_⟩
  · exact le_add_of_nonneg_right (by split_ifs <;> norm_num)
  · obtain hend | hend := lt_or_ge (start + length) now
    -- what is granted now is after the interval
    · have hsame : (times ++ if granted then [now] else []).countP
          (fun t => start ≤ t ∧ t ≤ start + length) =
            times.countP (fun t => start ≤ t ∧ t ≤ start + length) := by
        rw [List.countP_append]
        cases granted <;> simp [hend.not_ge]
      rw [hsame]
      exact h.bounded start length hlength
    · obtain hstart | hstart := le_or_gt start now
      · have hmono : (times ++ if granted then [now] else []).countP
            (fun t => start ≤ t ∧ t ≤ start + length) ≤
              (times ++ if granted then [now] else []).countP (fun t => start ≤ t) := by
          apply List.countP_mono_left
          intro t _ ht
          simp only [decide_eq_true_eq] at ht ⊢
          exact ht.1
        have hall := hsince start hstart
        have hmono := Nat.cast_le (α := α).mpr hmono
        have hlonger := mul_le_mul_of_nonneg_left (sub_le_iff_le_add'.mpr hend) hrate
        linarith
      · have hnone : (times ++ if granted then [now] else []).countP
            (fun t => start ≤ t ∧ t ≤ start + length) = 0 := by
          rw [List.countP_eq_zero]
          intro t ht
          simp [((hpast t ht).trans_lt hstart).not_ge]
        rw [hnone, Nat.cast_zero]
        exact add_nonneg (h.nonneg.trans h.le_capacity) (mul_nonneg hrate hlength)

/-- What was granted by clocks that need not agree, with the tokens that were left at the last one. -/
structure Metered (capacity rate tokens last : α) (clocks : List α) : Prop where
  within : ∀ start length, 0 ≤ length → (∃ clock ∈ clocks, start ≤ clock ∧ clock ≤ start + length) →
    (clocks.countP (fun clock => start ≤ clock ∧ clock ≤ start + length) : α) +
      (tokens + rate * (start + length - last)) ≤ capacity + rate * length
  bounded : Bounded capacity rate clocks

lemma metered_nil (hcapacity : 0 ≤ capacity) (hrate : 0 ≤ rate) (tokens last : α) :
    Metered capacity rate tokens last [] where
  within _ _ _ h := by
    obtain ⟨clock, hclock, -⟩ := h
    cases hclock
  bounded := (paid_nil hcapacity hrate last).bounded

/-- A clock that is behind the last one takes back what was refilled since. -/
lemma Metered.serve {tokens : α} {clocks : List α} (h : Metered capacity rate tokens last clocks)
    (granted : Bool) (next : α) (hrate : 0 ≤ rate) (hnonneg : granted = true → 0 ≤ next)
    (hcapacity : next + (if granted then 1 else 0) ≤ capacity)
    (hrefill : next + (if granted then 1 else 0) ≤ tokens + rate * (now - last)) :
    Metered capacity rate next now (clocks ++ if granted then [now] else []) := by
  have hcount (start length : α) :
      ((clocks ++ if granted then [now] else []).countP
        (fun clock => start ≤ clock ∧ clock ≤ start + length) : α) =
      clocks.countP (fun clock => start ≤ clock ∧ clock ≤ start + length) +
        if granted ∧ start ≤ now ∧ now ≤ start + length then 1 else 0 := by
    rw [List.countP_append]
    cases granted
    · simp
    · by_cases hin : start ≤ now ∧ now ≤ start + length <;> simp [hin]
  have hlevel (start length : α) : next + rate * (start + length - now) + (if granted then 1 else 0) ≤
      tokens + rate * (start + length - last) := by
    have hsplit : rate * (start + length - last) =
        rate * (start + length - now) + rate * (now - last) := by ring
    linarith
  have hwithin (start length : α) (hlength : 0 ≤ length)
      (hsome : ∃ clock ∈ clocks ++ (if granted then [now] else []),
        start ≤ clock ∧ clock ≤ start + length) :
      ((clocks ++ if granted then [now] else []).countP
        (fun clock => start ≤ clock ∧ clock ≤ start + length) : α) +
          (next + rate * (start + length - now)) ≤ capacity + rate * length := by
    rw [hcount]
    have hnext := hlevel start length
    by_cases hold : ∃ clock ∈ clocks, start ≤ clock ∧ clock ≤ start + length
    · have hbefore := h.within start length hlength hold
      have hone : (if granted = true ∧ start ≤ now ∧ now ≤ start + length then (1 : α) else 0) ≤
          if granted then 1 else 0 := by
        by_cases hin : start ≤ now ∧ now ≤ start + length
        · simp [hin]
        · cases granted <;> simp [hin]
      linarith
    -- the grant is the first of the interval
    · have hzero : clocks.countP (fun clock => start ≤ clock ∧ clock ≤ start + length) = 0 := by
        rw [List.countP_eq_zero]
        intro clock hclock hin
        exact hold ⟨clock, hclock, by simpa using hin⟩
      obtain ⟨clock, hclock, hstart, hend⟩ := hsome
      obtain hclock | hclock := List.mem_append.mp hclock
      · exact absurd ⟨clock, hclock, hstart, hend⟩ hold
      · cases granted with
        | false => cases hclock
        | true =>
          obtain rfl := List.mem_singleton.mp hclock
          have hlater : rate * (start + length - clock) ≤ rate * length :=
            mul_le_mul_of_nonneg_left (by linarith) hrate
          simp only [if_true] at hcapacity
          rw [hzero, if_pos ⟨rfl, hstart, hend⟩, Nat.cast_zero]
          linarith
  refine ⟨hwithin, fun start length hlength => ?_⟩
  by_cases hin : granted = true ∧ start ≤ now ∧ now ≤ start + length
  · obtain ⟨rfl, hstart, hend⟩ := hin
    have hall := hwithin start length hlength ⟨now, by simp, hstart, hend⟩
    have hleft := add_nonneg (hnonneg rfl) (mul_nonneg hrate (sub_nonneg.mpr hend))
    linarith
  · rw [hcount, if_neg hin, add_zero]
    exact h.bounded start length hlength

end StellarTags.Library.TokenBuckets
