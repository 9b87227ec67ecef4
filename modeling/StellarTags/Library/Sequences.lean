import Mathlib.Algebra.BigOperators.Group.List.Basic
import Mathlib.Algebra.Order.Ring.Int
import Mathlib.Data.List.Chain
import Mathlib.Tactic

/-! Running totals: what a total grows by between two entries is the sum of the steps between. -/

namespace StellarTags.Library.Telescopes

variable {α : Type} {total : α → ℤ} {step : α → α → ℤ} {l : List α} {a b : α} {i j : ℕ}

/-- Each total is the one before it and a step more. -/
def Runs (total : α → ℤ) (step : α → α → ℤ) (l : List α) : Prop :=
  l.IsChain fun a b => total b = total a + step a b

def steps (step : α → α → ℤ) (l : List α) : List ℤ := List.zipWith step l l.tail

lemma steps_drop (i : ℕ) : (steps step l).drop i = steps step (l.drop i) := by
  rw [steps, steps, List.drop_zipWith, List.tail_drop, List.drop_tail]

lemma Runs.from_head (h : Runs total step (a :: l)) (hb : (a :: l)[j]? = some b) :
    total b - total a = ((steps step (a :: l)).take j).sum := by
  induction l generalizing a j with
  | nil =>
    cases j with
    | zero =>
      obtain rfl := Option.some.inj hb
      simp [steps]
    | succ j => simp at hb
  | cons c l ih =>
    cases j with
    | zero =>
      obtain rfl := Option.some.inj hb
      simp
    | succ j =>
      rw [Runs, List.isChain_cons_cons] at h
      have hrest := ih h.2 (by simpa using hb)
      have hsteps : steps step (a :: c :: l) = step a c :: steps step (c :: l) := rfl
      rw [hsteps, List.take_succ_cons, List.sum_cons, ← hrest, h.1]
      omega

lemma Runs.difference (h : Runs total step l) (hij : i ≤ j) (ha : l[i]? = some a)
    (hb : l[j]? = some b) :
    total b - total a = (((steps step l).drop i).take (j - i)).sum := by
  obtain ⟨rest, hrest⟩ : ∃ rest, l.drop i = a :: rest := by
    obtain ⟨hi, rfl⟩ := List.getElem?_eq_some_iff.mp ha
    exact ⟨l.drop (i + 1), List.drop_eq_getElem_cons hi⟩
  have hdropped : Runs total step (a :: rest) := hrest ▸ h.drop i
  rw [steps_drop, hrest]
  apply hdropped.from_head
  rw [← hrest, List.getElem?_drop, Nat.add_sub_cancel' hij, hb]

end StellarTags.Library.Telescopes

/-! Tickets that each holder uses in order: the next one is stored, the used ones are logged. -/

namespace StellarTags.Library.Counters

variable {A X : Type} [DecidableEq A] (holder : X → A) (ticket : X → ℕ)

/-- In a log with its newest entry first, every holder has used the tickets before its next one,
each once and in order. -/
def Consecutive (next : A → ℕ) (log : List X) : Prop :=
  ∀ a, (log.filter (holder · = a)).map ticket = (List.range (next a)).reverse

namespace Consecutive

variable {holder ticket} {next : A → ℕ} {log : List X} {x : X}

lemma start : Consecutive holder ticket (fun _ => 0) [] := fun _ => rfl

lemma use (hc : Consecutive holder ticket next log) (hx : ticket x = next (holder x)) :
    Consecutive holder ticket (Function.update next (holder x) (ticket x + 1)) (x :: log) := by
  intro a
  by_cases ha : holder x = a
  · subst ha
    simp [hc (holder x), hx, List.range_succ]
  · simp [ha, Function.update_of_ne (Ne.symm ha), hc a]

lemma nodup (hc : Consecutive holder ticket next log) : log.Nodup := by
  classical
  refine List.nodup_iff_count_le_one.mpr fun x => ?_
  calc log.count x = (log.filter (holder · = holder x)).count x :=
        (List.count_filter (by simp)).symm
    _ ≤ ((log.filter (holder · = holder x)).map ticket).count (ticket x) :=
        List.count_le_count_map
    _ ≤ 1 := by
        rw [hc (holder x)]
        exact List.nodup_iff_count_le_one.mp (List.nodup_reverse.mpr List.nodup_range) _

lemma nodup_tickets (hc : Consecutive holder ticket next log) :
    (log.map fun x => (holder x, ticket x)).Nodup := by
  have hp : Consecutive Prod.fst Prod.snd next (log.map fun x => (holder x, ticket x)) := by
    intro a
    simpa [List.filter_map, Function.comp_def] using hc a
  exact hp.nodup

lemma in_order (hc : Consecutive holder ticket next log.reverse) (a : A) :
    (log.filter (holder · = a)).map ticket = List.range (next a) := by
  have ha := congrArg List.reverse (hc a)
  simpa using ha

end Consecutive

end StellarTags.Library.Counters
