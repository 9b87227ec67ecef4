import Mathlib.Tactic

/-! An allowance for each window: a window is opened by the first spend after the last one ran
out. -/

namespace StellarTags.Library.Allowances

structure Window where
  start : ℕ
  spent : ℤ
  deriving DecidableEq, Repr

structure Spend where
  time : ℕ
  amount : ℤ
  deriving DecidableEq, Repr

def spentWhen (p : ℕ → Prop) [DecidablePred p] (log : List Spend) : ℤ :=
  (log.map fun s => if p s.time then s.amount else 0).sum

def total (log : List Spend) : ℤ := (log.map Spend.amount).sum

section Sums

variable {p q : ℕ → Prop} [DecidablePred p] [DecidablePred q] {log : List Spend} {s : Spend}

lemma spentWhen_append (new : List Spend) :
    spentWhen p (log ++ new) = spentWhen p log + spentWhen p new := by
  simp [spentWhen]

lemma spentWhen_single : spentWhen p [s] = if p s.time then s.amount else 0 := by
  simp [spentWhen]

lemma spentWhen_none (h : ∀ s ∈ log, ¬ p s.time) : spentWhen p log = 0 := by
  induction log with
  | nil => rfl
  | cons s log ih =>
    have hs : ¬ p s.time := h s (by simp)
    have hlog := ih fun r hr => h r (by simp [hr])
    simpa [spentWhen, hs] using hlog

lemma spentWhen_mono (hpos : ∀ s ∈ log, 0 < s.amount) (h : ∀ s ∈ log, p s.time → q s.time) :
    spentWhen p log ≤ spentWhen q log := by
  refine List.sum_le_sum fun s hs => ?_
  have hs' := hpos s hs
  by_cases hp : p s.time
  · simp [hp, h s hs hp]
  · by_cases hq : q s.time
    · simp [hp, hq, hs'.le]
    · simp [hp, hq]

lemma spentWhen_split (p q : ℕ → Prop) [DecidablePred p] [DecidablePred q] (log : List Spend) :
    spentWhen p log =
      spentWhen (fun x => p x ∧ q x) log + spentWhen (fun x => p x ∧ ¬ q x) log := by
  induction log with
  | nil => rfl
  | cons s log ih =>
    simp only [spentWhen, List.map_cons, List.sum_cons] at ih ⊢
    rw [ih]
    by_cases hp : p s.time
    · by_cases hq : q s.time
      · simp only [hp, hq, and_self, not_true_eq_false, and_false, if_true, if_false]
        ring
      · simp only [hp, hq, and_false, not_false_eq_true, and_self, if_true, if_false]
        ring
    · simp only [hp, false_and, if_false]
      ring

end Sums

def current (span : ℕ) (w : Option Window) (now : ℕ) : Window :=
  match w with
  | some w => if w.start + span ≤ now then ⟨now, 0⟩ else w
  | none => ⟨now, 0⟩

/-- What a window started with: only the initial one may have been spent from before. -/
def carried (initial : Option Window) (w : Window) : ℤ :=
  match initial with
  | some v => if w.start = v.start then v.spent else 0
  | none => 0

def shortfall (initial : Option Window) : ℤ :=
  match initial with
  | some v => max 0 (-v.spent)
  | none => 0

/-- Where spends, each within the limit of its window, have led by the time `clock`. -/
structure Law (span : ℕ) (limit : ℤ) (initial : Option Window) (log : List Spend)
    (w : Option Window) (clock : ℕ) : Prop where
  fresh : w = none → initial = none ∧ log = []
  positive : ∀ s ∈ log, 0 < s.amount
  since : ∀ v ∈ initial, (∀ u ∈ w, v.start ≤ u.start) ∧ ∀ s ∈ log, v.start ≤ s.time
  started : ∀ v ∈ w, v.start ≤ clock
  lasting : ∀ v ∈ w, ∀ s ∈ log, s.time < v.start + span
  spent : ∀ v ∈ w, v.spent = carried initial v + spentWhen (v.start ≤ ·) log
  limited : ∀ v ∈ w, v.spent ≤ limit
  earlier : ∀ v ∈ w, ∀ t, v.start ≤ t + span →
    spentWhen (fun x => t ≤ x ∧ x < v.start) log ≤ limit + shortfall initial

/-- No interval as long as a window saw more than two limits spent, short of what was missing at
the start. -/
def Twice (span : ℕ) (limit : ℤ) (initial : Option Window) (log : List Spend) : Prop :=
  ∀ t, spentWhen (fun x => t ≤ x ∧ x ≤ t + span) log ≤ 2 * limit + shortfall initial

section Laws

variable {span now clock : ℕ} {limit : ℤ} {initial w : Option Window} {log : List Spend}
  {v : Window} {s : Spend}

lemma neg_carried_le (initial : Option Window) (v : Window) :
    -carried initial v ≤ shortfall initial := by
  cases initial with
  | none => simp [carried, shortfall]
  | some u =>
    by_cases h : v.start = u.start
    · simp [carried, shortfall, h]
    · simp [carried, shortfall, h]

lemma shortfall_nonneg (initial : Option Window) : 0 ≤ shortfall initial := by
  cases initial with
  | none => simp [shortfall]
  | some u => simp [shortfall]

lemma Law.start (hlimit : 0 ≤ limit)
    (h : ∀ v ∈ initial, v.start ≤ clock ∧ v.spent ≤ limit) :
    Law span limit initial [] initial clock := by
  have hs := shortfall_nonneg initial
  refine ⟨fun hw => ⟨hw, rfl⟩, by simp, fun v hv => ⟨fun u hu => ?_, by simp⟩,
    fun v hv => (h v hv).1, by simp, fun v hv => ?_, fun v hv => (h v hv).2, fun v hv t ht => ?_⟩
  · rw [Option.mem_def] at hv hu
    rw [hv, Option.some.injEq] at hu
    rw [hu]
  · rw [Option.mem_def] at hv
    simp [hv, carried, spentWhen]
  · simp only [spentWhen, List.map_nil, List.sum_nil]
    omega

lemma Twice.start (hlimit : 0 ≤ limit) : Twice span limit initial [] := by
  intro t
  have hs := shortfall_nonneg initial
  simp only [spentWhen, List.map_nil, List.sum_nil]
  omega

lemma current_lasts (hspan : 0 < span) : now < (current span w now).start + span := by
  cases w with
  | none => simpa [current] using hspan
  | some u =>
    by_cases h : u.start + span ≤ now
    · simpa [current, h] using hspan
    · simpa [current, h] using not_le.mp h

lemma Law.turn (h : Law span limit initial log w clock) (hspan : 0 < span) (hlimit : 0 ≤ limit)
    (hnow : clock ≤ now) : Law span limit initial log (some (current span w now)) now := by
  have hshort := shortfall_nonneg initial
  cases w with
  | none =>
    obtain ⟨rfl, rfl⟩ := h.fresh rfl
    refine ⟨by simp, by simp, by simp, by simp [current], by simp,
      by simp [current, carried, spentWhen], by simpa [current] using hlimit, fun v _ t _ => ?_⟩
    simp only [spentWhen, List.map_nil, List.sum_nil]
    omega
  | some u =>
    have hu : u ∈ some u := rfl
    have hstart := h.started u hu
    by_cases hturn : u.start + span ≤ now
    · have hv : current span (some u) now = ⟨now, 0⟩ := by simp [current, hturn]
      have hpast : ∀ s ∈ log, s.time < now :=
        fun s hs => (h.lasting u hu s hs).trans_le hturn
      have hcarried : carried initial ⟨now, 0⟩ = 0 := by
        cases initial with
        | none => rfl
        | some v =>
          have hle := (h.since v rfl).1 u hu
          have hne : ¬ now = v.start := by omega
          simp [carried, hne]
      rw [hv]
      refine ⟨by simp, h.positive, fun v hv => ⟨?_, (h.since v hv).2⟩, by simp, ?_, ?_,
        by simpa using hlimit, ?_⟩
      · have hle := (h.since v hv).1 u hu
        simp only [Option.mem_def, Option.some.injEq, forall_eq']
        omega
      · intro v hv s hs
        obtain rfl := Option.some.inj hv
        exact (hpast s hs).trans_le (Nat.le_add_right now span)
      · intro v hv
        obtain rfl := Option.some.inj hv
        rw [hcarried, spentWhen_none fun s hs => (hpast s hs).not_ge]
        simp
      · intro v hv t ht
        obtain rfl := Option.some.inj hv
        have hspent := h.spent u hu
        have hlimited := h.limited u hu
        have hneg := neg_carried_le initial u
        have hmono : spentWhen (fun x => t ≤ x ∧ x < now) log ≤ spentWhen (u.start ≤ ·) log :=
          spentWhen_mono h.positive fun s _ hs => by
            simp only at ht
            omega
        simp only at hmono ⊢
        omega
    · have hv : current span (some u) now = u := by simp [current, hturn]
      rw [hv]
      exact ⟨by simp, h.positive, h.since, fun v hv => (h.started v hv).trans hnow, h.lasting,
        h.spent, h.limited, h.earlier⟩

/-- Within an interval no longer than a window, at most two windows were spent from. -/
lemma Law.interval_le (h : Law span limit initial log (some v) clock) (hlimit : 0 ≤ limit) {t : ℕ}
    (ht : v.start ≤ t + span) :
    spentWhen (fun x => t ≤ x ∧ x ≤ t + span) log ≤ 2 * limit + shortfall initial := by
  have hspent := h.spent v rfl
  have hlimited := h.limited v rfl
  have hshort := shortfall_nonneg initial
  have hneg := neg_carried_le initial v
  have hsplit := spentWhen_split (fun x => t ≤ x ∧ x ≤ t + span) (v.start ≤ ·) log
  have hnow : spentWhen (fun x => (t ≤ x ∧ x ≤ t + span) ∧ v.start ≤ x) log ≤
      spentWhen (v.start ≤ ·) log := spentWhen_mono h.positive fun s _ hs => hs.2
  have hbefore : spentWhen (fun x => (t ≤ x ∧ x ≤ t + span) ∧ ¬ v.start ≤ x) log ≤
      spentWhen (fun x => t ≤ x ∧ x < v.start) log :=
    spentWhen_mono h.positive fun s _ hs => ⟨hs.1.1, not_le.mp hs.2⟩
  have hearlier := h.earlier v rfl t ht
  by_cases hcarried : carried initial v = 0
  · omega
  · -- Nothing was spent before the initial window.
    have hnone : spentWhen (fun x => t ≤ x ∧ x < v.start) log = 0 := by
      cases initial with
      | none => exact absurd rfl hcarried
      | some u =>
        have hstart : v.start = u.start := by
          by_contra hne
          exact hcarried (by simp [carried, hne])
        refine spentWhen_none fun s hs => ?_
        have hsince := (h.since u rfl).2 s hs
        omega
    omega

lemma Law.spend (h : Law span limit initial log (some v) now) (hv : now < v.start + span)
    {amount : ℤ} (hpos : 0 < amount) (hle : v.spent + amount ≤ limit) :
    Law span limit initial (log ++ [⟨now, amount⟩]) (some ⟨v.start, v.spent + amount⟩) now := by
  have hstart := h.started v rfl
  have hall {P : Spend → Prop} (hlog : ∀ s ∈ log, P s) (hnew : P ⟨now, amount⟩) :
      ∀ s ∈ log ++ [(⟨now, amount⟩ : Spend)], P s := by
    intro s hs
    rcases List.mem_append.mp hs with hs | hs
    · exact hlog s hs
    · obtain rfl := List.mem_singleton.mp hs
      exact hnew
  refine ⟨by simp, hall h.positive hpos, fun u hu => ?_, ?_, ?_, ?_, ?_, ?_⟩
  · obtain ⟨hopened, hsince⟩ := h.since u hu
    have hu' := hopened v rfl
    exact ⟨by simpa using hu', hall hsince (hu'.trans hstart)⟩
  · simpa using hstart
  · intro u hu
    obtain rfl := Option.some.inj hu
    exact hall (h.lasting v rfl) hv
  · intro u hu
    obtain rfl := Option.some.inj hu
    have hspent := h.spent v rfl
    have hcarried : carried initial ⟨v.start, v.spent + amount⟩ = carried initial v := by
      cases initial with
      | none => rfl
      | some u => rfl
    rw [hcarried, spentWhen_append, spentWhen_single, if_pos hstart]
    simp only at hspent ⊢
    omega
  · simpa using hle
  · intro u hu t ht
    obtain rfl := Option.some.inj hu
    have hout : ¬ (t ≤ now ∧ now < v.start) := by omega
    have hearlier := h.earlier v rfl t ht
    rw [spentWhen_append, spentWhen_single, if_neg hout, add_zero]
    exact hearlier

lemma Twice.spend (h : Twice span limit initial log) (hlimit : 0 ≤ limit) {amount : ℤ}
    (hlaw : Law span limit initial (log ++ [⟨now, amount⟩]) (some v) now) :
    Twice span limit initial (log ++ [⟨now, amount⟩]) := by
  intro t
  by_cases hin : t ≤ now ∧ now ≤ t + span
  · have hstart := hlaw.started v rfl
    exact hlaw.interval_le hlimit (hstart.trans hin.2)
  · rw [spentWhen_append, spentWhen_single, if_neg hin, add_zero]
    exact h t

end Laws

end StellarTags.Library.Allowances
