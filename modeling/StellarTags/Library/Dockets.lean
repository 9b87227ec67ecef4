import Mathlib.Tactic

/-! Dockets: items filed under fresh numbers, each closed at most once, and served only when due. -/

namespace StellarTags.Library.Dockets

variable {X : Type}

inductive Event (X : Type) : Type
  | filed (number : ℕ) (item : X)
  | served (number : ℕ) (item : X) (time : ℕ)
  | struck (number : ℕ)

namespace Event

def number : Event X → ℕ
  | .filed number _ | .served number _ _ | .struck number => number

def Closes (number : ℕ) : Event X → Prop
  | .served n _ _ | .struck n => n = number
  | .filed _ _ => False

def Pending (log : List (Event X)) (number : ℕ) (item : X) : Prop :=
  .filed number item ∈ log ∧ ∀ e ∈ log, ¬ e.Closes number

def Follows (due : X → ℕ → Prop) (before : List (Event X)) : Event X → Prop
  | .filed number _ => ∀ e ∈ before, e.number ≠ number
  | .served number item time => Pending before number item ∧ due item time
  | .struck number => ∃ item, Pending before number item

end Event

/-- The events lead to these pending items, and to this last number. -/
inductive Orderly (due : X → ℕ → Prop) : (ℕ → Option X) → ℕ → List (Event X) → Prop
  | start : Orderly due (fun _ => none) 0 []
  | file {pending : ℕ → Option X} {last : ℕ} {log : List (Event X)} {number : ℕ}
    (h : Orderly due pending last log) (hn : last < number) (item : X) :
    Orderly due (Function.update pending number (some item)) number (log ++ [.filed number item])
  | serve {pending : ℕ → Option X} {last : ℕ} {log : List (Event X)} {number time : ℕ} {item : X}
    (h : Orderly due pending last log) (hp : pending number = some item) (hd : due item time) :
    Orderly due (Function.update pending number none) last (log ++ [.served number item time])
  | strike {pending : ℕ → Option X} {last : ℕ} {log : List (Event X)} {number : ℕ} {item : X}
    (h : Orderly due pending last log) (hp : pending number = some item) :
    Orderly due (Function.update pending number none) last (log ++ [.struck number])

namespace Orderly

variable {due : X → ℕ → Prop} {pending : ℕ → Option X} {last number time : ℕ}
  {log before later : List (Event X)} {item : X} {e : Event X}

lemma of_nil (h : Orderly due pending last []) : pending = (fun _ => none) ∧ last = 0 := by
  generalize hl : ([] : List (Event X)) = log at h
  cases h with
  | start => exact ⟨rfl, rfl⟩
  | file h hn item => simp at hl
  | serve h hp hd => simp at hl
  | strike h hp => simp at hl

lemma of_update_none {other : ℕ} (hp : Function.update pending other none number = some item) :
    other ≠ number ∧ pending number = some item := by
  by_cases ho : number = other
  · simp [ho] at hp
  · rw [Function.update_of_ne ho] at hp
    exact ⟨Ne.symm ho, hp⟩

lemma bounded (h : Orderly due pending last log) :
    (∀ number item, pending number = some item → number ≤ last) ∧ ∀ e ∈ log, e.number ≤ last := by
  induction h with
  | start => simp
  | @file pending last log number h hn item ih =>
    constructor
    · intro other x hp
      by_cases ho : other = number
      · exact ho.le
      · rw [Function.update_of_ne ho] at hp
        exact (ih.1 other x hp).trans hn.le
    · intro e he
      rcases List.mem_append.mp he with he | he
      · exact (ih.2 e he).trans hn.le
      · simp [List.mem_singleton.mp he, Event.number]
  | @serve pending last log number time item h hp hd ih =>
    refine ⟨fun other x hx => ih.1 other x (of_update_none hx).2, fun e he => ?_⟩
    rcases List.mem_append.mp he with he | he
    · exact ih.2 e he
    · rw [List.mem_singleton.mp he]
      exact ih.1 number item hp
  | @strike pending last log number item h hp ih =>
    refine ⟨fun other x hx => ih.1 other x (of_update_none hx).2, fun e he => ?_⟩
    rcases List.mem_append.mp he with he | he
    · exact ih.2 e he
    · rw [List.mem_singleton.mp he]
      exact ih.1 number item hp

lemma pending_snoc (hp : Event.Pending log number item) (he : ¬ e.Closes number) :
    Event.Pending (log ++ [e]) number item := by
  refine ⟨List.mem_append_left _ hp.1, fun x hx => ?_⟩
  rcases List.mem_append.mp hx with hx | hx
  · exact hp.2 x hx
  · rwa [List.mem_singleton.mp hx]

lemma pending_spec (h : Orderly due pending last log) (hp : pending number = some item) :
    Event.Pending log number item := by
  induction h with
  | start => simp at hp
  | @file pending last log fresh h hn x ih =>
    by_cases hf : number = fresh
    · subst hf
      obtain rfl : x = item := by simpa using hp
      refine ⟨by simp, fun e he hc => ?_⟩
      rcases List.mem_append.mp he with he | he
      · have hle := h.bounded.2 e he
        cases e with
        | filed n y => exact hc
        | served n y t =>
          obtain rfl : n = number := hc
          exact absurd hle (not_le.mpr hn)
        | struck n =>
          obtain rfl : n = number := hc
          exact absurd hle (not_le.mpr hn)
      · rw [List.mem_singleton.mp he] at hc
        exact hc
    · rw [Function.update_of_ne hf] at hp
      exact pending_snoc (ih hp) id
  | serve h hq hd ih =>
    obtain ⟨hne, hp⟩ := of_update_none hp
    exact pending_snoc (ih hp) hne
  | strike h hq ih =>
    obtain ⟨hne, hp⟩ := of_update_none hp
    exact pending_snoc (ih hp) hne

lemma follows_snoc (ih : ∀ before x later, log = before ++ x :: later → Event.Follows due before x)
    (he : Event.Follows due log e) {x : Event X} (hl : log ++ [e] = before ++ x :: later) :
    Event.Follows due before x := by
  rcases List.eq_nil_or_concat later with rfl | ⟨later, last, rfl⟩
  · obtain ⟨rfl, hx⟩ := List.append_inj' hl rfl
    obtain rfl : e = x := by simpa using hx
    exact he
  · have hl' : log ++ [e] = (before ++ x :: later) ++ [last] := by simpa using hl
    exact ih before x later (List.append_inj' hl' rfl).1

/-- Numbers are fresh when they are filed; only pending numbers are closed, and served when due. -/
theorem follows (h : Orderly due pending last log) (hl : log = before ++ e :: later) :
    Event.Follows due before e := by
  induction h generalizing before e later with
  | start => simp at hl
  | @file pending last log number h hn item ih =>
    have hfresh : Event.Follows due log (.filed number item) := by
      intro x hx hnum
      have hle := h.bounded.2 x hx
      omega
    exact follows_snoc (fun _ _ _ => ih) hfresh hl
  | @serve pending last log number time item h hp hd ih =>
    have hserve : Event.Follows due log (.served number item time) := ⟨h.pending_spec hp, hd⟩
    exact follows_snoc (fun _ _ _ => ih) hserve hl
  | @strike pending last log number item h hp ih =>
    have hstrike : Event.Follows due log (.struck number) := ⟨item, h.pending_spec hp⟩
    exact follows_snoc (fun _ _ _ => ih) hstrike hl

end Orderly

end StellarTags.Library.Dockets
