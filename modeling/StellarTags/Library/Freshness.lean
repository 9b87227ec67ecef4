import Mathlib.Data.List.Induction

/-! What reads may answer once a value has been replaced: histories of writes and reads that take
time. -/

namespace StellarTags.Library.Freshness

/-- A write binds a key to another value, and completes later; a read starts, and answers later with
what it binds to what. -/
inductive Event (κ ν : Type)
  | bound (write : ℕ) (key : κ) (old new : ν)
  | completed (write : ℕ)
  | started (read : ℕ)
  | answered (read : ℕ) (binds : κ → ν → Prop)

variable {κ ν : Type} [DecidableEq κ] [DecidableEq ν]

/-- The write that took the value from the key, unless one gave it back since. -/
def replacerAfter (key : κ) (value : ν) (found : Option ℕ) : Event κ ν → Option ℕ
  | .bound write k old new =>
    if k = key then
      if new = value then none else if old = value then found.or (some write) else found
    else found
  | _ => found

def replacer (key : κ) (value : ν) (history : List (Event κ ν)) : Option ℕ :=
  history.foldl (replacerAfter key value) none

/-- A write that has completed took the value from the key. -/
def Retired (history : List (Event κ ν)) (key : κ) (value : ν) : Prop :=
  ∃ write, replacer key value history = some write ∧ .completed write ∈ history

/-- A read that starts after a write has completed never answers with what was bound before, unless it
is bound again. -/
def Fresh (history : List (Event κ ν)) : Prop :=
  ∀ earlier read later binds after,
    history = earlier ++ .started read :: later ++ .answered read binds :: after →
      ∀ key value, binds key value → Retired earlier key value →
        ∃ write old, .bound write key old value ∈ later

variable {history more earlier later : List (Event κ ν)} {event : Event κ ν} {key k : κ}
  {value old new : ν} {write read : ℕ} {binds : κ → ν → Prop}

@[simp] lemma replacer_nil : replacer key value ([] : List (Event κ ν)) = none := rfl

lemma replacer_append : replacer key value (history ++ [event]) =
    replacerAfter key value (replacer key value history) event := by
  rw [replacer, List.foldl_append]
  rfl

@[simp] lemma replacer_completed :
    replacer key value (history ++ [.completed write]) = replacer key value history := replacer_append

@[simp] lemma replacer_started :
    replacer key value (history ++ [.started read]) = replacer key value history := replacer_append

@[simp] lemma replacer_answered :
    replacer key value (history ++ [.answered read binds]) = replacer key value history :=
  replacer_append

lemma replacer_bound_self : replacer key new (history ++ [.bound write key old new]) = none := by
  rw [replacer_append]
  simp [replacerAfter]

lemma replacer_bound_of_ne (h : k ≠ key) :
    replacer key value (history ++ [.bound write k old new]) = replacer key value history := by
  rw [replacer_append]
  simp [replacerAfter, h]

lemma replacer_bound (h : new ≠ value) :
    replacer key value (history ++ [.bound write key old new]) =
      if old = value then (replacer key value history).or (some write)
      else replacer key value history := by
  rw [replacer_append]
  simp [replacerAfter, h]

/-- Only a write of the key that gives the value back makes it no one's. -/
lemma replacer_append_of_some (h : replacer key value history = some write)
    (hevent : ∀ write old, event ≠ .bound write key old value) :
    replacer key value (history ++ [event]) = some write := by
  rw [replacer_append, h]
  cases event with
  | bound other k old new =>
    have hback : ¬ (k = key ∧ new = value) := by
      rintro ⟨rfl, rfl⟩
      exact hevent other old rfl
    simp only [replacerAfter]
    split_ifs with hk hnew
    · exact absurd ⟨hk, hnew⟩ hback
    · rfl
    · rfl
    · rfl
  | completed | started | answered => rfl

lemma Retired.append (h : Retired earlier key value)
    (hbound : ∀ write old, .bound write key old value ∉ later) :
    Retired (earlier ++ later) key value := by
  obtain ⟨write, hreplacer, hcompleted⟩ := h
  refine ⟨write, ?_, List.mem_append_left _ hcompleted⟩
  induction later using List.reverseRecOn with
  | nil => rwa [List.append_nil]
  | append_singleton later event ih =>
    rw [← List.append_assoc]
    apply replacer_append_of_some
    · exact ih fun write old hmem => hbound write old (List.mem_append_left _ hmem)
    · rintro write old rfl
      exact hbound write old (List.mem_append_right _ (List.mem_singleton_self _))

@[simp] lemma retired_started :
    Retired (history ++ [.started read]) key value ↔ Retired history key value := by
  simp [Retired]

@[simp] lemma retired_answered :
    Retired (history ++ [.answered read binds]) key value ↔ Retired history key value := by
  simp [Retired]

lemma retired_completed : Retired (history ++ [.completed write]) key value ↔
    Retired history key value ∨ replacer key value history = some write := by
  simp only [Retired, replacer_completed, List.mem_append, List.mem_singleton, Event.completed.injEq]
  constructor
  · rintro ⟨other, hreplacer, hcompleted | rfl⟩
    · exact .inl ⟨other, hreplacer, hcompleted⟩
    · exact .inr hreplacer
  · rintro (⟨other, hreplacer, hcompleted⟩ | hreplacer)
    · exact ⟨other, hreplacer, .inl hcompleted⟩
    · exact ⟨write, hreplacer, .inr rfl⟩

lemma not_retired_bound (h : ¬ Retired history key value) (hwrite : .completed write ∉ history) :
    ¬ Retired (history ++ [.bound write k old new]) key value := by
  rintro ⟨other, hreplacer, hcompleted⟩
  have hcompleted : .completed other ∈ history := by simpa using hcompleted
  rw [replacer_append] at hreplacer
  simp only [replacerAfter] at hreplacer
  split_ifs at hreplacer
  · cases hfound : replacer key value history with
    | none =>
      rw [hfound, Option.none_or] at hreplacer
      exact hwrite (Option.some.inj hreplacer ▸ hcompleted)
    | some found =>
      rw [hfound, Option.some_or] at hreplacer
      exact h ⟨other, hfound.trans hreplacer, hcompleted⟩
  · exact h ⟨other, hreplacer, hcompleted⟩
  · exact h ⟨other, hreplacer, hcompleted⟩

lemma fresh_nil : Fresh ([] : List (Event κ ν)) := by
  intro earlier read later binds after h
  simp at h

lemma Fresh.append (h : Fresh history)
    (hanswer : ∀ read binds, event = .answered read binds → ∀ key value, binds key value →
      ¬ Retired history key value) : Fresh (history ++ [event]) := by
  intro earlier read later binds after heq key value hbinds hretired
  cases after using List.reverseRecOn with
  | nil =>
    obtain ⟨hbefore, hlast⟩ := List.append_inj' heq rfl
    by_contra hnone
    push Not at hnone
    apply hanswer read binds (List.singleton_inj.mp hlast) key value hbinds
    rw [hbefore]
    apply hretired.append
    intro write old hmem
    obtain hmem | hmem := List.mem_cons.mp hmem
    · cases hmem
    · exact hnone write old hmem
  | append_singleton after last =>
    rw [← List.cons_append, ← List.append_assoc] at heq
    exact h earlier read later binds after (List.append_inj' heq rfl).1 key value hbinds hretired

end StellarTags.Library.Freshness
