import Mathlib.Data.List.AList
import Mathlib.Data.List.Nodup
import Mathlib.Tactic.Common

/-! Members under keys, where a key goes when its last member does; and a loop over components, one
step for each. -/

namespace StellarTags.Library.Subscriptions

section Registry

variable {κ ι : Type} [DecidableEq κ]

abbrev Registry (κ ι : Type) : Type := AList fun _ : κ => List ι

def members (r : Registry κ ι) (k : κ) : List ι := (r.lookup k).getD []

def all (r : Registry κ ι) : List ι := r.entries.flatMap fun entry => entry.2

/-- No key is without members, and no member is listed twice under one. -/
def Sound (r : Registry κ ι) : Prop := ∀ k is, r.lookup k = some is → is ≠ [] ∧ is.Nodup

variable {r : Registry κ ι} {k k' : κ} {i j : ι}

lemma sound_empty : Sound (∅ : Registry κ ι) := by
  intro k is h
  cases h

lemma Sound.nodup (h : Sound r) (k : κ) : (members r k).Nodup := by
  rw [members]
  cases hk : r.lookup k with
  | none => exact List.nodup_nil
  | some is => exact (h k is hk).2

lemma mem_all : i ∈ all r ↔ ∃ k, i ∈ members r k := by
  rw [all, List.mem_flatMap]
  constructor
  · rintro ⟨⟨k, is⟩, hmem, hi⟩
    have hlookup : r.lookup k = some is := AList.mem_lookup_iff.mpr hmem
    exact ⟨k, by rwa [members, hlookup]⟩
  · rintro ⟨k, hi⟩
    cases hk : r.lookup k with
    | none => rw [members, hk] at hi; cases hi
    | some is =>
      rw [members, hk] at hi
      exact ⟨⟨k, is⟩, AList.mem_lookup_iff.mp hk, hi⟩

lemma Sound.entries_eq_nil (h : Sound r) : r.entries = [] ↔ ∀ i, i ∉ all r := by
  constructor
  · intro hnil i hi
    rw [all, hnil] at hi
    cases hi
  · intro hnone
    refine List.eq_nil_iff_forall_not_mem.mpr ?_
    rintro ⟨k, is⟩ hmem
    have hlookup : r.lookup k = some is := AList.mem_lookup_iff.mpr hmem
    obtain ⟨i, hi⟩ := List.exists_mem_of_ne_nil _ (h k is hlookup).1
    exact hnone i (mem_all.mpr ⟨k, by rwa [members, hlookup]⟩)

/-- Nothing is listed twice at all where nothing is listed under two keys. -/
lemma Sound.nodup_all (h : Sound r)
    (hkeys : ∀ i k k', i ∈ members r k → i ∈ members r k' → k = k') : (all r).Nodup := by
  have hlookup {entry : (_ : κ) × List ι} (hentry : entry ∈ r.entries) :
      r.lookup entry.1 = some entry.2 := AList.mem_lookup_iff.mpr hentry
  refine List.nodup_flatMap.mpr ⟨fun entry hentry => (h _ _ (hlookup hentry)).2, ?_⟩
  have hne := r.nodupKeys
  rw [List.NodupKeys, List.keys, List.nodup_iff_pairwise_ne, List.pairwise_map] at hne
  refine hne.imp_of_mem ?_
  intro a b ha hb hab i hia hib
  apply hab
  apply hkeys i
  · rwa [members, hlookup ha]
  · rwa [members, hlookup hb]

end Registry

section Changes

variable {κ ι : Type} [DecidableEq κ] [DecidableEq ι]

def add (k : κ) (i : ι) (r : Registry κ ι) : Registry κ ι :=
  r.insert k (if i ∈ members r k then members r k else members r k ++ [i])

def remove (k : κ) (i : ι) (r : Registry κ ι) : Registry κ ι :=
  let rest := (members r k).erase i
  if rest = [] then r.erase k else r.insert k rest

variable {r : Registry κ ι} {k k' : κ} {i j : ι}

lemma members_add (k' : κ) : members (add k i r) k' =
    if k' = k then (if i ∈ members r k then members r k else members r k ++ [i])
    else members r k' := by
  by_cases hk : k' = k
  · subst hk
    rw [if_pos rfl, members, add, AList.lookup_insert, Option.getD_some]
  · rw [if_neg hk, members, add, AList.lookup_insert_ne hk]
    rfl

lemma members_remove (k' : κ) : members (remove k i r) k' =
    if k' = k then (members r k).erase i else members r k' := by
  unfold remove
  by_cases hk : k' = k
  · subst hk
    rw [if_pos rfl]
    by_cases hrest : (members r k').erase i = []
    · rw [if_pos hrest, members, AList.lookup_erase, hrest, Option.getD_none]
    · rw [if_neg hrest, members, AList.lookup_insert, Option.getD_some]
  · rw [if_neg hk]
    by_cases hrest : (members r k).erase i = []
    · rw [if_pos hrest, members, AList.lookup_erase_ne hk]
      rfl
    · rw [if_neg hrest, members, AList.lookup_insert_ne hk]
      rfl

lemma mem_members_add : j ∈ members (add k i r) k' ↔ (k' = k ∧ j = i) ∨ j ∈ members r k' := by
  rw [members_add]
  by_cases hk : k' = k
  · subst hk
    by_cases hi : i ∈ members r k'
    · rw [if_pos rfl, if_pos hi]
      refine ⟨.inr, ?_⟩
      rintro (⟨-, rfl⟩ | hj)
      · exact hi
      · exact hj
    · rw [if_pos rfl, if_neg hi, List.mem_append, List.mem_singleton]
      tauto
  · rw [if_neg hk]
    tauto

lemma Sound.mem_members_remove (h : Sound r) :
    j ∈ members (remove k i r) k' ↔ j ∈ members r k' ∧ ¬ (k' = k ∧ j = i) := by
  rw [members_remove]
  by_cases hk : k' = k
  · subst hk
    rw [if_pos rfl, (h.nodup k').mem_erase_iff]
    tauto
  · rw [if_neg hk]
    tauto

lemma Sound.add (h : Sound r) (k : κ) (i : ι) : Sound (add k i r) := by
  intro k' is hlookup
  by_cases hk : k' = k
  · subst hk
    rw [Subscriptions.add, AList.lookup_insert] at hlookup
    obtain rfl := Option.some.inj hlookup
    have hnodup := h.nodup k'
    by_cases hi : i ∈ members r k'
    · rw [if_pos hi]
      exact ⟨List.ne_nil_of_mem hi, hnodup⟩
    · rw [if_neg hi]
      refine ⟨by simp, List.nodup_append.mpr ⟨hnodup, List.nodup_singleton i, ?_⟩⟩
      rintro a ha b hb rfl
      exact hi (List.mem_singleton.mp hb ▸ ha)
  · rw [Subscriptions.add, AList.lookup_insert_ne hk] at hlookup
    exact h k' is hlookup

lemma Sound.remove (h : Sound r) (k : κ) (i : ι) : Sound (remove k i r) := by
  intro k' is hlookup
  rw [Subscriptions.remove] at hlookup
  by_cases hrest : (members r k).erase i = []
  · rw [if_pos hrest] at hlookup
    by_cases hk : k' = k
    · subst hk
      rw [AList.lookup_erase] at hlookup
      cases hlookup
    · rw [AList.lookup_erase_ne hk] at hlookup
      exact h k' is hlookup
  · rw [if_neg hrest] at hlookup
    by_cases hk : k' = k
    · subst hk
      rw [AList.lookup_insert] at hlookup
      obtain rfl := Option.some.inj hlookup
      exact ⟨hrest, (h.nodup k').erase i⟩
    · rw [AList.lookup_insert_ne hk] at hlookup
      exact h k' is hlookup

end Changes

section Components

variable {σ ι β : Type} [DecidableEq ι]

/-- A loop whose steps change one component each changes those it goes over, each on its own. -/
lemma foldl_view (I : σ → Prop) (view : σ → ι → β) (op : σ → ι → σ) (change : ι → β → β)
    (hop : ∀ s i, I s →
      I (op s i) ∧ ∀ j, view (op s i) j = if j = i then change i (view s i) else view s j)
    {is : List ι} (his : is.Nodup) {s : σ} (hs : I s) : I (is.foldl op s) ∧
      ∀ j, view (is.foldl op s) j = if j ∈ is then change j (view s j) else view s j := by
  induction is generalizing s with
  | nil => exact ⟨hs, fun j => by simp⟩
  | cons i is ih =>
    obtain ⟨hi, his⟩ := List.nodup_cons.mp his
    obtain ⟨hnext, hview⟩ := hop s i hs
    obtain ⟨hend, hrest⟩ := ih his hnext
    refine ⟨hend, fun j => ?_⟩
    rw [List.foldl_cons, hrest, hview]
    by_cases hj : j = i
    · subst hj
      rw [if_neg hi, if_pos rfl, if_pos List.mem_cons_self]
    · by_cases hmem : j ∈ is
      · rw [if_pos hmem, if_neg hj, if_pos (List.mem_cons_of_mem i hmem)]
      · rw [if_neg hmem, if_neg hj, if_neg (List.not_mem_cons_of_ne_of_not_mem hj hmem)]

end Components

end StellarTags.Library.Subscriptions
