import Mathlib.Data.List.Nodup
import Mathlib.Data.List.Perm.Subperm
import Mathlib.Logic.Function.Basic
import Mathlib.Tactic.Common

/-! Tables of rows with a key, changed by conditional updates. -/

namespace StellarTags.Library.Tables

variable {κ ρ : Type} [DecidableEq κ] (key : ρ → κ)

def lookup (k : κ) (rows : List ρ) : Option ρ := rows.find? (key · = k)

def insert (row : ρ) (rows : List ρ) : List ρ :=
  if (lookup key (key row) rows).isSome then rows else rows ++ [row]

def Keyed (rows : List ρ) : Prop := (rows.map key).Nodup

def updateMany (condition : ρ → Bool) (change : ρ → ρ) (rows : List ρ) : ℕ × List ρ :=
  (rows.countP condition, rows.map fun row => if condition row then change row else row)

variable {key} {k : κ} {row : ρ} {rows : List ρ} {condition : ρ → Bool} {change : ρ → ρ}

@[simp] lemma lookup_nil : lookup key k [] = none := rfl

lemma lookup_cons : lookup key k (row :: rows) =
    if key row = k then some row else lookup key k rows := by
  unfold lookup
  rw [List.find?_cons]
  by_cases h : key row = k <;> simp [h]

lemma mem_of_lookup (h : lookup key k rows = some row) : row ∈ rows := List.mem_of_find?_eq_some h

lemma key_of_lookup (h : lookup key k rows = some row) : key row = k := by
  simpa using List.find?_some h

omit [DecidableEq κ] in
lemma keyed_nil : Keyed key [] := List.nodup_nil

lemma Keyed.lookup_eq_some (h : Keyed key rows) : lookup key k rows = some row ↔
    row ∈ rows ∧ key row = k := by
  refine ⟨fun hlookup => ⟨mem_of_lookup hlookup, key_of_lookup hlookup⟩, ?_⟩
  rintro ⟨hmem, rfl⟩
  induction rows with
  | nil => cases hmem
  | cons first rows ih =>
    obtain ⟨hfirst, hrest⟩ := List.nodup_cons.mp h
    rw [lookup_cons]
    obtain rfl | hmem := List.mem_cons.mp hmem
    · rw [if_pos rfl]
    · have hne : key first ≠ key row := fun heq => hfirst (heq ▸ List.mem_map_of_mem hmem)
      rw [if_neg hne]
      exact ih hrest hmem

lemma lookup_insert (k : κ) (row : ρ) (rows : List ρ) : lookup key k (insert key row rows) =
    (lookup key k rows).or (if key row = k then some row else none) := by
  unfold insert
  by_cases hsome : (lookup key (key row) rows).isSome
  · rw [if_pos hsome]
    by_cases hk : key row = k
    · subst hk
      rw [Option.or_of_isSome hsome]
    · rw [if_neg hk, Option.or_none]
  · rw [if_neg hsome]
    unfold lookup
    rw [List.find?_append]
    by_cases hk : key row = k <;> simp [hk]

lemma lookup_insert_of_some (h : lookup key k rows = some row) (new : ρ) :
    lookup key k (insert key new rows) = some row := by
  rw [lookup_insert, h, Option.some_or]

lemma Keyed.insert (h : Keyed key rows) (row : ρ) : Keyed key (Tables.insert key row rows) := by
  unfold Tables.insert
  split_ifs with hsome
  · exact h
  · rw [Keyed, List.map_append, List.nodup_append]
    refine ⟨h, List.nodup_singleton _, ?_⟩
    rintro k hk _ hnew rfl
    obtain ⟨old, hold, hkey⟩ := List.mem_map.mp hk
    apply hsome
    rw [← List.mem_singleton.mp hnew, (h.lookup_eq_some).mpr ⟨hold, hkey⟩]
    rfl

lemma lookup_updateMany (hchange : ∀ row, condition row = true → key (change row) = key row)
    (k : κ) (rows : List ρ) : lookup key k (updateMany condition change rows).2 =
      (lookup key k rows).map fun row => if condition row then change row else row := by
  have hkey (row : ρ) : key (if condition row then change row else row) = key row := by
    split_ifs with hrow
    · exact hchange row hrow
    · rfl
  induction rows with
  | nil => rfl
  | cons row rows ih =>
    rw [updateMany, List.map_cons, lookup_cons, lookup_cons, hkey]
    by_cases hk : key row = k
    · rw [if_pos hk, if_pos hk, Option.map_some]
    · rw [if_neg hk, if_neg hk]
      exact ih

lemma lookup_updateMany_of_ne {k' : κ}
    (hchange : ∀ row, condition row = true → key (change row) = key row)
    (hcondition : ∀ row, condition row = true → key row = k) (hne : k' ≠ k) :
    lookup key k' (updateMany condition change rows).2 = lookup key k' rows := by
  rw [lookup_updateMany hchange]
  cases hlookup : lookup key k' rows with
  | none => rfl
  | some row =>
    have hrow : ¬ condition row = true := fun hrow =>
      hne ((key_of_lookup hlookup).symm.trans (hcondition row hrow))
    rw [Option.map_some, if_neg hrow]

lemma lookup_updateMany_self
    (hchange : ∀ row, condition row = true → key (change row) = key row)
    (hlookup : lookup key k rows = some row) (hrow : condition row = true) :
    lookup key k (updateMany condition change rows).2 = some (change row) := by
  rw [lookup_updateMany hchange, hlookup, Option.map_some, if_pos hrow]

omit [DecidableEq κ] in
lemma updateMany_of_fst_eq_zero (h : (updateMany condition change rows).1 = 0) :
    (updateMany condition change rows).2 = rows := by
  apply (List.map_congr_left fun row hrow => ?_).trans rows.map_id
  rw [if_neg (List.countP_eq_zero.mp h row hrow), id]

omit [DecidableEq κ] in
lemma Keyed.updateMany (h : Keyed key rows)
    (hchange : ∀ row, condition row = true → key (change row) = key row) :
    Keyed key (Tables.updateMany condition change rows).2 := by
  have hkeys : (rows.map fun row => if condition row then change row else row).map key =
      rows.map key := by
    rw [List.map_map]
    apply List.map_congr_left
    intro row _
    simp only [Function.comp_apply]
    split_ifs with hrow
    · exact hchange row hrow
    · rfl
  rw [Keyed, Tables.updateMany, hkeys]
  exact h

lemma Keyed.updateMany_fst (h : Keyed key rows)
    (hcondition : ∀ row, condition row = true → key row = k) :
    (Tables.updateMany condition change rows).1 =
      if (lookup key k rows).any condition then 1 else 0 := by
  change rows.countP condition = _
  induction rows with
  | nil => rfl
  | cons row rows ih =>
    obtain ⟨hnew, hrest⟩ := List.nodup_cons.mp h
    rw [List.countP_cons, lookup_cons, ih hrest]
    by_cases hk : key row = k
    · have hnone : lookup key k rows = none := by
        rw [lookup, List.find?_eq_none]
        intro other hother heq
        rw [decide_eq_true_eq, ← hk] at heq
        exact hnew (heq ▸ List.mem_map_of_mem hother)
      simp [hk, hnone]
    · have hfalse : condition row = false := Bool.eq_false_iff.mpr fun hrow => hk (hcondition row hrow)
      simp [hk, hfalse]

section Counts

variable {p : ρ → Bool} (hchange : ∀ row, condition row = true → p (change row) = false)
include hchange

lemma countP_updateMany_le (rows : List ρ) :
    (updateMany condition change rows).2.countP p ≤ rows.countP p := by
  rw [updateMany, List.countP_map]
  apply List.countP_mono_left
  intro row _ hrow
  rw [Function.comp_apply] at hrow
  split_ifs at hrow with hcondition
  · rw [hchange row hcondition] at hrow
    cases hrow
  · exact hrow

lemma countP_updateMany_lt (hmem : row ∈ rows) (hrow : condition row = true) (hp : p row = true) :
    (updateMany condition change rows).2.countP p < rows.countP p := by
  obtain ⟨before, after, rfl⟩ := List.append_of_mem hmem
  have hbefore := countP_updateMany_le hchange before
  have hafter := countP_updateMany_le hchange after
  simp only [updateMany, List.map_append, List.map_cons, List.countP_append, List.countP_cons,
    if_pos hrow, hchange row hrow, hp, if_true] at hbefore hafter ⊢
  simp only [Bool.false_eq_true, if_false]
  omega

end Counts

end StellarTags.Library.Tables

/-! Maps that remember in which order their keys came. -/

namespace StellarTags.Library

structure InsertionMap (κ ν : Type) where
  keys : List κ
  get : κ → Option ν
  nodup : keys.Nodup
  mem_keys : ∀ k, k ∈ keys ↔ (get k).isSome

namespace InsertionMap

variable {κ ν : Type} [DecidableEq κ] {m : InsertionMap κ ν} {k : κ}

def empty : InsertionMap κ ν where
  keys := []
  get _ := none
  nodup := List.nodup_nil
  mem_keys k := by simp

def size (m : InsertionMap κ ν) : ℕ := m.keys.length

def delete (k : κ) (m : InsertionMap κ ν) : InsertionMap κ ν where
  keys := m.keys.filter (· ≠ k)
  get := Function.update m.get k none
  nodup := m.nodup.filter _
  mem_keys other := by
    by_cases hk : other = k
    · subst hk
      simp
    · simp [hk, m.mem_keys]

/-- A key that is there keeps its place. -/
def set (k : κ) (v : ν) (m : InsertionMap κ ν) : InsertionMap κ ν where
  keys := if (m.get k).isSome then m.keys else m.keys ++ [k]
  get := Function.update m.get k (some v)
  nodup := by
    split_ifs with hsome
    · exact m.nodup
    · have hnew : k ∉ m.keys := fun hmem => hsome ((m.mem_keys k).mp hmem)
      rw [List.nodup_append]
      refine ⟨m.nodup, List.nodup_singleton _, ?_⟩
      rintro other hother _ hmem rfl
      exact hnew (List.mem_singleton.mp hmem ▸ hother)
  mem_keys other := by
    by_cases hk : other = k
    · subst hk
      by_cases hsome : (m.get other).isSome <;> simp [hsome, m.mem_keys]
    · by_cases hsome : (m.get k).isSome <;> simp [hsome, hk, m.mem_keys]

def deleteOldest (m : InsertionMap κ ν) : InsertionMap κ ν :=
  m.keys.head?.elim m fun oldest => m.delete oldest

omit [DecidableEq κ] in
@[simp] lemma get_empty (k : κ) : (empty : InsertionMap κ ν).get k = none := rfl

@[simp] lemma get_delete (k : κ) (m : InsertionMap κ ν) :
    (m.delete k).get = Function.update m.get k none := rfl

@[simp] lemma get_set (k : κ) (v : ν) (m : InsertionMap κ ν) :
    (m.set k v).get = Function.update m.get k (some v) := rfl

lemma get_of_get_deleteOldest {v : ν} (h : m.deleteOldest.get k = some v) : m.get k = some v := by
  unfold deleteOldest at h
  cases holdest : m.keys.head? with
  | none => simpa [holdest] using h
  | some oldest =>
    rw [holdest, Option.elim_some, get_delete] at h
    by_cases hk : k = oldest
    · rw [hk, Function.update_self] at h
      cases h
    · rwa [Function.update_of_ne hk] at h

lemma keys_set_subset {keys : List κ} (h : m.keys ⊆ keys) (hk : k ∈ keys) (v : ν) :
    (m.set k v).keys ⊆ keys := by
  unfold set
  dsimp only
  split_ifs
  · exact h
  · simpa using ⟨h, hk⟩

omit [DecidableEq κ] in
lemma size_lt {keys : List κ} (h : m.keys ⊆ keys) (hk : k ∈ keys) (hnone : m.get k = none) :
    m.size < keys.length := by
  have hnew : k ∉ m.keys := fun hmem => by
    have hsome := (m.mem_keys k).mp hmem
    rw [hnone] at hsome
    cases hsome
  have hsub : k :: m.keys ⊆ keys := List.cons_subset.mpr ⟨hk, h⟩
  exact (List.subperm_of_subset (List.nodup_cons.mpr ⟨hnew, m.nodup⟩) hsub).length_le

end InsertionMap

end StellarTags.Library
