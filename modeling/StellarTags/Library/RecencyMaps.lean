import Mathlib.Algebra.Order.Group.Int
import Mathlib.Data.List.Dedup
import Mathlib.Data.List.Perm.Subperm
import Mathlib.Data.List.Pairwise
import Mathlib.Tactic.Common

/-! Maps of keys to the times they were used at lately, bounded by forgetting the keys that were used
longest ago. -/

namespace StellarTags.Library.RecencyMaps

variable {κ : Type} [DecidableEq κ]

/-- The key that was used last comes last, and every key has been used. -/
structure RecencyMap (κ : Type) where
  entries : List (κ × List ℤ)
  nodup : (entries.map Prod.fst).Nodup
  used : ∀ e ∈ entries, e.2 ≠ []

namespace RecencyMap

def empty : RecencyMap κ := ⟨[], List.nodup_nil, fun _ h => absurd h List.not_mem_nil⟩

def size (m : RecencyMap κ) : ℕ := m.entries.length

def times (k : κ) (m : RecencyMap κ) : List ℤ :=
  ((m.entries.find? (·.1 = k)).map Prod.snd).getD []

/-- Any part of the map, in its order. -/
def restrict (m : RecencyMap κ) (entries : List (κ × List ℤ)) (h : entries.Sublist m.entries) :
    RecencyMap κ :=
  ⟨entries, m.nodup.sublist (h.map _), fun e he => m.used e (h.subset he)⟩

def delete (k : κ) (m : RecencyMap κ) : RecencyMap κ :=
  m.restrict (m.entries.filter (·.1 ≠ k)) List.filter_sublist

/-- A key is put last with its times, wherever it was before. -/
def touch (k : κ) (earlier : List ℤ) (now : ℤ) (m : RecencyMap κ) : RecencyMap κ where
  entries := (m.delete k).entries ++ [(k, earlier ++ [now])]
  nodup := by
    rw [List.map_append, List.nodup_append]
    refine ⟨(m.delete k).nodup, List.nodup_singleton _, ?_⟩
    rintro j hj _ hk rfl
    obtain rfl := List.mem_singleton.mp hk
    obtain ⟨e, he, heq⟩ := List.mem_map.mp hj
    exact of_decide_eq_true (List.mem_filter.mp he).2 heq
  used e he := by
    obtain he | he := List.mem_append.mp he
    · exact (m.delete k).used e he
    · rw [List.mem_singleton.mp he]
      exact List.append_ne_nil_of_right_ne_nil _ (List.cons_ne_nil _ _)

def lastSeen (times : List ℤ) : ℤ := times.getLast?.getD 0

/-- The first entries are dropped while there are too many. -/
def shrink (cap : ℕ) : List (κ × List ℤ) → List (κ × List ℤ)
  | [] => []
  | e :: es => if cap < es.length + 1 then shrink cap es else e :: es

omit [DecidableEq κ] in
lemma shrink_eq (cap : ℕ) (es : List (κ × List ℤ)) : shrink cap es = es.drop (es.length - cap) := by
  induction es with
  | nil => exact List.drop_nil.symm
  | cons e es ih =>
    rw [shrink, List.length_cons]
    split_ifs with h
    · rw [ih, Nat.succ_sub (Nat.le_of_lt_succ h), List.drop_succ_cons]
    · rw [Nat.sub_eq_zero_of_le (Nat.le_of_not_lt h), List.drop_zero]

omit [DecidableEq κ] in
lemma shrink_sublist (cap : ℕ) (es : List (κ × List ℤ)) : (shrink cap es).Sublist es := by
  rw [shrink_eq]
  exact List.drop_sublist _ _

/-- Too large a map drops what was used longer ago than the window, then what was used longest ago. -/
def evict (cap : ℕ) (window now : ℤ) (m : RecencyMap κ) : RecencyMap κ :=
  if m.size ≤ cap then m
  else m.restrict (shrink cap (m.entries.filter fun e => now - lastSeen e.2 < window))
    ((shrink_sublist cap _).trans List.filter_sublist)

def recent (window now : ℤ) (k : κ) (m : RecencyMap κ) : List ℤ :=
  (m.times k).filter (now - · < window)

def use (cap : ℕ) (window : ℤ) (k : κ) (now : ℤ) (m : RecencyMap κ) : RecencyMap κ :=
  (m.touch k (m.recent window now k) now).evict cap window now

lemma size_use_le (cap : ℕ) (window : ℤ) (k : κ) (now : ℤ) (m : RecencyMap κ) :
    (m.use cap window k now).size ≤ cap := by
  rw [use, evict]
  split_ifs with h
  · exact h
  · change (shrink cap _).length ≤ cap
    rw [shrink_eq, List.length_drop]
    omega

section Times

variable {m : RecencyMap κ} {k j : κ} {l : List ℤ} {es : List (κ × List ℤ)}

lemma times_of_mem (h : (k, l) ∈ m.entries) : m.times k = l := by
  cases hfind : m.entries.find? (·.1 = k) with
  | none => exact absurd (List.find?_eq_none.mp hfind _ h) (by simp)
  | some e =>
    have hfound := List.find?_some hfind
    have hk : e.1 = k := of_decide_eq_true hfound
    have he : e ∈ m.entries := List.mem_of_find?_eq_some hfind
    have heq : e = (k, l) := List.inj_on_of_nodup_map m.nodup he h hk
    rw [times, hfind, heq]
    rfl

lemma times_of_forall_ne (h : ∀ e ∈ m.entries, e.1 ≠ k) : m.times k = [] := by
  have hfind : m.entries.find? (·.1 = k) = none :=
    List.find?_eq_none.mpr fun e he => by simpa using h e he
  rw [times, hfind]
  rfl

lemma exists_or_forall_ne (m : RecencyMap κ) (k : κ) :
    (∃ l, (k, l) ∈ m.entries) ∨ ∀ e ∈ m.entries, e.1 ≠ k := by
  by_cases h : ∃ e ∈ m.entries, e.1 = k
  · obtain ⟨e, he, rfl⟩ := h
    exact .inl ⟨e.2, he⟩
  · exact .inr fun e he hk => h ⟨e, he, hk⟩

lemma times_restrict (hes : es.Sublist m.entries) : (m.restrict es hes).times k = m.times k ∨
    (m.restrict es hes).times k = [] ∧ ∀ e ∈ es, e.1 ≠ k := by
  obtain ⟨l, hl⟩ | hne := (m.restrict es hes).exists_or_forall_ne k
  · rw [times_of_mem hl, times_of_mem (hes.subset hl)]
    exact .inl rfl
  · exact .inr ⟨times_of_forall_ne hne, hne⟩

lemma times_delete (hj : j ≠ k) : (m.delete k).times j = m.times j := by
  obtain h | ⟨hnil, hne⟩ := times_restrict (m := m) (k := j) List.filter_sublist
  · exact h
  · refine hnil.trans (times_of_forall_ne fun e he hej => ?_).symm
    refine hne e (List.mem_filter.mpr ⟨he, decide_eq_true ?_⟩) hej
    rwa [hej]

lemma times_touch (earlier : List ℤ) (now : ℤ) :
    (m.touch k earlier now).times j = if j = k then earlier ++ [now] else m.times j := by
  split_ifs with hj
  · rw [hj]
    exact times_of_mem (List.mem_append_right _ List.mem_cons_self)
  · refine Eq.trans ?_ (times_delete hj)
    obtain ⟨l, hl⟩ | hne := (m.delete k).exists_or_forall_ne j
    · rw [times_of_mem hl]
      exact times_of_mem (List.mem_append_left _ hl)
    · rw [times_of_forall_ne hne]
      refine times_of_forall_ne fun e he => ?_
      obtain he | he := List.mem_append.mp he
      · exact hne e he
      · rw [List.mem_singleton.mp he]
        exact Ne.symm hj

omit [DecidableEq κ] in
lemma lastSeen_mem {times : List ℤ} (h : times ≠ []) : lastSeen times ∈ times := by
  rw [lastSeen, List.getLast?_eq_some_getLast h]
  exact List.getLast_mem h

end Times

end RecencyMap

open RecencyMap

section History

def usesOf (k : κ) (history : List (κ × ℤ)) : List ℤ := (history.filter (·.1 = k)).map Prod.snd

/-- How many keys have been used since. -/
def crowd (since : ℤ) (history : List (κ × ℤ)) : ℕ :=
  ((history.filter (since < ·.2)).map Prod.fst).dedup.length

/-- What a bounded map knows of the uses of its keys: none that were not, and all those since any time
within the window that no more keys have been used since than the map has room for. -/
structure Tracks (cap : ℕ) (window : ℤ) (history : List (κ × ℤ)) (m : RecencyMap κ) : Prop where
  sublist : ∀ k, (m.times k).Sublist (usesOf k history)
  latest : ∀ e ∈ m.entries, ∀ u ∈ usesOf e.1 history, u ≤ lastSeen e.2
  ordered : m.entries.Pairwise fun e f => lastSeen e.2 ≤ lastSeen f.2
  complete : ∀ k since, (∀ e ∈ history, e.2 - window ≤ since) → crowd since history ≤ cap →
    (m.times k).filter (since < ·) = (usesOf k history).filter (since < ·)

variable {cap : ℕ} {window now since : ℤ} {history : List (κ × ℤ)} {m : RecencyMap κ} {k j : κ}

lemma mem_usesOf {u : ℤ} : u ∈ usesOf k history ↔ (k, u) ∈ history := by
  constructor
  · intro h
    obtain ⟨e, he, rfl⟩ := List.mem_map.mp h
    obtain ⟨hmem, hk⟩ := List.mem_filter.mp he
    rwa [← of_decide_eq_true hk]
  · intro h
    exact List.mem_map.mpr ⟨(k, u), List.mem_filter.mpr ⟨h, decide_eq_true rfl⟩, rfl⟩

lemma usesOf_append : usesOf j (history ++ [(k, now)]) =
    if j = k then usesOf j history ++ [now] else usesOf j history := by
  rw [usesOf, List.filter_append, List.map_append, ← usesOf]
  split_ifs with hj
  · subst hj
    rw [List.filter_cons, if_pos (decide_eq_true rfl)]
    rfl
  · rw [List.filter_cons, if_neg fun h => hj (of_decide_eq_true h).symm, List.filter_nil, List.map_nil,
      List.append_nil]

lemma crowd_le_append : crowd since history ≤ crowd since (history ++ [(k, now)]) := by
  have hsub : ((history.filter (since < ·.2)).map Prod.fst).dedup ⊆
      (((history ++ [(k, now)]).filter (since < ·.2)).map Prod.fst).dedup := by
    intro j hj
    rw [List.mem_dedup] at hj ⊢
    rw [List.filter_append, List.map_append]
    exact List.mem_append_left _ hj
  exact (List.subperm_of_subset (List.nodup_dedup _) hsub).length_le

/-- Different keys that have been used since are part of the crowd. -/
lemma length_le_crowd {keys : List κ} (hkeys : keys.Nodup)
    (hused : ∀ j ∈ keys, ∃ u, (j, u) ∈ history ∧ since < u) : keys.length ≤ crowd since history := by
  refine (List.subperm_of_subset hkeys fun j hj => ?_).length_le
  obtain ⟨u, hmem, hu⟩ := hused j hj
  exact List.mem_dedup.mpr (List.mem_map.mpr ⟨(j, u), List.mem_filter.mpr ⟨hmem, decide_eq_true hu⟩, rfl⟩)

namespace Tracks

lemma empty : Tracks cap window ([] : List (κ × ℤ)) RecencyMap.empty where
  sublist _ := List.Sublist.slnil
  latest _ h := absurd h List.not_mem_nil
  ordered := List.Pairwise.nil
  complete _ _ _ _ := rfl

/-- What the map says of the window is true, and all of it if there was room. -/
lemma recent_sublist (h : Tracks cap window history m) :
    (m.recent window now k).Sublist ((usesOf k history).filter (now - · < window)) :=
  (h.sublist k).filter _

lemma filter_window (l : List ℤ) : l.filter (now - · < window) = l.filter (now - window < ·) :=
  List.filter_congr fun u _ => decide_eq_decide.mpr (by omega)

lemma recent_eq (h : Tracks cap window history m) (hnow : ∀ e ∈ history, e.2 ≤ now)
    (hcrowd : crowd (now - window) history ≤ cap) :
    m.recent window now k = (usesOf k history).filter (now - · < window) := by
  rw [RecencyMap.recent, filter_window, filter_window]
  exact h.complete k (now - window) (fun e he => Int.sub_le_sub_right (hnow e he) window) hcrowd

lemma touch (h : Tracks cap window history m) (hnow : ∀ e ∈ history, e.2 ≤ now) :
    Tracks cap window (history ++ [(k, now)]) (m.touch k (m.recent window now k) now) := by
  have hlast (l : List ℤ) : lastSeen (l ++ [now]) = now := by
    rw [lastSeen, List.getLast?_concat, Option.getD_some]
  have hold {e : κ × List ℤ} (he : e ∈ (m.delete k).entries) : e ∈ m.entries ∧ e.1 ≠ k := by
    obtain ⟨hmem, hne⟩ := List.mem_filter.mp he
    exact ⟨hmem, of_decide_eq_true hne⟩
  have hbound {e : κ × List ℤ} (he : e ∈ m.entries) : lastSeen e.2 ≤ now := by
    have hmem : lastSeen e.2 ∈ usesOf e.1 history := (h.sublist e.1).subset
      ((times_of_mem he).symm ▸ lastSeen_mem (m.used e he))
    exact hnow _ (mem_usesOf.mp hmem)
  refine ⟨fun j => ?_, fun e he u hu => ?_, ?_, fun j since hsince hcrowd => ?_⟩
  · rw [times_touch, usesOf_append]
    split_ifs with hj
    · subst hj
      exact ((List.filter_sublist.trans (h.sublist j))).append_right [now]
    · exact h.sublist j
  · rw [usesOf_append] at hu
    obtain he | he := List.mem_append.mp he
    · obtain ⟨he, hne⟩ := hold he
      rw [if_neg hne] at hu
      exact h.latest e he u hu
    · obtain rfl := List.mem_singleton.mp he
      rw [if_pos rfl] at hu
      rw [hlast]
      obtain hu | hu := List.mem_append.mp hu
      · exact hnow _ (mem_usesOf.mp hu)
      · exact (List.mem_singleton.mp hu).le
  · refine List.pairwise_append.mpr ⟨h.ordered.sublist List.filter_sublist, List.pairwise_singleton _ _, ?_⟩
    intro e he f hf
    obtain rfl := List.mem_singleton.mp hf
    rw [hlast]
    exact hbound (hold he).1
  · have hbefore := h.complete j since (fun e he => hsince e (List.mem_append_left _ he))
      (crowd_le_append.trans hcrowd)
    rw [times_touch, usesOf_append]
    split_ifs with hj
    · subst hj
      have hwindow : now - window ≤ since := hsince (j, now) (List.mem_append_right _ List.mem_cons_self)
      have hkept : (m.recent window now j).filter (since < ·) = (m.times j).filter (since < ·) := by
        rw [RecencyMap.recent, List.filter_filter]
        refine List.filter_congr fun u _ => ?_
        rw [Bool.and_eq_left_iff_imp]
        intro hu
        have hu := of_decide_eq_true hu
        exact decide_eq_true (by omega)
      rw [List.filter_append, List.filter_append, hkept, hbefore]
    · exact hbefore

omit [DecidableEq κ] in
/-- An entry is dropped only for so many that were used later. -/
lemma forgotten {es : List (κ × List ℤ)}
    (hordered : es.Pairwise fun e f => lastSeen e.2 ≤ lastSeen f.2) {e : κ × List ℤ} (he : e ∈ es)
    (hdropped : e ∉ shrink cap es) :
    (shrink cap es).length = cap ∧ ∀ f ∈ shrink cap es, lastSeen e.2 ≤ lastSeen f.2 := by
  rw [shrink_eq] at hdropped ⊢
  rw [← List.take_append_drop (es.length - cap) es] at hordered he
  have htake : e ∈ es.take (es.length - cap) := (List.mem_append.mp he).resolve_right hdropped
  have hmany : 0 < es.length - cap := by
    refine Nat.pos_of_ne_zero fun hzero => ?_
    rw [hzero, List.take_zero] at htake
    exact List.not_mem_nil htake
  refine ⟨?_, fun f hf => (List.pairwise_append.mp hordered).2.2 e htake f hf⟩
  rw [List.length_drop]
  omega

/-- A key that was dropped and the keys that are kept have all been used since the key was, or later. -/
lemma lt_crowd (h : Tracks cap window history m) {es : List (κ × List ℤ)} (hes : es.Sublist m.entries)
    {l : List ℤ} (hl : (j, l) ∈ m.entries) (hdropped : ∀ e ∈ es, e.1 ≠ j) (hlast : since < lastSeen l)
    (hlater : ∀ f ∈ es, lastSeen l ≤ lastSeen f.2) : es.length < crowd since history := by
  have hkeys : (j :: es.map Prod.fst).Nodup := by
    refine List.nodup_cons.mpr ⟨fun hmem => ?_, m.nodup.sublist (hes.map _)⟩
    obtain ⟨f, hf, hfj⟩ := List.mem_map.mp hmem
    exact hdropped f hf hfj
  have hroom : (j :: es.map Prod.fst).length ≤ crowd since history := by
    refine length_le_crowd hkeys fun i hi => ?_
    obtain ⟨times, hmem, hlt⟩ : ∃ times, (i, times) ∈ m.entries ∧ since < lastSeen times := by
      obtain rfl | hi := List.mem_cons.mp hi
      · exact ⟨l, hl, hlast⟩
      · obtain ⟨f, hf, rfl⟩ := List.mem_map.mp hi
        exact ⟨f.2, hes.subset hf, hlast.trans_le (hlater f hf)⟩
    refine ⟨lastSeen times, mem_usesOf.mp ((h.sublist i).subset ?_), hlt⟩
    rw [times_of_mem hmem]
    exact lastSeen_mem (m.used _ hmem)
  rwa [List.length_cons, List.length_map] at hroom

/-- Whoever is forgotten was not used within the window, or before so many others that there is no room. -/
lemma evict (h : Tracks cap window history m) (hnow : ∃ e ∈ history, e.2 = now) :
    Tracks cap window history (m.evict cap window now) := by
  rw [RecencyMap.evict]
  split_ifs with hsize
  · exact h
  set fresh := m.entries.filter fun e => now - lastSeen e.2 < window with hfresh
  have hkept : (shrink cap fresh).Sublist m.entries := (shrink_sublist cap _).trans List.filter_sublist
  refine ⟨fun j => ?_, fun e he => h.latest e (hkept.subset he), h.ordered.sublist hkept,
    fun j since hsince hcrowd => ?_⟩
  · obtain heq | ⟨hnil, -⟩ := times_restrict (k := j) hkept
    · rw [heq]
      exact h.sublist j
    · rw [hnil]
      exact List.nil_sublist _
  rw [← h.complete j since hsince hcrowd]
  obtain heq | ⟨hnil, hdropped⟩ := times_restrict (k := j) hkept
  · rw [heq]
  rw [hnil, List.filter_nil]
  obtain ⟨l, hl⟩ | hne := m.exists_or_forall_ne j
  · -- the entry that was dropped has no use since
    rw [times_of_mem hl]
    refine (List.filter_eq_nil_iff.mpr fun u hu hsinceu => ?_).symm
    have hsinceu := of_decide_eq_true hsinceu
    have hlast : since < lastSeen l := by
      refine hsinceu.trans_le (h.latest (j, l) hl u ((h.sublist j).subset ?_))
      rwa [times_of_mem hl]
    obtain ⟨e, he, rfl⟩ := hnow
    have hfreshl : (j, l) ∈ fresh := by
      refine List.mem_filter.mpr ⟨hl, decide_eq_true ?_⟩
      have hwindow := hsince e he
      change e.2 - lastSeen l < window
      omega
    obtain ⟨hfull, hlater⟩ := forgotten (h.ordered.sublist List.filter_sublist) hfreshl
      fun hmem => hdropped _ hmem rfl
    have hroom := h.lt_crowd hkept hl hdropped hlast hlater
    rw [hfull] at hroom
    exact absurd (hroom.trans_le hcrowd) (Nat.lt_irrefl cap)
  · rw [times_of_forall_ne hne, List.filter_nil]

lemma use (h : Tracks cap window history m) (hnow : ∀ e ∈ history, e.2 ≤ now) :
    Tracks cap window (history ++ [(k, now)]) (m.use cap window k now) :=
  (h.touch hnow).evict ⟨(k, now), List.mem_append_right _ List.mem_cons_self, rfl⟩

end Tracks

end History

end StellarTags.Library.RecencyMaps
