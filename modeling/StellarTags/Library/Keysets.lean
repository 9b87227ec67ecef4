import Mathlib.Data.List.Sort

/-! Keyset pagination: rows in descending order of their keys, fetched page by page from the key of
the last row there was. -/

namespace StellarTags.Library.Keysets

variable {α κ C : Type}

structure Page (α C : Type) where
  rows : List α
  next : Option C
  deriving DecidableEq

/-- As many rows as the limit, and where to go on if there are more. -/
def cut (limit : ℕ) (token : α → C) (rows : List α) : Page α C :=
  if limit < rows.length then ⟨rows.take limit, (rows.take limit).getLast?.map token⟩
  else ⟨rows, none⟩

/-- The pages that are got by asking for what comes next, if there are at most so many. -/
def follow (ask : Option C → Option (Page α C)) : ℕ → Option C → Option (List (List α))
  | 0, _ => none
  | fuel + 1, cursor => do
    let page ← ask cursor
    match page.next with
    | none => some [page.rows]
    | some next => do
      let pages ← follow ask fuel (some next)
      some (page.rows :: pages)

section Sorting

variable [LinearOrder κ] {key : α → κ} {rows others done rest : List α} {a : α}

/-- The rows in descending order. -/
def descending (key : α → κ) (rows : List α) : List α :=
  rows.insertionSort fun a b => key b ≤ key a

lemma perm_descending (key : α → κ) (rows : List α) : (descending key rows).Perm rows :=
  List.perm_insertionSort _ rows

lemma pairwise_descending (hk : (rows.map key).Nodup) :
    (descending key rows).Pairwise fun a b => key b < key a := by
  have hle : (descending key rows).Pairwise fun a b => key b ≤ key a := by
    have htotal : Std.Total fun a b : α => key b ≤ key a := ⟨fun a b => le_total (key b) (key a)⟩
    have htrans : IsTrans α fun a b => key b ≤ key a := ⟨fun _ _ _ h h' => le_trans h' h⟩
    exact List.pairwise_insertionSort _ rows
  have hne : (descending key rows).Pairwise fun a b => key a ≠ key b := by
    have hnodup := ((perm_descending key rows).map key).nodup_iff.mpr hk
    exact List.pairwise_map.mp hnodup
  exact (hle.and hne).imp fun h => lt_of_le_of_ne h.1 h.2.symm

/-- Rows without equal keys have one descending order. -/
lemma descending_eq (h : rows.Perm others) (hk : (rows.map key).Nodup)
    (hs : others.Pairwise fun a b => key b < key a) : descending key rows = others :=
  List.Perm.eq_of_pairwise (fun _ _ _ _ h h' => absurd h (lt_asymm h')) (pairwise_descending hk) hs
    ((perm_descending key rows).trans h)

lemma descending_filter (hk : (rows.map key).Nodup) (p : α → Bool) :
    descending key (rows.filter p) = (descending key rows).filter p :=
  descending_eq ((perm_descending key rows).symm.filter p)
    (hk.sublist (List.filter_sublist.map key)) ((pairwise_descending hk).filter p)

/-- What comes after a row is what has a smaller key. -/
lemma filter_after (hs : (done ++ a :: rest).Pairwise fun a b => key b < key a) :
    (done ++ a :: rest).filter (fun b => key b < key a) = rest := by
  obtain ⟨-, hrest, hcross⟩ := List.pairwise_append.mp hs
  have hdone : done.filter (fun b => key b < key a) = [] := by
    refine List.filter_eq_nil_iff.mpr fun b hb => ?_
    simpa using (hcross b hb a List.mem_cons_self).le
  have htail : rest.filter (fun b => key b < key a) = rest := by
    refine List.filter_eq_self.mpr fun b hb => ?_
    simpa using (List.pairwise_cons.mp hrest).1 b hb
  rw [List.filter_append, hdone, List.nil_append, List.filter_cons_of_neg (by simp), htail]

end Sorting

section Following

variable {ask : Option C → Option (Page α C)} {token : α → C} {limit : ℕ} {rows : List α}

/-- One row beyond the limit is enough to see whether there are more. -/
lemma cut_take (limit : ℕ) (token : α → C) (rows : List α) :
    cut limit token (rows.take (limit + 1)) = cut limit token rows := by
  by_cases h : limit < rows.length
  · have hlong : limit < (rows.take (limit + 1)).length := by
      rw [List.length_take]
      omega
    rw [cut, cut, if_pos hlong, if_pos h, List.take_take, min_eq_left (Nat.le_succ limit)]
  · rw [List.take_of_length_le (by omega)]

lemma follow_rest (hlimit : 0 < limit)
    (hnext : ∀ done a rest, rows = done ++ a :: rest →
      ask (some (token a)) = some (cut limit token rest))
    {done rest : List α} (hrows : rows = done ++ rest) {fuel : ℕ} (hfuel : rest.length < fuel)
    {cursor : Option C} (hask : ask cursor = some (cut limit token rest)) :
    ∃ pages, follow ask fuel cursor = some pages ∧ pages.flatten = rest ∧
      ∀ page ∈ pages, page.length ≤ limit := by
  induction fuel generalizing done rest cursor with
  | zero => exact absurd hfuel (Nat.not_lt_zero _)
  | succ fuel ih =>
    by_cases hmore : limit < rest.length
    · have hne : rest.take limit ≠ [] := by
        rw [Ne, List.take_eq_nil_iff, not_or]
        exact ⟨hlimit.ne', List.ne_nil_of_length_pos (by omega)⟩
      obtain ⟨page, a, hpage⟩ : ∃ page a, rest.take limit = page ++ [a] :=
        ⟨_, _, (List.dropLast_append_getLast hne).symm⟩
      have hsplit : rest = page ++ a :: rest.drop limit := by
        calc rest = rest.take limit ++ rest.drop limit := (List.take_append_drop limit rest).symm
          _ = page ++ a :: rest.drop limit := by
            rw [hpage, List.append_assoc, List.singleton_append]
      have hlater := hnext (done ++ page) a (rest.drop limit) (by
        rw [hrows, List.append_assoc, ← hsplit])
      have hrest : rows = (done ++ page ++ [a]) ++ rest.drop limit := by
        rw [hrows, List.append_assoc, List.append_assoc, List.singleton_append, ← hsplit]
      have hfuel : (rest.drop limit).length < fuel := by
        rw [List.length_drop]
        omega
      obtain ⟨pages, hpages, hflat, hshort⟩ := ih hrest hfuel hlater
      refine ⟨rest.take limit :: pages, ?_, ?_, ?_⟩
      · simp [follow, hask, cut, hmore, hpage, hpages]
      · rw [List.flatten_cons, hflat, List.take_append_drop]
      · exact List.forall_mem_cons.mpr ⟨List.length_take_le limit rest, hshort⟩
    · refine ⟨[rest], ?_, by simp, by simpa using hmore⟩
      simp [follow, hask, cut, hmore]

/-- Followed from the first page, the pages are all the rows, each once and in order. -/
theorem follow_complete (hlimit : 0 < limit) (hfirst : ask none = some (cut limit token rows))
    (hnext : ∀ done a rest, rows = done ++ a :: rest →
      ask (some (token a)) = some (cut limit token rest)) :
    ∃ pages, follow ask (rows.length + 1) none = some pages ∧ pages.flatten = rows ∧
      ∀ page ∈ pages, page.length ≤ limit :=
  follow_rest hlimit hnext (List.nil_append rows).symm (Nat.lt_succ_self _) hfirst

end Following

section Walking

variable [LinearOrder κ] {key : α → κ} {limit : ℕ} {rows out : List α} {tables : List (List α)}
  {cursor : Option κ} {a : α}

/-- The rows past a cursor, in descending order. -/
def past (key : α → κ) (cursor : Option κ) (rows : List α) : List α :=
  (descending key rows).filter fun a => cursor.all (key a < ·)

/-- A walk to the end, in pages that are each fetched from the table as it then is; `none` if there
are more pages than tables. -/
def walk (key : α → κ) (limit : ℕ) : List (List α) → Option κ → Option (List α)
  | [], _ => none
  | rows :: tables, cursor =>
    let page := (past key cursor rows).take limit
    if page.length < limit then some page
    else match page.getLast? with
      | none => some page
      | some last => (walk key limit tables (some (key last))).map (page ++ ·)

lemma mem_past : a ∈ past key cursor rows ↔ a ∈ rows ∧ cursor.all (key a < ·) := by
  rw [past, List.mem_filter, (perm_descending key rows).mem_iff]

lemma pairwise_past (hk : (rows.map key).Nodup) :
    (past key cursor rows).Pairwise fun a b => key b < key a :=
  (pairwise_descending hk).filter _

lemma all_of_lt {b : α} (hb : cursor.all (key b < ·) = true) (h : key a < key b) :
    cursor.all (key a < ·) = true := by
  cases cursor with
  | none => rfl
  | some c => exact decide_eq_true (h.trans (of_decide_eq_true hb))

/-- A page that is full ends with a row, and the others come after that. -/
lemma full_page (hlimit : 0 < limit) (hk : (rows.map key).Nodup)
    (hfull : ¬ ((past key cursor rows).take limit).length < limit) :
    ∃ page last rest, (past key cursor rows).take limit = page ++ [last] ∧
      past key cursor rows = page ++ last :: rest ∧ past key (some (key last)) rows = rest := by
  have hne : (past key cursor rows).take limit ≠ [] := List.ne_nil_of_length_pos (by omega)
  obtain ⟨page, last, hpage⟩ : ∃ page a, (past key cursor rows).take limit = page ++ [a] :=
    ⟨_, _, (List.dropLast_append_getLast hne).symm⟩
  have hsplit : past key cursor rows = page ++ last :: (past key cursor rows).drop limit := by
    calc past key cursor rows
        = (past key cursor rows).take limit ++ (past key cursor rows).drop limit :=
          (List.take_append_drop limit _).symm
      _ = page ++ last :: (past key cursor rows).drop limit := by
          rw [hpage, List.append_assoc, List.singleton_append]
  refine ⟨page, last, _, hpage, hsplit, ?_⟩
  have hsorted : (past key cursor rows).Pairwise fun a b => key b < key a := pairwise_past hk
  rw [hsplit] at hsorted
  have hafter := filter_after hsorted
  rw [← hsplit] at hafter
  have hlast : last ∈ past key cursor rows := by
    rw [hsplit]
    exact List.mem_append_right _ List.mem_cons_self
  rw [← hafter, past, past, List.filter_filter]
  refine List.filter_congr fun b _ => ?_
  rw [Option.all_some]
  by_cases hb : key b < key last
  · rw [decide_eq_true hb, all_of_lt (mem_past.mp hlast).2 hb, Bool.and_true]
  · rw [decide_eq_false hb, Bool.false_and]

/-- However the tables change from page to page: nothing is got twice, everything got was there when
it was, and a key that is there all along is got. -/
theorem walk_sound (hlimit : 0 < limit) (hk : ∀ rows ∈ tables, (rows.map key).Nodup)
    (h : walk key limit tables cursor = some out) :
    (out.Pairwise fun a b => key b < key a) ∧
    (∀ a ∈ out, cursor.all (key a < ·) ∧ ∃ rows ∈ tables, a ∈ rows) ∧
    ∀ k, (∀ rows ∈ tables, ∃ a ∈ rows, key a = k) → cursor.all (k < ·) → ∃ a ∈ out, key a = k := by
  induction tables generalizing cursor out with
  | nil => cases h
  | cons rows tables ih =>
    have hrows := hk rows List.mem_cons_self
    rw [walk] at h
    by_cases hshort : ((past key cursor rows).take limit).length < limit
    · rw [if_pos hshort] at h
      have hall : (past key cursor rows).take limit = past key cursor rows := by
        rw [List.length_take] at hshort
        exact List.take_of_length_le (by omega)
      rw [hall] at h
      obtain rfl := Option.some.inj h
      refine ⟨pairwise_past hrows, fun a ha => ?_, fun k hthere hcursor => ?_⟩
      · obtain ⟨hmem, hcursor⟩ := mem_past.mp ha
        exact ⟨hcursor, rows, List.mem_cons_self, hmem⟩
      · obtain ⟨a, ha, rfl⟩ := hthere rows List.mem_cons_self
        exact ⟨a, mem_past.mpr ⟨ha, hcursor⟩, rfl⟩
    · rw [if_neg hshort] at h
      obtain ⟨page, last, rest, hpage, hsplit, hrest⟩ := full_page hlimit hrows hshort
      have hsorted : (past key cursor rows).Pairwise fun a b => key b < key a := pairwise_past hrows
      have hmem {a : α} : a ∈ past key cursor rows ↔ a ∈ page ++ [last] ∨ a ∈ rest := by
        rw [hsplit, ← List.mem_append, List.append_assoc, List.singleton_append]
      rw [hpage, List.getLast?_concat] at h
      obtain ⟨later, hlater, rfl⟩ := Option.map_eq_some_iff.mp h
      obtain ⟨hpairwise, hgot, hall⟩ := ih (fun rows h => hk rows (List.mem_cons_of_mem _ h)) hlater
      have hlast : last ∈ page ++ [last] := List.mem_append_right _ List.mem_cons_self
      have hpast {a : α} (ha : a ∈ page ++ [last]) : key last ≤ key a := by
        rw [hsplit] at hsorted
        obtain ha | ha := List.mem_append.mp ha
        · exact ((List.pairwise_append.mp hsorted).2.2 a ha last List.mem_cons_self).le
        · rw [List.mem_singleton.mp ha]
      refine ⟨List.pairwise_append.mpr ⟨?_, hpairwise, fun a ha b hb => ?_⟩, fun a ha => ?_,
        fun k hthere hcursor => ?_⟩
      · rw [← hpage]
        exact hsorted.sublist (List.take_sublist _ _)
      · exact (of_decide_eq_true (hgot b hb).1).trans_le (hpast ha)
      · obtain ha | ha := List.mem_append.mp ha
        · obtain ⟨hrow, hcursor⟩ := mem_past.mp (hmem.mpr (.inl ha))
          exact ⟨hcursor, rows, List.mem_cons_self, hrow⟩
        · obtain ⟨hbelow, table, htable, hrow⟩ := hgot a ha
          exact ⟨all_of_lt (mem_past.mp (hmem.mpr (.inl hlast))).2 (of_decide_eq_true hbelow), table,
            List.mem_cons_of_mem _ htable, hrow⟩
      · obtain ⟨a, ha, rfl⟩ := hthere rows List.mem_cons_self
        obtain hold | hrest' := hmem.mp (mem_past.mpr ⟨ha, hcursor⟩)
        · exact ⟨a, List.mem_append_left _ hold, rfl⟩
        · rw [← hrest] at hrest'
          obtain ⟨b, hb, hkey⟩ := hall (key a)
            (fun rows h => hthere rows (List.mem_cons_of_mem _ h)) (mem_past.mp hrest').2
          exact ⟨b, List.mem_append_right _ hb, hkey⟩

/-- Through a table that stays as it is, the walk gets all its rows. -/
theorem walk_replicate (hlimit : 0 < limit) (hk : (rows.map key).Nodup) {n : ℕ}
    (hn : (past key cursor rows).length < n * limit) :
    walk key limit (List.replicate n rows) cursor = some (past key cursor rows) := by
  induction n generalizing cursor with
  | zero =>
    rw [Nat.zero_mul] at hn
    exact absurd hn (Nat.not_lt_zero _)
  | succ n ih =>
    rw [List.replicate_succ, walk]
    by_cases hshort : ((past key cursor rows).take limit).length < limit
    · rw [if_pos hshort, List.take_of_length_le]
      rw [List.length_take] at hshort
      omega
    · rw [if_neg hshort]
      obtain ⟨page, last, rest, hpage, hsplit, hrest⟩ := full_page hlimit hk hshort
      have hlength := congrArg List.length hpage
      have htotal := congrArg List.length hsplit
      rw [List.length_append, List.length_take, List.length_singleton] at hlength
      rw [List.length_append, List.length_cons] at htotal
      rw [List.length_take] at hshort
      have hless : (past key (some (key last)) rows).length < n * limit := by
        rw [hrest]
        rw [Nat.succ_mul] at hn
        omega
      rw [hpage, List.getLast?_concat]
      simp only
      rw [ih hless, hrest, Option.map_some, hsplit, List.append_assoc, List.singleton_append]

end Walking

end StellarTags.Library.Keysets