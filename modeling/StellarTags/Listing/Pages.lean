import Mathlib.Data.Prod.Lex
import StellarTags.Library.Keysets
import StellarTags.Listing.Cursors
import StellarTags.Platform.Numerals

/-! Listings that go on from a cursor, over a database that keeps its rows in one order. -/

namespace StellarTags.Listing

open Library.Keysets Platform

section Queries

structure Query where
  limit : Option JsString
  cursor : Option JsString
  deriving DecidableEq

structure CursorQuery where
  limit : ℕ
  cursor : Option Point
  invalid : Bool
  deriving DecidableEq

/-- The digits that a text begins with, after blanks and a sign. -/
def parseInt (s : JsString) : Option ℤ :=
  let text := trimStart s
  let digits (t : JsString) : Option ℤ :=
    let prefixed := t.takeWhile isDigitUnit
    if prefixed = [] then none
    else some ((prefixed.foldl (fun n u => 10 * n + (u.val - 48)) 0 : ℕ) : ℤ)
  match text with
  | [] => none
  | u :: rest =>
    if u = unit '-' then (digits rest).map fun n => -n
    else if u = unit '+' then digits rest
    else digits text

/-- Neither a limit that is no number nor zero is taken. -/
def parseLimit (limit : Option JsString) (defaultLimit maxLimit : ℤ) : ℕ :=
  let parsed := (limit.bind parseInt).getD 0
  (min maxLimit (max 1 (if parsed = 0 then defaultLimit else parsed))).toNat

def parseCursorQuery (otherDates : JsString → Option ℤ) (query : Query) (defaultLimit : ℤ)
    (maxLimit : ℤ) : CursorQuery :=
  let limit := parseLimit query.limit defaultLimit maxLimit
  let raw := trimUnits (query.cursor.getD [])
  if raw = [] then ⟨limit, none, false⟩
  else
    let cursor := decodeCursor otherDates raw
    ⟨limit, cursor, cursor.isNone⟩

end Queries

section Database

/-- How the database sees a username: it compares two by an order of its own. -/
structure Username where
  text : JsString
  deriving DecidableEq

structure Row (δ : Type) where
  createdAt : Timestamp
  username : String
  data : δ

/-- A date in a filter may be an invalid one, which nothing is equal to or before. -/
inductive Where : Type
  | createdAtLt (t : Option ℤ)
  | createdAtEquals (t : Option ℤ)
  | usernameLt (username : Username)
  | or (p q : Where)
  | and (p q : Where)

def keysetWhereDesc (otherDates : JsString → Option ℤ) (point : Point) : Where :=
  let timestamp := dateParse otherDates point.createdAt
  .or (.createdAtLt timestamp) (.and (.createdAtEquals timestamp) (.usernameLt ⟨point.username⟩))

variable {δ : Type} [LinearOrder Username]

def Row.key (row : Row δ) : ℤ ×ₗ Username := toLex (row.createdAt.ms, ⟨units row.username⟩)

def Where.matches (row : Row δ) : Where → Bool
  | .createdAtLt t => t.any fun ms => row.createdAt.ms < ms
  | .createdAtEquals t => t.any fun ms => row.createdAt.ms = ms
  | .usernameLt username => (⟨units row.username⟩ : Username) < username
  | .or p q => p.matches row || q.matches row
  | .and p q => p.matches row && q.matches row

/-- The first rows that match, the latest first and those of one time by their usernames. -/
def findMany (table : List (Row δ)) (filter : Option Where) (take : ℕ) : List (Row δ) :=
  (descending Row.key (table.filter fun row => filter.all (·.matches row))).take take

end Database

section Endpoint

variable {δ : Type} [LinearOrder Username]

def Row.cursor (row : Row δ) : JsString := encodeCursor (.date row.createdAt) (units row.username)

def paginateByKeyset (rows : List (Row δ)) (limit : ℕ) : Page (Row δ) JsString :=
  let hasMore := limit < rows.length
  let page := if hasMore then rows.take limit else rows
  ⟨page, if hasMore then page.getLast?.map Row.cursor else none⟩

/-- One request for a page; a cursor that is no cursor is refused. -/
def listPage (otherDates : JsString → Option ℤ) (table : List (Row δ)) (query : Query) :
    Option (Page (Row δ) JsString) :=
  let q := parseCursorQuery otherDates query 10 100
  if q.invalid then none
  else
    let users := findMany table (q.cursor.map (keysetWhereDesc otherDates)) (q.limit + 1)
    some (paginateByKeyset users q.limit)

end Endpoint

section Cursors

variable {otherDates : JsString → Option ℤ} {δ : Type}

lemma parseLimit_bounds (limit : Option JsString) :
    0 < parseLimit limit 10 100 ∧ parseLimit limit 10 100 ≤ 100 := by
  simp only [parseLimit]
  omega

/-- No letter of a cursor is a blank. -/
lemma isSpaceUnit_of_mem {bytes : Bytes} {u : Fin 65536} (h : u ∈ toBase64Url bytes) :
    isSpaceUnit u = false := by
  obtain ⟨code, hcode, rfl⟩ := List.mem_map.mp h
  obtain ⟨hlt, -, hle⟩ := Library.Base64.mem_encode hcode
  have hval : (Fin.ofNat 65536 code).val = code := Nat.mod_eq_of_lt (by omega)
  exact isSpaceUnit_of_visible (by rwa [hval]) (by rwa [hval])

lemma Timestamp.text_parses (t : Timestamp) : dateParse otherDates t.text = some t.ms :=
  dateParse_toISOString otherDates t.valid

lemma decodeCursor_row (row : Row δ) :
    decodeCursor otherDates row.cursor = some ⟨row.createdAt.text, units row.username⟩ :=
  decodeCursor_encodeCursor (isText_units _) (isText_units _)
    (by rw [Moment.asText, Timestamp.text_parses]; rfl)

lemma decodeCursor_nil : decodeCursor otherDates [] = none := rfl

lemma parseCursorQuery_row (row : Row δ) (limit : Option JsString) :
    parseCursorQuery otherDates ⟨limit, some row.cursor⟩ 10 100 =
      ⟨parseLimit limit 10 100, some ⟨row.createdAt.text, units row.username⟩, false⟩ := by
  have htrim : trimUnits row.cursor = row.cursor := trimUnits_eq fun _ => isSpaceUnit_of_mem
  have hne : row.cursor ≠ [] := by
    intro hnil
    have hpoint : decodeCursor otherDates row.cursor = _ := decodeCursor_row row
    rw [hnil, decodeCursor_nil] at hpoint
    exact nomatch hpoint
  simp only [parseCursorQuery, Option.getD_some, htrim, if_neg hne, decodeCursor_row,
    Option.isNone_some]

lemma paginateByKeyset_eq (rows : List (Row δ)) (limit : ℕ) :
    paginateByKeyset rows limit = cut limit Row.cursor rows := by
  by_cases h : limit < rows.length
  · simp [paginateByKeyset, cut, h]
  · simp [paginateByKeyset, cut, h]

end Cursors

section Completeness

variable {otherDates : JsString → Option ℤ} {δ : Type} [LinearOrder Username]
  {table : List (Row δ)} {limit : ℕ}

/-- A row comes after a cursor when its time is earlier, or the same and its username less. -/
lemma matches_keyset (a row : Row δ) :
    (keysetWhereDesc otherDates ⟨a.createdAt.text, units a.username⟩).matches row =
      decide (row.key < a.key) := by
  have hiff : row.key < a.key ↔ row.createdAt.ms < a.createdAt.ms ∨
      row.createdAt.ms = a.createdAt.ms ∧
        (⟨units row.username⟩ : Username) < ⟨units a.username⟩ := Prod.Lex.toLex_lt_toLex
  simp only [keysetWhereDesc, Timestamp.text_parses, Where.matches, Option.any_some, hiff,
    Bool.decide_or, Bool.decide_and]

lemma findMany_after (hk : (table.map Row.key).Nodup) {done rest : List (Row δ)} {a : Row δ}
    (hrows : descending Row.key table = done ++ a :: rest) :
    findMany table (some (keysetWhereDesc otherDates ⟨a.createdAt.text, units a.username⟩)) limit =
      rest.take limit := by
  have hsorted := pairwise_descending hk
  rw [hrows] at hsorted
  simp only [findMany, Option.all_some, matches_keyset, descending_filter hk, hrows]
  rw [filter_after hsorted]

lemma listPage_first (limit : Option JsString) :
    listPage otherDates table ⟨limit, none⟩ =
      some (cut (parseLimit limit 10 100) Row.cursor (descending Row.key table)) := by
  have hall : (table.filter fun row => (none : Option Where).all (·.matches row)) = table := by simp
  simp only [listPage, parseCursorQuery, Option.getD_none, trimUnits, trimStart, List.dropWhile_nil,
    List.reverse_nil, if_true, Option.map_none, findMany, hall, paginateByKeyset_eq, cut_take]
  rfl

lemma listPage_next (hk : (table.map Row.key).Nodup) (limit : Option JsString)
    {done rest : List (Row δ)} {a : Row δ} (hrows : descending Row.key table = done ++ a :: rest) :
    listPage otherDates table ⟨limit, some a.cursor⟩ =
      some (cut (parseLimit limit 10 100) Row.cursor rest) := by
  simp only [listPage, parseCursorQuery_row, Option.map_some, findMany_after hk hrows,
    paginateByKeyset_eq, cut_take]
  rfl

/-- Followed from the first page, the pages hold every row once, the latest first, and end; and a
row's cursor is read back as the row's point. -/
theorem pages_complete (otherDates : JsString → Option ℤ) (limit : Option JsString)
    (table : List (Row δ)) (hk : (table.map Row.key).Nodup) :
    (∃ pages,
      follow (fun cursor => listPage otherDates table ⟨limit, cursor⟩) (table.length + 1) none =
          some pages ∧
        pages.flatten.Perm table ∧ (pages.flatten.Pairwise fun a b => b.key < a.key) ∧
          ∀ page ∈ pages, page.length ≤ parseLimit limit 10 100) ∧
      ∀ row ∈ table,
        decodeCursor otherDates row.cursor = some ⟨row.createdAt.text, units row.username⟩ ∧
          encodeCursor (.text row.createdAt.text) (units row.username) = row.cursor ∧
            dateParse otherDates row.createdAt.text = some row.createdAt.ms := by
  refine ⟨?_, fun row _ => ⟨decodeCursor_row row, rfl, row.createdAt.text_parses⟩⟩
  let ask (cursor : Option JsString) := listPage otherDates table ⟨limit, cursor⟩
  have hfirst : ask none = _ := listPage_first limit
  obtain ⟨pages, hpages, hflat, hshort⟩ := follow_complete (parseLimit_bounds limit).1 hfirst
    (fun _ _ _ hrows => listPage_next hk limit hrows)
  have hperm := perm_descending Row.key table
  rw [hperm.length_eq] at hpages
  refine ⟨pages, hpages, ?_, ?_, hshort⟩
  · rw [hflat]
    exact hperm
  · rw [hflat]
    exact pairwise_descending hk

end Completeness

section Sample

/-- Usernames in the order of their code units. -/
@[reducible] def codeUnitOrder : LinearOrder Username :=
  LinearOrder.lift' Username.text fun a b h => by
    cases a
    cases b
    exact congrArg Username.mk h

/-- Two rows of one time, and one from before 1970. -/
def sampleTable : List (Row Unit) :=
  [⟨⟨1000, by decide⟩, "anna", ()⟩, ⟨⟨-1, by decide⟩, "\"é\"", ()⟩, ⟨⟨1000, by decide⟩, "𝔟ob", ()⟩]

theorem pages_complete_tied :
    letI := codeUnitOrder
    (∃ pages, follow (fun cursor => listPage (fun _ => none) sampleTable ⟨some (units "1"), cursor⟩)
        (sampleTable.length + 1) none = some pages ∧
      pages.flatten.Perm sampleTable ∧ (pages.flatten.Pairwise fun a b => b.key < a.key) ∧
        ∀ page ∈ pages, page.length ≤ parseLimit (some (units "1")) 10 100) ∧
    ∀ row ∈ sampleTable,
      decodeCursor (fun _ => none) row.cursor = some ⟨row.createdAt.text, units row.username⟩ ∧
        encodeCursor (.text row.createdAt.text) (units row.username) = row.cursor ∧
          dateParse (fun _ => none) row.createdAt.text = some row.createdAt.ms :=
  letI := codeUnitOrder
  pages_complete (fun _ => none) (some (units "1")) sampleTable
    (by simp [sampleTable, Row.key, units_injective.eq_iff])

end Sample

end StellarTags.Listing
