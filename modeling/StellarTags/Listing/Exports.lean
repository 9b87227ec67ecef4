import StellarTags.Library.DelimitedText
import StellarTags.Listing.Pages

/-! Exports of payments: the walk through a table that goes on changing, and the lines of a file. -/

namespace StellarTags.Listing

open Library.DelimitedText Library.Keysets Platform

section Walk

/-- An id, which the database compares by an order of its own. -/
structure PaymentId where
  text : String
  deriving DecidableEq

structure Payment (δ : Type) where
  id : PaymentId
  createdAt : Timestamp
  deletedAt : Option Timestamp
  data : δ

/-- The payments there are; the id is the primary key. -/
structure PaymentTable (δ : Type) where
  rows : List (Payment δ)
  keyed : (rows.map Payment.id).Nodup

structure DateFilter where
  gte : Option ℤ
  lte : Option ℤ

inductive PaymentWhere : Type
  | notDeleted
  | createdAt (filter : DateFilter)
  | createdAtGt (t : ℤ)
  | createdAtEquals (t : ℤ)
  | idGt (id : PaymentId)
  | or (p q : PaymentWhere)
  | and (p q : PaymentWhere)

variable {δ : Type} [LinearOrder PaymentId]

def Payment.key (p : Payment δ) : ℤ ×ₗ PaymentId := toLex (p.createdAt.ms, p.id)

def PaymentWhere.matches (p : Payment δ) : PaymentWhere → Bool
  | .notDeleted => p.deletedAt.isNone
  | .createdAt filter => filter.gte.all (· ≤ p.createdAt.ms) && filter.lte.all (p.createdAt.ms ≤ ·)
  | .createdAtGt t => t < p.createdAt.ms
  | .createdAtEquals t => p.createdAt.ms = t
  | .idGt id => id < p.id
  | .or c d => c.matches p || d.matches p
  | .and c d => c.matches p && d.matches p

def keysetWhereAscById (last : Payment δ) : PaymentWhere :=
  .or (.createdAtGt last.createdAt.ms) (.and (.createdAtEquals last.createdAt.ms) (.idGt last.id))

def EXPORT_PAGE_SIZE : ℕ := 500

def baseWhere (dateFilter : Option DateFilter) : PaymentWhere :=
  match dateFilter with
  | some filter => .and (.createdAt filter) .notDeleted
  | none => .notDeleted

/-- The first payments that match, the earliest first and those of one time by their ids. -/
def findPayments (table : PaymentTable δ) (filter : PaymentWhere) (take : ℕ) : List (Payment δ) :=
  (descending (OrderDual.toDual ∘ Payment.key) (table.rows.filter filter.matches)).take take

/-- The pages until one is not full, each read from the table as it is by then. -/
def exportPages (dateFilter : Option DateFilter) :
    List (PaymentTable δ) → Option (Payment δ) → Option (List (Payment δ))
  | [], _ => none
  | table :: tables, cursor =>
    let filter := match cursor with
      | some last => .and (baseWhere dateFilter) (keysetWhereAscById last)
      | none => baseWhere dateFilter
    let records := findPayments table filter EXPORT_PAGE_SIZE
    if records.length < EXPORT_PAGE_SIZE then some records
    else match records.getLast? with
      | none => some records
      | some last => (exportPages dateFilter tables (some last)).map (records ++ ·)

/-- A date of the query; an empty text is none. -/
def readDate (otherDates : JsString → Option ℤ) (field : String) (date : Option JsString) :
    Except String (Option ℤ) :=
  match date.filter (· ≠ []) with
  | none => .ok none
  | some text =>
    match dateParse otherDates text with
    | none => .error ("Invalid " ++ field)
    | some t => .ok (some t)

def readRange (otherDates : JsString → Option ℤ) (startDate endDate : Option JsString) :
    Except String (Option DateFilter) := do
  let gte ← readDate otherDates "startDate" startDate
  let lte ← readDate otherDates "endDate" endDate
  match gte, lte with
  | none, none => return none
  | some first, some last =>
    if last < first then .error "startDate must not be after endDate"
    else return some ⟨some first, some last⟩
  | gte, lte => return some ⟨gte, lte⟩

/-- The records that are streamed, or the error that the request is refused with. -/
def adminExport (otherDates : JsString → Option ℤ) (startDate endDate : Option JsString)
    (tables : List (PaymentTable δ)) : Except String (Option (List (Payment δ))) := do
  let dateFilter ← readRange otherDates startDate endDate
  return exportPages dateFilter tables none

end Walk

section Completeness

variable {δ : Type} [LinearOrder PaymentId] {dateFilter : Option DateFilter}
  {tables : List (PaymentTable δ)} {table : PaymentTable δ} {cursor : Option (Payment δ)}

/-- The earliest payments come first. -/
abbrev ascendingKey (p : Payment δ) : (ℤ ×ₗ PaymentId)ᵒᵈ := OrderDual.toDual p.key

def matching (dateFilter : Option DateFilter) (table : PaymentTable δ) : List (Payment δ) :=
  table.rows.filter (baseWhere dateFilter).matches

lemma keyed_matching (dateFilter : Option DateFilter) (table : PaymentTable δ) :
    ((matching dateFilter table).map ascendingKey).Nodup := by
  refine List.Nodup.of_map (fun k : (ℤ ×ₗ PaymentId)ᵒᵈ => (ofLex (OrderDual.ofDual k)).2) ?_
  rw [List.map_map]
  exact table.keyed.sublist (List.filter_sublist.map _)

lemma matches_after (last p : Payment δ) :
    (keysetWhereAscById last).matches p = decide (ascendingKey p < ascendingKey last) := by
  have hiff : ascendingKey p < ascendingKey last ↔ last.createdAt.ms < p.createdAt.ms ∨
      p.createdAt.ms = last.createdAt.ms ∧ last.id < p.id := by
    rw [OrderDual.toDual_lt_toDual, eq_comm]
    exact Prod.Lex.toLex_lt_toLex
  rw [decide_eq_decide.mpr hiff, Bool.decide_or, Bool.decide_and]
  rfl

lemma findPayments_eq (cursor : Option (Payment δ)) (take : ℕ) :
    findPayments table (match cursor with
      | some last => .and (baseWhere dateFilter) (keysetWhereAscById last)
      | none => baseWhere dateFilter) take =
      (past ascendingKey (cursor.map ascendingKey) (matching dateFilter table)).take take := by
  rw [findPayments, past]
  congr 1
  cases cursor with
  | none => exact (List.filter_true _).symm
  | some last =>
    rw [← descending_filter (keyed_matching dateFilter table), matching, List.filter_filter]
    congr 1
    refine List.filter_congr fun p _ => ?_
    rw [Option.map_some, Option.all_some, ← matches_after, Bool.and_comm]
    rfl

lemma exportPages_eq (cursor : Option (Payment δ)) : exportPages dateFilter tables cursor =
    walk ascendingKey EXPORT_PAGE_SIZE (tables.map (matching dateFilter))
      (cursor.map ascendingKey) := by
  induction tables generalizing cursor with
  | nil => rfl
  | cons table tables ih =>
    rw [exportPages.eq_def, List.map_cons, walk]
    simp only [findPayments_eq, ih, Option.map_some]
    generalize (past ascendingKey (cursor.map ascendingKey) (matching dateFilter table)).take
      EXPORT_PAGE_SIZE = page
    cases page.getLast? with
    | none => rfl
    | some last => rfl

/-- The payments to be exported. -/
def Selected (dateFilter : Option DateFilter) (p : Payment δ) : Prop :=
  p.deletedAt = none ∧ ∀ filter, dateFilter = some filter →
    (∀ t, filter.gte = some t → t ≤ p.createdAt.ms) ∧ ∀ t, filter.lte = some t → p.createdAt.ms ≤ t

lemma mem_matching {p : Payment δ} :
    p ∈ matching dateFilter table ↔ p ∈ table.rows ∧ Selected dateFilter p := by
  rw [matching, List.mem_filter]
  refine and_congr_right fun _ => ?_
  cases dateFilter with
  | none => simp [baseWhere, PaymentWhere.matches, Selected]
  | some filter =>
    have hbounds : (PaymentWhere.createdAt filter).matches p = true ↔
        (∀ t, filter.gte = some t → t ≤ p.createdAt.ms) ∧
          ∀ t, filter.lte = some t → p.createdAt.ms ≤ t := by
      simp [PaymentWhere.matches, Option.all_eq_true]
    have hlive : PaymentWhere.notDeleted.matches p = true ↔ p.deletedAt = none :=
      Option.isNone_iff_eq_none
    rw [baseWhere, PaymentWhere.matches, Bool.and_eq_true, hbounds, hlive, and_comm, Selected]
    simp only [Option.some.injEq, forall_eq']

end Completeness

section Files

/-- A line ends with both marks; a field is quoted for either of them. -/
def crlfFormat : Format (Fin 65536) where
  quote := quoteMark
  separator := comma
  ending := unit '\r'
  tail := [unit '\n']
  special u := u = quoteMark || u = comma || u = unit '\r' || u = unit '\n'
  quote_ne_separator := by decide
  quote_ne_ending := by decide
  separator_ne_ending := by decide
  special_quote := by decide
  special_separator := by decide
  special_ending := by decide

def lfFormat : Format (Fin 65536) where
  quote := quoteMark
  separator := comma
  ending := unit '\n'
  tail := []
  special u := u = comma || u = quoteMark || u = unit '\n'
  quote_ne_separator := by decide
  quote_ne_ending := by decide
  separator_ne_ending := by decide
  special_quote := by decide
  special_separator := by decide
  special_ending := by decide

/-- A value's text; null and undefined have none. -/
abbrev Value : Type := Option JsString

def valueText (value : Value) : JsString := value.getD []

def startsFormula (field : JsString) : Bool :=
  field.head?.any fun u => u = unit '=' || u = unit '+' || u = unit '-' || u = unit '@'

/-- The text that is put down for a value. -/
def defused (value : Value) : JsString :=
  if startsFormula (valueText value) then unit '\'' :: valueText value else valueText value

def escapeField (value : Value) : JsString :=
  let field := defused value
  if field.any crlfFormat.special then crlfFormat.quoted field else field

def COLUMNS : List String :=
  ["id", "created_at", "type", "from", "to", "amount", "asset_type", "asset_code", "asset_issuer",
    "transaction_hash"]

/-- A record of Horizon: the values of its fields by name. -/
abbrev HorizonRecord : Type := String → Value

def participants (record : HorizonRecord) : Value × Value :=
  if record "type" = some (units "create_account") then (record "funder", record "account")
  else if record "type" = some (units "account_merge") then (record "account", record "into")
  else (record "from", record "to")

/-- The values of the columns. -/
def normalize (record : HorizonRecord) : List Value :=
  let creates := record "type" = some (units "create_account")
  [record "id", record "created_at", record "type", (participants record).1, (participants record).2,
    if creates then record "starting_balance" else record "amount",
    if creates then some (units "native") else record "asset_type",
    record "asset_code", record "asset_issuer", record "transaction_hash"]

def toRow (record : HorizonRecord) : JsString :=
  [comma].intercalate ((normalize record).map escapeField) ++ [unit '\r', unit '\n']

def HORIZON_PAGE_SIZE : ℕ := 200

structure HorizonPage where
  records : List HorizonRecord
  hasNext : Bool

/-- The records of so many pages at most, up to one that is empty, not full or the last. -/
def streamed : ℕ → List HorizonPage → List HorizonRecord
  | 0, _ => []
  | _, [] => []
  | maxPages + 1, page :: pages =>
    if page.records.length < HORIZON_PAGE_SIZE ∨ page.hasNext = false then page.records
    else page.records ++ streamed maxPages pages

/-- The file of an account's payments. -/
def transactionsFile (maxPages : ℕ) (pages : List HorizonPage) : JsString :=
  [comma].intercalate (COLUMNS.map units) ++ [unit '\r', unit '\n'] ++ (streamed maxPages pages).flatMap toRow

def PAYMENT_COLUMNS : List String :=
  ["id", "createdAt", "fromAddress", "toAddress", "amount", "fee", "assetCode", "transactionHash",
    "status", "riskScore", "fraudStatus", "fraudFlaggedAt", "deletedAt"]

/-- The values of a row, in the order of its columns. -/
structure PaymentRecord where
  values : List Value
  length_values : values.length = PAYMENT_COLUMNS.length

def adminField (value : Value) : JsString :=
  match value with
  | none => []
  | some s => if s.any lfFormat.special then lfFormat.quoted s else s

/-- The file of the administration's export. -/
def adminFile (records : List PaymentRecord) : JsString :=
  match records with
  | [] => []
  | _ => [comma].intercalate (PAYMENT_COLUMNS.map fun h => quoteMark :: (units h ++ [quoteMark])) ++
      [unit '\n'] ++ records.flatMap fun record =>
        [comma].intercalate (record.values.map adminField) ++ [unit '\n']

lemma writes_plain {f : Format (Fin 65536)} {field : JsString} :
    f.Writes field (if field.any f.special then f.quoted field else field) := by
  by_cases h : field.any f.special = true
  · rw [if_pos h]
    exact .inl rfl
  · rw [if_neg h]
    refine .inr ⟨rfl, fun u hu => Bool.eq_false_iff.mpr fun hs => h ?_⟩
    exact List.any_eq_true.mpr ⟨u, hu, hs⟩

lemma writes_admin (value : Value) : lfFormat.Writes (valueText value) (adminField value) := by
  cases value with
  | none => exact .inr ⟨rfl, fun u hu => absurd hu List.not_mem_nil⟩
  | some s => exact writes_plain

lemma defused_safe (value : Value) : startsFormula (defused value) = false := by
  rw [defused]
  by_cases h : startsFormula (valueText value) = true
  · rw [if_pos h]
    rfl
  · rw [if_neg h]
    exact Bool.eq_false_iff.mpr h

/-- The code units of a text of the basic plane are its characters' numbers. -/
lemma val_mem_units {s : String} (hs : ∀ c ∈ s.toList, c.toNat < 65536) {u : Fin 65536} (hu : u ∈ units s) :
    ∃ c ∈ s.toList, u.val = c.toNat := by
  obtain ⟨c, hc, hu⟩ := List.mem_flatMap.mp hu
  rw [charUnits, if_pos (hs c hc), List.mem_singleton] at hu
  exact ⟨c, hc, by rw [hu, Fin.val_ofNat, Nat.mod_eq_of_lt (hs c hc)]⟩

/-- A column's name has no character that a format treats specially. -/
lemma plain_name {s : String} (hs : ∀ c ∈ s.toList, 48 ≤ c.toNat ∧ c.toNat < 65536) {u : Fin 65536}
    (hu : u ∈ units s) : 48 ≤ u.val := by
  obtain ⟨c, hc, hval⟩ := val_mem_units (fun c hc => (hs c hc).2) hu
  rw [hval]
  exact (hs c hc).1

lemma small_of_special {u : Fin 65536} (h : crlfFormat.special u = true) : u.val < 48 := by
  simp only [crlfFormat, Bool.or_eq_true, decide_eq_true_eq] at h
  obtain ((rfl | rfl) | rfl) | rfl := h <;> decide

lemma columns_plain : ∀ column ∈ COLUMNS, crlfFormat.Writes (units column) (units column) := by
  have hnames : ∀ s ∈ COLUMNS, ∀ c ∈ s.toList, 48 ≤ c.toNat ∧ c.toNat < 65536 := by simp [COLUMNS]
  refine fun s hs => .inr ⟨rfl, fun u hu => Bool.eq_false_iff.mpr fun h => ?_⟩
  exact absurd (small_of_special h) (Nat.not_lt.mpr (plain_name (hnames s hs) hu))

lemma names_plain : ∀ h ∈ PAYMENT_COLUMNS, ∀ u ∈ units h, u ≠ lfFormat.quote := by
  have hnames : ∀ s ∈ PAYMENT_COLUMNS, ∀ c ∈ s.toList, 48 ≤ c.toNat ∧ c.toNat < 65536 := by
    simp [PAYMENT_COLUMNS]
  rintro s hs u hu rfl
  have hu := plain_name (hnames s hs) hu
  exact absurd hu (by decide)

/-- Lines whose fields are written one by one. -/
lemma written {ρ : Type} {f : Format (Fin 65536)} {values : ρ → List Value} {text field : Value → JsString}
    (hfield : ∀ value, f.Writes (field value) (text value)) {records : List ρ} :
    List.Forall₂ (List.Forall₂ f.Writes) (records.map fun r => (values r).map field)
      (records.map fun r => (values r).map text) := by
  rw [List.forall₂_map_left_iff, List.forall₂_map_right_iff]
  refine List.forall₂_same.mpr fun r _ => ?_
  rw [List.forall₂_map_left_iff, List.forall₂_map_right_iff]
  exact List.forall₂_same.mpr fun value _ => hfield value

/-- A header and a line for each record are read back. -/
lemma read_table {ρ : Type} {f : Format (Fin 65536)} {names header : List JsString}
    {values : ρ → List Value} {text field : Value → JsString} {records : List ρ}
    (hheader : List.Forall₂ f.Writes names header) (hne : names ≠ [])
    (hfield : ∀ value, f.Writes (field value) (text value)) (hvalues : ∀ r ∈ records, values r ≠ []) :
    f.read ((header :: records.map fun r => (values r).map text).flatMap f.line) =
      some (names :: records.map fun r => (values r).map field) := by
  refine read_lines (.cons hheader (written hfield)) fun fields hfields => ?_
  obtain rfl | hfields := List.mem_cons.mp hfields
  · exact hne
  · obtain ⟨r, hr, rfl⟩ := List.mem_map.mp hfields
    exact fun hnil => hvalues r hr (List.map_eq_nil_iff.mp hnil)

lemma transactionsFile_eq (maxPages : ℕ) (pages : List HorizonPage) : transactionsFile maxPages pages =
    (COLUMNS.map units :: (streamed maxPages pages).map fun record =>
      (normalize record).map escapeField).flatMap crlfFormat.line := by
  rw [List.flatMap_cons, List.flatMap_map]
  rfl

lemma adminFile_eq {records : List PaymentRecord} (hne : records ≠ []) : adminFile records =
    ((PAYMENT_COLUMNS.map fun h => lfFormat.quoted (units h)) ::
      records.map fun record => record.values.map adminField).flatMap lfFormat.line := by
  obtain ⟨record, records, rfl⟩ := List.exists_cons_of_ne_nil hne
  have hheader : (PAYMENT_COLUMNS.map fun h => lfFormat.quoted (units h)) =
      PAYMENT_COLUMNS.map fun h => quoteMark :: (units h ++ [quoteMark]) := by
    refine List.map_congr_left fun h hh => ?_
    rw [Format.quoted, doubled_plain (names_plain h hh)]
    rfl
  rw [List.flatMap_cons, List.flatMap_map, hheader]
  rfl

end Files

end StellarTags.Listing
