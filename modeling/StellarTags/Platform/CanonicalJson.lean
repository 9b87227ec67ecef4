import Mathlib.Data.List.Perm.Subperm
import StellarTags.Platform.JsonValues

/-! The canonical text of a JSON value: two values have one text when they are equal up to the order
of the keys. -/

namespace StellarTags.Platform

variable {N : Type} {numeral : N → JsString}

/-- Keys are compared by their code units. -/
def keyLe {α : Type} (a b : JsString × α) : Prop := a.1.map Fin.val ≤ b.1.map Fin.val

instance {α : Type} : DecidableRel (keyLe (α := α)) :=
  fun a b => inferInstanceAs (Decidable (a.1.map Fin.val ≤ b.1.map Fin.val))

mutual

def JsValue.canonicalJson (numeral : N → JsString) : JsValue N → JsString
  | .array values =>
    openBracket :: (join (canonicalTexts numeral values) ++ [closeBracket])
  | .object fields =>
    let pairs := (canonicalPairs numeral fields).insertionSort keyLe
    openBrace :: (join (pairs.map Prod.snd) ++ [closeBrace])
  | value => stringify numeral value

def canonicalTexts (numeral : N → JsString) : List (JsValue N) → List JsString
  | [] => []
  | value :: values => value.canonicalJson numeral :: canonicalTexts numeral values

def canonicalPairs (numeral : N → JsString) : List (JsString × JsValue N) → List (JsString × JsString)
  | [] => []
  | (key, value) :: fields =>
    (key, quoteUnits key ++ colon :: value.canonicalJson numeral) :: canonicalPairs numeral fields

end

mutual

/-- Equal but for the order of the keys, at every depth. -/
def Same : JsValue N → JsValue N → Prop
  | .array values, other => ∃ others, other = .array others ∧ SameValues values others
  | .object fields, other => ∃ others, other = .object others ∧
      (fields.map Prod.fst).Perm (others.map Prod.fst) ∧ SameFields fields others
  | value, other => other = value

def SameValues : List (JsValue N) → List (JsValue N) → Prop
  | [], others => others = []
  | value :: values, others =>
    ∃ w ws, others = w :: ws ∧ Same value w ∧ SameValues values ws

/-- Every field has one of the same key among the others, with the same value. -/
def SameFields : List (JsString × JsValue N) → List (JsString × JsValue N) → Prop
  | [], _ => True
  | (key, value) :: fields, others =>
    (∃ w, (key, w) ∈ others ∧ Same value w) ∧ SameFields fields others

end

mutual

/-- The value with the fields of every object in the order of their keys. -/
def JsValue.sorted : JsValue N → JsValue N
  | .array values => .array (sortedValues values)
  | .object fields => .object ((sortedFields fields).insertionSort keyLe)
  | value => value

def sortedValues : List (JsValue N) → List (JsValue N)
  | [] => []
  | value :: values => value.sorted :: sortedValues values

def sortedFields : List (JsString × JsValue N) → List (JsString × JsValue N)
  | [] => []
  | (key, value) :: fields => (key, value.sorted) :: sortedFields fields

end

lemma stringifyValues_eq (values : List (JsValue N)) :
    stringifyValues numeral values = values.map (stringify numeral) := by
  induction values with
  | nil => rfl
  | cons value values ih => rw [stringifyValues, ih, List.map_cons]

lemma stringifyFields_eq (fields : List (JsString × JsValue N)) :
    stringifyFields numeral fields =
      fields.map fun f => quoteUnits f.1 ++ colon :: stringify numeral f.2 := by
  induction fields with
  | nil => rfl
  | cons field fields ih =>
    obtain ⟨key, value⟩ := field
    rw [stringifyFields, ih, List.map_cons]

def fieldText (numeral : N → JsString) (f : JsString × JsValue N) : JsString × JsString :=
  (f.1, quoteUnits f.1 ++ colon :: stringify numeral f.2)

mutual

/-- The canonical text is the plain text of the sorted value. -/
lemma canonicalJson_eq (value : JsValue N) :
    value.canonicalJson numeral = stringify numeral value.sorted := by
  match value with
  | .null | .bool _ | .number _ | .string _ => rw [JsValue.canonicalJson, JsValue.sorted] <;> simp
  | .array values => rw [JsValue.canonicalJson, JsValue.sorted, stringify, canonicalTexts_eq]
  | .object fields =>
    have hsort := List.map_insertionSort keyLe keyLe (fieldText numeral) (sortedFields fields)
      fun _ _ _ _ => Iff.rfl
    rw [JsValue.canonicalJson, JsValue.sorted, stringify, canonicalPairs_eq, stringifyFields_eq,
      ← hsort, List.map_map]
    rfl

lemma canonicalTexts_eq (values : List (JsValue N)) :
    canonicalTexts numeral values = stringifyValues numeral (sortedValues values) := by
  match values with
  | [] => rfl
  | value :: values =>
    rw [canonicalTexts, sortedValues, stringifyValues, canonicalJson_eq value,
      canonicalTexts_eq values]

lemma canonicalPairs_eq (fields : List (JsString × JsValue N)) :
    canonicalPairs numeral fields = (sortedFields fields).map (fieldText numeral) := by
  match fields with
  | [] => rfl
  | (key, value) :: fields =>
    rw [canonicalPairs, sortedFields, List.map_cons, canonicalJson_eq value,
      canonicalPairs_eq fields, fieldText]

end

section Sorting

variable {α : Type} {fields others : List (JsString × α)}

instance : Std.Total (keyLe (α := α)) := ⟨fun a b => le_total (a.1.map Fin.val) (b.1.map Fin.val)⟩

instance : IsTrans (JsString × α) keyLe := ⟨fun _ _ _ h h' => le_trans h h'⟩

lemma key_injective : Function.Injective (List.map (Fin.val : Fin 65536 → ℕ)) :=
  List.map_injective_iff.mpr Fin.val_injective

/-- Where no key comes twice, the order of the keys is the only one. -/
lemma insertionSort_eq (h : fields.Perm others) (hk : (fields.map Prod.fst).Nodup) :
    fields.insertionSort keyLe = others.insertionSort keyLe := by
  refine List.Perm.eq_of_pairwise ?_ (List.pairwise_insertionSort keyLe fields)
    (List.pairwise_insertionSort keyLe others)
    (((List.perm_insertionSort keyLe fields).trans h).trans (List.perm_insertionSort keyLe others).symm)
  intro a b ha hb hab hba
  rw [List.mem_insertionSort] at ha hb
  exact List.inj_on_of_nodup_map hk ha (h.mem_iff.mpr hb) (key_injective (le_antisymm hab hba))

end Sorting

section Equality

variable {a b : JsValue N}

lemma sortedFields_eq (fields : List (JsString × JsValue N)) :
    sortedFields fields = fields.map fun f => (f.1, f.2.sorted) := by
  induction fields with
  | nil => rfl
  | cons field fields ih =>
    obtain ⟨key, value⟩ := field
    rw [sortedFields, ih, List.map_cons]

lemma keys_sortedFields (fields : List (JsString × JsValue N)) :
    (sortedFields fields).map Prod.fst = fields.map Prod.fst := by
  rw [sortedFields_eq, List.map_map]
  rfl

lemma fieldsDistinct_iff {fields : List (JsString × JsValue N)} :
    FieldsDistinct fields ↔ ∀ f ∈ fields, f.2.Distinct := by
  induction fields with
  | nil => simp [FieldsDistinct]
  | cons field fields ih =>
    obtain ⟨key, value⟩ := field
    rw [FieldsDistinct, ih, List.forall_mem_cons]

lemma perm_keys (fields : List (JsString × JsValue N)) :
    (((sortedFields fields).insertionSort keyLe).map Prod.fst).Perm (fields.map Prod.fst) := by
  rw [← keys_sortedFields fields]
  exact (List.perm_insertionSort keyLe _).map _

mutual

lemma distinct_sorted (value : JsValue N) (h : value.Distinct) : value.sorted.Distinct := by
  match value with
  | .null | .bool _ | .number _ | .string _ => exact h
  | .array values => exact valuesDistinct_sorted values h
  | .object fields =>
    refine ⟨(perm_keys fields).nodup_iff.mpr h.1, fieldsDistinct_iff.mpr fun f hf => ?_⟩
    rw [List.mem_insertionSort] at hf
    exact fieldsDistinct_iff.mp (fieldsDistinct_sorted fields h.2) f hf

lemma valuesDistinct_sorted (values : List (JsValue N)) (h : ValuesDistinct values) :
    ValuesDistinct (sortedValues values) := by
  match values with
  | [] => exact trivial
  | value :: values => exact ⟨distinct_sorted value h.1, valuesDistinct_sorted values h.2⟩

lemma fieldsDistinct_sorted (fields : List (JsString × JsValue N)) (h : FieldsDistinct fields) :
    FieldsDistinct (sortedFields fields) := by
  match fields with
  | [] => exact trivial
  | (key, value) :: fields => exact ⟨distinct_sorted value h.1, fieldsDistinct_sorted fields h.2⟩

end

mutual

lemma same_of_sorted (a b : JsValue N) (h : a.sorted = b.sorted) : Same a b := by
  match a with
  | .null | .bool _ | .number _ | .string _ =>
    cases b <;> simp_all [JsValue.sorted, Same]
  | .array values =>
    cases b with
    | array others =>
      simp only [JsValue.sorted, JsValue.array.injEq] at h
      exact ⟨others, rfl, sameValues_of_sorted values others h⟩
    | null | bool | number | string | object => simp [JsValue.sorted] at h
  | .object fields =>
    cases b with
    | object others =>
      simp only [JsValue.sorted, JsValue.object.injEq] at h
      have hkeys := perm_keys fields
      rw [h] at hkeys
      have hperm : (sortedFields fields).Perm (sortedFields others) :=
        (List.perm_insertionSort keyLe _).symm.trans (h ▸ List.perm_insertionSort keyLe _)
      exact ⟨others, rfl, hkeys.symm.trans (perm_keys others),
        sameFields_of_sorted fields others hperm.subset⟩
    | null | bool | number | string | array => simp [JsValue.sorted] at h

lemma sameValues_of_sorted (values others : List (JsValue N))
    (h : sortedValues values = sortedValues others) : SameValues values others := by
  match values with
  | [] =>
    cases others with
    | nil => rfl
    | cons w ws => simp [sortedValues] at h
  | value :: values =>
    cases others with
    | nil => simp [sortedValues] at h
    | cons w ws =>
      simp only [sortedValues, List.cons.injEq] at h
      exact ⟨w, ws, rfl, same_of_sorted value w h.1, sameValues_of_sorted values ws h.2⟩

lemma sameFields_of_sorted (fields others : List (JsString × JsValue N))
    (h : sortedFields fields ⊆ sortedFields others) : SameFields fields others := by
  match fields with
  | [] => exact trivial
  | (key, value) :: fields =>
    rw [sortedFields, List.cons_subset] at h
    obtain ⟨hhead, htail⟩ := h
    rw [sortedFields_eq others, List.mem_map] at hhead
    obtain ⟨⟨key', w⟩, hmem, heq⟩ := hhead
    simp only [Prod.mk.injEq] at heq
    obtain ⟨rfl, heq⟩ := heq
    exact ⟨⟨w, hmem, same_of_sorted value w heq.symm⟩, sameFields_of_sorted fields others htail⟩

end

mutual

lemma sorted_of_same (a b : JsValue N) (h : Same a b) (ha : a.Distinct) (hb : b.Distinct) :
    a.sorted = b.sorted := by
  match a with
  | .null | .bool _ | .number _ | .string _ =>
    simp only [Same] at h
    rw [h]
  | .array values =>
    obtain ⟨others, rfl, h⟩ := h
    rw [JsValue.sorted, JsValue.sorted, sortedValues_of_same values others h ha hb]
  | .object fields =>
    obtain ⟨others, rfl, hkeys, h⟩ := h
    have hsubset := sortedFields_subset fields others h ha.2 (fieldsDistinct_iff.mp hb.2)
    have hnodup : ((sortedFields fields).map Prod.fst).Nodup := by
      rw [keys_sortedFields]
      exact ha.1
    have hlength : (sortedFields others).length ≤ (sortedFields fields).length := by
      have hlen := hkeys.length_eq
      rw [sortedFields_eq, sortedFields_eq, List.length_map, List.length_map]
      rw [List.length_map, List.length_map] at hlen
      exact hlen.ge
    have hperm := (List.subperm_of_subset hnodup.of_map hsubset).perm_of_length_le hlength
    rw [JsValue.sorted, JsValue.sorted, insertionSort_eq hperm hnodup]

lemma sortedValues_of_same (values others : List (JsValue N)) (h : SameValues values others)
    (ha : ValuesDistinct values) (hb : ValuesDistinct others) :
    sortedValues values = sortedValues others := by
  match values with
  | [] =>
    obtain rfl := h
    rfl
  | value :: values =>
    obtain ⟨w, ws, rfl, hw, h⟩ := h
    rw [sortedValues, sortedValues, sorted_of_same value w hw ha.1 hb.1,
      sortedValues_of_same values ws h ha.2 hb.2]

lemma sortedFields_subset (fields others : List (JsString × JsValue N)) (h : SameFields fields others)
    (ha : FieldsDistinct fields) (hb : ∀ f ∈ others, f.2.Distinct) :
    sortedFields fields ⊆ sortedFields others := by
  match fields with
  | [] => exact List.nil_subset _
  | (key, value) :: fields =>
    obtain ⟨⟨w, hmem, hw⟩, h⟩ := h
    refine List.cons_subset.mpr ⟨?_, sortedFields_subset fields others h ha.2 hb⟩
    rw [sortedFields_eq others, sorted_of_same value w hw ha.1 (hb _ hmem)]
    exact List.mem_map_of_mem (f := fun f : JsString × JsValue N => (f.1, f.2.sorted)) hmem

end

/-- Numbers are written as JSON writes them, and different ones differently. -/
structure Numerals (N : Type) where
  text : N → JsString
  injective : Function.Injective text
  isNumeral_text : ∀ n, isNumeral (text n) = true

/-- The canonical text says which value it is the text of, but for the order of the keys. -/
theorem canonicalJson_eq_iff [Inhabited N] (numerals : Numerals N) (a b : JsValue N)
    (ha : a.Distinct) (hb : b.Distinct) :
    a.canonicalJson numerals.text = b.canonicalJson numerals.text ↔ Same a b := by
  have hleft := Function.leftInverse_invFun numerals.injective
  constructor
  · intro h
    rw [canonicalJson_eq, canonicalJson_eq] at h
    have hparsed := congrArg (parseJson (Function.invFun numerals.text)) h
    rw [parseJson_stringify numerals.isNumeral_text hleft (distinct_sorted a ha),
      parseJson_stringify numerals.isNumeral_text hleft (distinct_sorted b hb)] at hparsed
    exact same_of_sorted a b (Option.some.inj hparsed)
  · intro h
    rw [canonicalJson_eq, canonicalJson_eq, sorted_of_same a b h ha hb]

def digitNumerals : Numerals (Fin 10) where
  text d := [unit (hexDigit d.val)]
  injective := by decide
  isNumeral_text := by decide

/-- Two fields in either order, one of them a list with a quoted bracket in it. -/
theorem canonicalJson_eq_iff_swapped :
    let a : JsValue (Fin 10) := .object [(units "b", .number 1), (units "a", .array [.string (units "]\"")])]
    let b : JsValue (Fin 10) := .object [(units "a", .array [.string (units "]\"")]), (units "b", .number 1)]
    a.canonicalJson digitNumerals.text = b.canonicalJson digitNumerals.text ↔ Same a b :=
  canonicalJson_eq_iff digitNumerals _ _
    (by simp [JsValue.Distinct, FieldsDistinct, ValuesDistinct, units_injective.eq_iff])
    (by simp [JsValue.Distinct, FieldsDistinct, ValuesDistinct, units_injective.eq_iff])

end Equality

section Texts

mutual

def Json.toJs : Json → JsValue String
  | .null => .null
  | .bool b => .bool b
  | .number text => .number text
  | .string s => .string (units s)
  | .array values => .array (valuesToJs values)
  | .object fields => .object (fieldsToJs fields)

def valuesToJs : List Json → List (JsValue String)
  | [] => []
  | value :: values => value.toJs :: valuesToJs values

def fieldsToJs : List (String × Json) → List (JsString × JsValue String)
  | [] => []
  | (key, value) :: fields => (units key, value.toJs) :: fieldsToJs fields

end

lemma units_intercalate (parts : List String) :
    units (",".intercalate parts) = join (parts.map units) := by
  induction parts with
  | nil => rfl
  | cons part parts ih =>
    cases parts with
    | nil => rw [String.intercalate_singleton, List.map_cons, List.map_nil, join_singleton]
    | cons next parts =>
      rw [String.intercalate_cons_cons, units_append, units_append, ih, List.map_cons, List.map_cons,
        List.map_cons, join_cons_cons, List.append_assoc]
      rfl

mutual

/-- On values whose strings are texts, the canonical text in code units. -/
lemma units_canonicalJson (j : Json) : units (canonicalJson j) = j.toJs.canonicalJson units := by
  match j with
  | .null => rfl
  | .bool true => rfl
  | .bool false => rfl
  | .number text => rfl
  | .string s => exact (quoteUnits_units s).symm
  | .array values =>
    rw [canonicalJson, Json.toJs, JsValue.canonicalJson, units_append, units_append,
      units_intercalate, units_canonicalValues]
    rfl
  | .object fields =>
    have hsort := List.map_insertionSort (fun a b => codeUnits a.1 ≤ codeUnits b.1) keyLe
      (Prod.map units units) (canonicalFields fields)
      fun a _ b _ => by rw [keyLe, codeUnits_eq, codeUnits_eq]; rfl
    rw [canonicalJson, Json.toJs, JsValue.canonicalJson, ← units_canonicalFields fields, ← hsort,
      units_append, units_append, units_intercalate, List.map_map, List.map_map]
    rfl

lemma units_canonicalValues (values : List Json) :
    (canonicalValues values).map units = canonicalTexts units (valuesToJs values) := by
  match values with
  | [] => rfl
  | value :: values =>
    rw [canonicalValues, valuesToJs, canonicalTexts, List.map_cons, units_canonicalJson value,
      units_canonicalValues values]

lemma units_canonicalFields (fields : List (String × Json)) :
    (canonicalFields fields).map (Prod.map units units) =
      canonicalPairs units (fieldsToJs fields) := by
  match fields with
  | [] => rfl
  | (key, value) :: fields =>
    rw [canonicalFields, fieldsToJs, canonicalPairs, List.map_cons, units_canonicalFields fields,
      Prod.map, units_append, units_append, units_canonicalJson value, quoteUnits_units,
      List.append_assoc]
    rfl

end

end Texts

end StellarTags.Platform
