import StellarTags.Library.BaseEncodings
import StellarTags.Platform.Dates
import StellarTags.Platform.JsonValues

/-! Cursors: where a listing goes on, as the text that a client passes back. -/

namespace StellarTags.Listing

open Library Platform

/-- A time that a date can have. -/
structure Timestamp where
  ms : ℤ
  valid : |ms| ≤ maxTime

/-- A point is given with a date or with the text of one. -/
inductive Moment : Type
  | text (s : JsString)
  | date (t : Timestamp)

structure Point where
  createdAt : JsString
  username : JsString
  deriving DecidableEq

def cursorVersion : JsString := units "v1"

def Timestamp.text (t : Timestamp) : JsString := units (toISOString t.ms)

def Moment.asText : Moment → JsString
  | .text s => s
  | .date t => t.text

def toBase64Url (bytes : Bytes) : JsString := (Base64.encode bytes).map (Fin.ofNat 65536)

def ofBase64Url (s : JsString) : Bytes := Base64.decode (s.map Fin.val)

/-- What numbers are is not looked at. -/
def payload (createdAt : Moment) (username : JsString) : JsValue Unit :=
  .array [.string cursorVersion,
    .object [(units "createdAt", .string createdAt.asText), (units "username", .string username)]]

def encodeCursor (createdAt : Moment) (username : JsString) : JsString :=
  toBase64Url (encodeUtf8 (stringify (fun _ => units "0") (payload createdAt username)))

/-- The field of an object, if it is a string. -/
def stringField (key : String) (fields : List (JsString × JsValue Unit)) : Option JsString :=
  match fields.find? fun f => f.1 = units key with
  | some (_, .string s) => some s
  | _ => none

/-- Other versions are not read, nor points whose date does not parse. -/
def decodeCursor (otherDates : JsString → Option ℤ) (cursor : JsString) : Option Point := do
  let parsed ← parseJson (fun _ => ()) (decodeUtf8 (ofBase64Url cursor))
  match parsed with
  | .array (.string version :: .object fields :: _) =>
    if version = cursorVersion then do
      let createdAt ← stringField "createdAt" fields
      let _ ← dateParse otherDates createdAt
      let username ← stringField "username" fields
      some ⟨createdAt, username⟩
    else none
  | _ => none

variable {otherDates : JsString → Option ℤ}

lemma ofBase64Url_toBase64Url (bytes : Bytes) : ofBase64Url (toBase64Url bytes) = bytes := by
  have hvals : ((Base64.encode bytes).map (Fin.ofNat 65536)).map Fin.val = Base64.encode bytes := by
    rw [List.map_map]
    refine (List.map_congr_left fun code h => ?_).trans (List.map_id _)
    exact Nat.mod_eq_of_lt (lt_trans (Base64.mem_encode h).1 (by decide))
  rw [ofBase64Url, toBase64Url, hvals, Base64.decode_encode]

section Texts

/-- The code units are those of a text. -/
def IsText (s : JsString) : Prop := ∃ t : String, s = units t

lemma isText_units (t : String) : IsText (units t) := ⟨t, rfl⟩

lemma IsText.append {s t : JsString} (hs : IsText s) (ht : IsText t) : IsText (s ++ t) := by
  obtain ⟨a, rfl⟩ := hs
  obtain ⟨b, rfl⟩ := ht
  exact ⟨a ++ b, (units_append a b).symm⟩

lemma IsText.cons {c : Char} {s : JsString} (hc : charUnits c = [unit c]) (hs : IsText s) :
    IsText (unit c :: s) := by
  obtain ⟨t, rfl⟩ := hs
  refine ⟨.ofList (c :: t.toList), ?_⟩
  rw [units, units, String.toList_ofList, List.flatMap_cons, hc, List.singleton_append]

lemma isText_quoteUnits {s : JsString} (hs : IsText s) : IsText (quoteUnits s) := by
  obtain ⟨t, rfl⟩ := hs
  exact ⟨quote t, quoteUnits_units t⟩

lemma isText_payload {createdAt : Moment} {username : JsString} (hs : IsText createdAt.asText)
    (hu : IsText username) : IsText (stringify (fun _ => units "0") (payload createdAt username)) := by
  have hfield : ∀ {key : String} {s : JsString}, IsText s →
      IsText (quoteUnits (units key) ++ colon :: quoteUnits s) := fun h =>
    (isText_quoteUnits (isText_units _)).append (.cons rfl (isText_quoteUnits h))
  have hobject : IsText (stringify (fun _ : Unit => units "0") (.object
      [(units "createdAt", .string createdAt.asText), (units "username", .string username)])) := by
    simp only [stringify, stringifyFields, join_cons_cons, join_singleton]
    exact .cons rfl (((hfield hs).append (.cons rfl (hfield hu))).append
      (.cons rfl (isText_units "")))
  simp only [payload, stringify, stringifyValues, join_cons_cons, join_singleton] at hobject ⊢
  exact .cons rfl (((isText_quoteUnits (isText_units _)).append (.cons rfl hobject)).append
    (.cons rfl (isText_units "")))

lemma decodeUtf8_encodeUtf8 {s : JsString} (hs : IsText s) : decodeUtf8 (encodeUtf8 s) = s := by
  obtain ⟨t, rfl⟩ := hs
  rw [encodeUtf8, wellFormed_units, String.ofList_toList, decodeUtf8_utf8]

end Texts

/-- A cursor is read back as the point it was made of. -/
lemma decodeCursor_encodeCursor {createdAt : Moment} {username : JsString}
    (hs : IsText createdAt.asText) (hu : IsText username)
    (hdate : (dateParse otherDates createdAt.asText).isSome) :
    decodeCursor otherDates (encodeCursor createdAt username) =
      some ⟨createdAt.asText, username⟩ := by
  have hkeys : units "createdAt" ≠ units "username" := units_injective.ne (by decide)
  have hparse : parseJson (fun _ => ())
      (stringify (fun _ => units "0") (payload createdAt username)) =
        some (payload createdAt username) :=
    parseJson_stringify (fun _ => by decide) (fun _ => rfl)
      (by simp [payload, JsValue.Distinct, ValuesDistinct, FieldsDistinct, hkeys])
  obtain ⟨ms, hms⟩ := Option.isSome_iff_exists.mp hdate
  rw [decodeCursor, encodeCursor, ofBase64Url_toBase64Url,
    decodeUtf8_encodeUtf8 (isText_payload hs hu), hparse]
  simp [payload, stringField, hkeys, hms]

end StellarTags.Listing
