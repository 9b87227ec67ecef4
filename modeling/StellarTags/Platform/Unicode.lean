import StellarTags.Platform.Encoding

/-! The strings of JavaScript, which are code units, and their bytes in UTF-8. -/

namespace StellarTags.Platform

abbrev JsString := List (Fin 65536)

instance neZero_units : NeZero 65536 := ⟨by decide⟩

section CodeUnits

def charUnits (c : Char) : JsString :=
  if c.toNat < 0x10000 then [Fin.ofNat _ c.toNat]
  else [Fin.ofNat _ (0xD800 + (c.toNat - 0x10000) / 0x400),
    Fin.ofNat _ (0xDC00 + (c.toNat - 0x10000) % 0x400)]

def units (s : String) : JsString := s.toList.flatMap charUnits

def isHigh (u : Fin 65536) : Bool := 0xD800 ≤ u.val ∧ u.val < 0xDC00

def isLow (u : Fin 65536) : Bool := 0xDC00 ≤ u.val ∧ u.val < 0xE000

def pairChar (high low : Fin 65536) : Char :=
  Char.ofNat (0x10000 + (high.val - 0xD800) * 0x400 + (low.val - 0xDC00))

def replacement : Char := Char.ofNat 0xFFFD

def unitChar (u : Fin 65536) : Char := if isHigh u ∨ isLow u then replacement else Char.ofNat u.val

/-- The characters, where a surrogate on its own becomes the replacement character. -/
def wellFormed : JsString → List Char
  | [] => []
  | [u] => [unitChar u]
  | u :: v :: rest =>
    if isHigh u ∧ isLow v then pairChar u v :: wellFormed rest
    else unitChar u :: wellFormed (v :: rest)

lemma char_cases (c : Char) : c.toNat < 0xD800 ∨ 0xE000 ≤ c.toNat ∧ c.toNat < 0x110000 := by
  rcases c.valid with h | ⟨h, h'⟩
  · exact .inl h
  · exact .inr ⟨h, h'⟩

lemma charUnits_bmp {c : Char} (h : c.toNat < 0x10000) :
    ∃ u : Fin 65536, charUnits c = [u] ∧ u.val = c.toNat ∧ isHigh u = false ∧ isLow u = false := by
  have hval : (Fin.ofNat 65536 c.toNat).val = c.toNat := Nat.mod_eq_of_lt h
  have hc := char_cases c
  refine ⟨Fin.ofNat _ c.toNat, if_pos h, hval, ?_, ?_⟩
  · rw [isHigh, hval, decide_eq_false_iff_not]
    omega
  · rw [isLow, hval, decide_eq_false_iff_not]
    omega

lemma charUnits_pair {c : Char} (h : ¬ c.toNat < 0x10000) :
    ∃ u v : Fin 65536, charUnits c = [u, v] ∧ isHigh u = true ∧ isLow v = true ∧
      pairChar u v = c := by
  have hc := char_cases c
  have hu : (Fin.ofNat 65536 (0xD800 + (c.toNat - 0x10000) / 0x400)).val =
      0xD800 + (c.toNat - 0x10000) / 0x400 := Nat.mod_eq_of_lt (by omega)
  have hv : (Fin.ofNat 65536 (0xDC00 + (c.toNat - 0x10000) % 0x400)).val =
      0xDC00 + (c.toNat - 0x10000) % 0x400 := Nat.mod_eq_of_lt (by omega)
  refine ⟨_, _, if_neg h, ?_, ?_, ?_⟩
  · rw [isHigh, hu, decide_eq_true_iff]
    omega
  · rw [isLow, hv, decide_eq_true_iff]
    omega
  · have hsum : 0x10000 + (0xD800 + (c.toNat - 0x10000) / 0x400 - 0xD800) * 0x400 +
        (0xDC00 + (c.toNat - 0x10000) % 0x400 - 0xDC00) = c.toNat := by omega
    rw [pairChar, hu, hv, hsum, Char.ofNat_toNat]

lemma wellFormed_cons_units (c : Char) (rest : JsString) :
    wellFormed (charUnits c ++ rest) = c :: wellFormed rest := by
  by_cases h : c.toNat < 0x10000
  · obtain ⟨u, hu, hval, hhigh, hlow⟩ := charUnits_bmp h
    have hchar : unitChar u = c := by simp [unitChar, hhigh, hlow, hval, Char.ofNat_toNat]
    rw [hu, List.singleton_append]
    cases rest with
    | nil => simp [wellFormed, hchar]
    | cons v rest => simp [wellFormed, hhigh, hchar]
  · obtain ⟨u, v, huv, hhigh, hlow, hchar⟩ := charUnits_pair h
    rw [huv]
    simp [wellFormed, hhigh, hlow, hchar]

@[simp] lemma wellFormed_units (s : String) : wellFormed (units s) = s.toList := by
  rw [units]
  induction s.toList with
  | nil => rfl
  | cons c cs ih => rw [List.flatMap_cons, wellFormed_cons_units, ih]

lemma units_injective : Function.Injective units := by
  intro s t h
  have hchars := congrArg wellFormed h
  rw [wellFormed_units, wellFormed_units] at hchars
  exact String.toList_injective hchars

lemma units_append (s t : String) : units (s ++ t) = units s ++ units t := by
  simp [units]

lemma codeUnits_eq (s : String) : codeUnits s = (units s).map Fin.val := by
  rw [codeUnits, units, List.map_flatMap]
  refine List.flatMap_congr fun c _ => ?_
  have hc := char_cases c
  rw [charUnits]
  split
  · rename_i h
    simp [Nat.mod_eq_of_lt h]
  · have hhigh : 0xD800 + (c.toNat - 0x10000) / 0x400 < 65536 := by omega
    have hlow : 0xDC00 + (c.toNat - 0x10000) % 0x400 < 65536 := by omega
    simp only [List.map_cons, List.map_nil, Fin.val_ofNat, Nat.mod_eq_of_lt hhigh,
      Nat.mod_eq_of_lt hlow]

end CodeUnits

section Utf8

/-- A character of which some bytes are still to come, and where the next one has to lie. -/
structure Pending where
  point : ℕ
  needed : ℕ
  lower : ℕ
  upper : ℕ
  deriving DecidableEq, Repr

/-- A first byte: what it gives, and what it begins. -/
def leadByte (b : ℕ) : List Char × Option Pending :=
  if b < 0x80 then ([Char.ofNat b], none)
  else if 0xC2 ≤ b ∧ b ≤ 0xDF then ([], some ⟨b - 0xC0, 1, 0x80, 0xBF⟩)
  else if 0xE0 ≤ b ∧ b ≤ 0xEF then
    ([], some ⟨b - 0xE0, 2, if b = 0xE0 then 0xA0 else 0x80, if b = 0xED then 0x9F else 0xBF⟩)
  else if 0xF0 ≤ b ∧ b ≤ 0xF4 then
    ([], some ⟨b - 0xF0, 3, if b = 0xF0 then 0x90 else 0x80, if b = 0xF4 then 0x8F else 0xBF⟩)
  else ([replacement], none)

/-- A byte that does not continue the character begins anew. -/
def utf8Byte (state : Option Pending) (b : ℕ) : List Char × Option Pending :=
  match state with
  | none => leadByte b
  | some p =>
    if p.lower ≤ b ∧ b ≤ p.upper then
      if p.needed = 1 then ([Char.ofNat (p.point * 0x40 + (b - 0x80))], none)
      else ([], some ⟨p.point * 0x40 + (b - 0x80), p.needed - 1, 0x80, 0xBF⟩)
    else (replacement :: (leadByte b).1, (leadByte b).2)

def utf8Chars (state : Option Pending) : Bytes → List Char
  | [] => if state.isSome then [replacement] else []
  | b :: rest => (utf8Byte state b.val).1 ++ utf8Chars (utf8Byte state b.val).2 rest

def decodeUtf8 (bytes : Bytes) : JsString := units (.ofList (utf8Chars none bytes))

def encodeUtf8 (s : JsString) : Bytes := utf8 (.ofList (wellFormed s))

def charBytes (c : Char) : Bytes := (String.utf8EncodeChar c).map UInt8.toFin

lemma utf8_eq (s : String) : utf8 s = s.toList.flatMap charBytes := by
  have hbytes : s.toUTF8.toList = s.toList.flatMap String.utf8EncodeChar := by
    have hencoded : s.toByteArray = (s.toList.flatMap String.utf8EncodeChar).toByteArray :=
      String.utf8Encode_toList.symm
    rw [ByteArray.toList, toList_loop, String.toUTF8, hencoded, List.data_toByteArray]
    simp
  rw [utf8, hbytes, List.map_flatMap]
  rfl

lemma val_byte {n : ℕ} (h : n < 256) : (UInt8.ofNat n).toFin.val = n := by
  simp [Nat.mod_eq_of_lt h]

section Reading

variable {b : Fin 256} {n point : ℕ} {lower upper : ℕ} {rest : Bytes}

lemma utf8Chars_lead {p : Pending} (h : leadByte b.val = ([], some p)) :
    utf8Chars none (b :: rest) = utf8Chars (some p) rest := by
  simp [utf8Chars, utf8Byte, h]

lemma utf8Chars_more (hl : lower ≤ b.val) (hu : b.val ≤ upper) :
    utf8Chars (some ⟨point, n + 2, lower, upper⟩) (b :: rest) =
      utf8Chars (some ⟨point * 0x40 + (b.val - 0x80), n + 1, 0x80, 0xBF⟩) rest := by
  simp [utf8Chars, utf8Byte, hl, hu]

lemma utf8Chars_last (hl : lower ≤ b.val) (hu : b.val ≤ upper) :
    utf8Chars (some ⟨point, 1, lower, upper⟩) (b :: rest) =
      Char.ofNat (point * 0x40 + (b.val - 0x80)) :: utf8Chars none rest := by
  simp [utf8Chars, utf8Byte, hl, hu]

lemma leadByte_two {b : ℕ} (h : 0xC2 ≤ b) (h' : b ≤ 0xDF) :
    leadByte b = ([], some ⟨b - 0xC0, 1, 0x80, 0xBF⟩) := by
  rw [leadByte, if_neg (by omega), if_pos ⟨h, h'⟩]

lemma leadByte_three {b : ℕ} (h : 0xE0 ≤ b) (h' : b ≤ 0xEF) :
    leadByte b = ([], some ⟨b - 0xE0, 2, if b = 0xE0 then 0xA0 else 0x80,
      if b = 0xED then 0x9F else 0xBF⟩) := by
  rw [leadByte, if_neg (by omega), if_neg (by omega), if_pos ⟨h, h'⟩]

lemma leadByte_four {b : ℕ} (h : 0xF0 ≤ b) (h' : b ≤ 0xF4) :
    leadByte b = ([], some ⟨b - 0xF0, 3, if b = 0xF0 then 0x90 else 0x80,
      if b = 0xF4 then 0x8F else 0xBF⟩) := by
  rw [leadByte, if_neg (by omega), if_neg (by omega), if_neg (by omega), if_pos ⟨h, h'⟩]

end Reading

lemma utf8Chars_charBytes (c : Char) (rest : Bytes) :
    utf8Chars none (charBytes c ++ rest) = c :: utf8Chars none rest := by
  have hc := char_cases c
  have hself : Char.ofNat c.toNat = c := Char.ofNat_toNat c
  change utf8Chars none ((String.utf8EncodeChar c).map UInt8.toFin ++ rest) = _
  have hval : c.val.toNat = c.toNat := rfl
  rw [String.utf8EncodeChar]
  simp only [hval]
  generalize c.toNat = n at *
  by_cases h1 : n ≤ 0x7f
  · simp only [h1, if_true, List.map_cons, List.map_nil, List.singleton_append, utf8Chars, utf8Byte]
    rw [val_byte (by omega), leadByte, if_pos (by omega), hself]
    rfl
  by_cases h2 : n ≤ 0x7ff
  · have hb := val_byte (n := n / 64 % 0x20 + 0xc0) (by omega)
    have hlast := val_byte (n := n % 0x40 + 0x80) (by omega)
    have hpoint : (n / 64 % 0x20 + 0xc0 - 0xC0) * 0x40 + (n % 0x40 + 0x80 - 0x80) = n := by omega
    simp only [h1, h2, if_true, if_false, List.map_cons, List.map_nil, List.cons_append,
      List.nil_append]
    rw [utf8Chars_lead (leadByte_two (by omega) (by omega)), utf8Chars_last (by omega) (by omega),
      hb, hlast, hpoint, hself]
  by_cases h3 : n ≤ 0xffff
  · have hb := val_byte (n := n / 4096 % 0x10 + 0xe0) (by omega)
    have hnext := val_byte (n := n / 64 % 0x40 + 0x80) (by omega)
    have hlast := val_byte (n := n % 0x40 + 0x80) (by omega)
    have hpoint : ((n / 4096 % 0x10 + 0xe0 - 0xE0) * 0x40 + (n / 64 % 0x40 + 0x80 - 0x80)) * 0x40 +
        (n % 0x40 + 0x80 - 0x80) = n := by omega
    simp only [h1, h2, h3, if_true, if_false, List.map_cons, List.map_nil, List.cons_append,
      List.nil_append]
    rw [utf8Chars_lead (leadByte_three (by omega) (by omega)),
      utf8Chars_more (by split <;> omega) (by split <;> omega),
      utf8Chars_last (by omega) (by omega), hb, hnext, hlast, hpoint, hself]
  · have hb := val_byte (n := n / 262144 % 0x08 + 0xf0) (by omega)
    have hnext := val_byte (n := n / 4096 % 0x40 + 0x80) (by omega)
    have hthird := val_byte (n := n / 64 % 0x40 + 0x80) (by omega)
    have hlast := val_byte (n := n % 0x40 + 0x80) (by omega)
    have hpoint : (((n / 262144 % 0x08 + 0xf0 - 0xF0) * 0x40 + (n / 4096 % 0x40 + 0x80 - 0x80)) *
        0x40 + (n / 64 % 0x40 + 0x80 - 0x80)) * 0x40 + (n % 0x40 + 0x80 - 0x80) = n := by omega
    simp only [h1, h2, h3, if_false, List.map_cons, List.map_nil, List.cons_append,
      List.nil_append]
    rw [utf8Chars_lead (leadByte_four (by omega) (by omega)),
      utf8Chars_more (by split <;> omega) (by split <;> omega),
      utf8Chars_more (by omega) (by omega), utf8Chars_last (by omega) (by omega), hb, hnext,
      hthird, hlast, hpoint, hself]

lemma decodeUtf8_utf8 (s : String) : decodeUtf8 (utf8 s) = units s := by
  rw [decodeUtf8, utf8_eq]
  congr 1
  apply String.toList_injective
  rw [String.toList_ofList]
  induction s.toList with
  | nil => rfl
  | cons c cs ih => rw [List.flatMap_cons, utf8Chars_charBytes, ih]

end Utf8

end StellarTags.Platform
