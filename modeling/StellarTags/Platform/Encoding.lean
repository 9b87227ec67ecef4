import StellarTags.Library.PositionalNumerals
import Mathlib.Data.List.Sort
import Mathlib.Tactic.Common

/-! Blanks in texts. -/

namespace StellarTags.Platform

def isSpace (c : Char) : Bool :=
  c.toNat ∈ [9, 10, 11, 12, 13, 32, 0xA0, 0x1680, 0x2028, 0x2029, 0x202F, 0x205F, 0x3000, 0xFEFF] ∨
    0x2000 ≤ c.toNat ∧ c.toNat ≤ 0x200A

def blank (s : String) : Bool := s.toList.all isSpace

def trim (s : String) : String :=
  .ofList ((s.toList.dropWhile isSpace).reverse.dropWhile isSpace).reverse

end StellarTags.Platform

/-! What the services of the platform hash, and how they write digests down. -/

namespace StellarTags.Platform

open Library.BigEndian

abbrev Bytes := List (Fin 256)

structure Digest where
  bytes : Bytes
  length_bytes : bytes.length = 32
  deriving DecidableEq

lemma Digest.ext {a b : Digest} (h : a.bytes = b.bytes) : a = b := by
  cases a
  cases b
  obtain rfl : _ = _ := h
  rfl

/-- No two of the inputs that are hashed have one digest. -/
def CollisionFree (sha256 : Bytes → Digest) (inputs : List Bytes) : Prop :=
  ∀ a ∈ inputs, ∀ b ∈ inputs, sha256 a = sha256 b → a = b

instance (sha256 : Bytes → Digest) (inputs : List Bytes) : Decidable (CollisionFree sha256 inputs) :=
  inferInstanceAs (Decidable (∀ a ∈ inputs, ∀ b ∈ inputs, sha256 a = sha256 b → a = b))

def zeroDigest : Digest := ⟨List.replicate 32 0, List.length_replicate⟩

def sampleSha256 (bytes : Bytes) : Digest :=
  ⟨toBytes 32 (bytes.foldl (fun n byte => 257 * n + byte.val + 1) 0), length_toBytes ..⟩

def utf8 (s : String) : Bytes := s.toUTF8.toList.map UInt8.toFin

lemma toList_loop (bytes : ByteArray) (i : ℕ) (read : List UInt8) :
    ByteArray.toList.loop bytes i read = read.reverse ++ bytes.data.toList.drop i := by
  fun_induction ByteArray.toList.loop bytes i read with
  | case1 i read h ih =>
    have hi : i < bytes.data.toList.length := by simpa using h
    have hget : bytes.get! i = bytes.data.toList[i] := by
      rw [ByteArray.get!, getElem!_pos bytes.data i hi, Array.getElem_toList]
    rw [ih, List.reverse_cons, List.append_assoc, List.drop_eq_getElem_cons hi, hget,
      List.singleton_append]
  | case2 i read h =>
    have hi : bytes.data.toList.length ≤ i := by simpa using h
    rw [List.drop_eq_nil_of_le hi, List.append_nil]

lemma utf8_injective : Function.Injective utf8 := by
  intro s t h
  have hbytes : s.toUTF8.toList = t.toUTF8.toList :=
    List.map_injective_iff.mpr (fun a b hab => UInt8.toFin_inj.mp hab) h
  rw [ByteArray.toList, ByteArray.toList, toList_loop, toList_loop] at hbytes
  exact String.toByteArray_inj.mp (ByteArray.ext (Array.toList_inj.mp hbytes))

section Hex

def hexDigits : List Char :=
  ['0', '1', '2', '3', '4', '5', '6', '7', '8', '9', 'a', 'b', 'c', 'd', 'e', 'f']

def hexDigit (n : ℕ) : Char := hexDigits.getD n '0'

def hexValue (c : Char) : Option ℕ := hexDigits.findIdx? (· = c.toLower)

def toHex (bytes : Bytes) : String :=
  .ofList (bytes.flatMap fun byte => [hexDigit (byte.val / 16), hexDigit (byte.val % 16)])

/-- Reading stops at the first pair that is not two digits. -/
def hexBytes : List Char → Bytes
  | high :: low :: rest =>
    match hexValue high, hexValue low with
    | some h, some l => Fin.ofNat 256 (16 * h + l) :: hexBytes rest
    | _, _ => []
  | _ => []

def ofHex (s : String) : Bytes := hexBytes s.toList

lemma hexValue_hexDigit {n : ℕ} (h : n < 16) : hexValue (hexDigit n) = some n := by
  have hall : ∀ n < 16, hexValue (hexDigit n) = some n := by decide
  exact hall n h

@[simp] lemma ofHex_toHex (bytes : Bytes) : ofHex (toHex bytes) = bytes := by
  rw [ofHex, toHex, String.toList_ofList]
  induction bytes with
  | nil => rfl
  | cons byte bytes ih =>
    have hbyte := byte.isLt
    rw [List.flatMap_cons, List.cons_append, List.cons_append, List.nil_append, hexBytes,
      hexValue_hexDigit (by omega), hexValue_hexDigit (by omega), ih]
    simp only [List.cons.injEq, and_true]
    rw [Nat.div_add_mod]
    exact Fin.ofNat_val_eq_self byte

lemma toHex_injective : Function.Injective toHex :=
  Function.LeftInverse.injective ofHex_toHex

end Hex

section Json

/-- A number is kept as the text that it is written as. -/
inductive Json : Type
  | null
  | bool (b : Bool)
  | number (text : String)
  | string (s : String)
  | array (values : List Json)
  | object (fields : List (String × Json))

def codeUnits (s : String) : List ℕ :=
  s.toList.flatMap fun c =>
    if c.toNat < 0x10000 then [c.toNat]
    else [0xD800 + (c.toNat - 0x10000) / 0x400, 0xDC00 + (c.toNat - 0x10000) % 0x400]

def quotationMark : Char := Char.ofNat 34

def backslash : Char := Char.ofNat 92

def escape (c : Char) : List Char :=
  if c = quotationMark ∨ c = backslash then [backslash, c]
  else if c.toNat = 8 then [backslash, 'b']
  else if c.toNat = 9 then [backslash, 't']
  else if c.toNat = 10 then [backslash, 'n']
  else if c.toNat = 12 then [backslash, 'f']
  else if c.toNat = 13 then [backslash, 'r']
  else if c.toNat < 32 then
    [backslash, 'u', '0', '0', hexDigit (c.toNat / 16), hexDigit (c.toNat % 16)]
  else [c]

def quote (s : String) : String :=
  .ofList (quotationMark :: (s.toList.flatMap escape ++ [quotationMark]))

mutual

def canonicalJson : Json → String
  | .null => "null"
  | .bool b => if b then "true" else "false"
  | .number text => text
  | .string s => quote s
  | .array values => "[" ++ ",".intercalate (canonicalValues values) ++ "]"
  | .object fields =>
    let pairs := (canonicalFields fields).insertionSort fun a b => codeUnits a.1 ≤ codeUnits b.1
    "\x7b" ++ ",".intercalate (pairs.map Prod.snd) ++ "\x7d"

def canonicalValues : List Json → List String
  | [] => []
  | value :: values => canonicalJson value :: canonicalValues values

def canonicalFields : List (String × Json) → List (String × String)
  | [] => []
  | (key, value) :: fields =>
    (key, quote key ++ ":" ++ canonicalJson value) :: canonicalFields fields

end

end Json

end StellarTags.Platform
