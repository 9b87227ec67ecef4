import Mathlib.Data.Nat.Digits.Defs
import StellarTags.Platform.JsonValues
import StellarTags.Platform.Encoding

/-! Trimmed texts, numbers in base ten and sixteen, and the hexadecimal text of bytes. -/

namespace StellarTags.Platform

open Library.BigEndian

section Blanks

def isSpaceUnit (u : Fin 65536) : Bool := isSpace (unitChar u)

def trimStart (s : JsString) : JsString := s.dropWhile isSpaceUnit

def trimUnits (s : JsString) : JsString := (trimStart (trimStart s).reverse).reverse

lemma trimStart_eq {s : JsString} (h : ∀ u ∈ s, isSpaceUnit u = false) : trimStart s = s := by
  cases s with
  | nil => rfl
  | cons u s => simp [trimStart, h u List.mem_cons_self]

lemma trimUnits_eq {s : JsString} (h : ∀ u ∈ s, isSpaceUnit u = false) : trimUnits s = s := by
  rw [trimUnits, trimStart_eq h, trimStart_eq fun u hu => h u (List.mem_reverse.mp hu),
    List.reverse_reverse]

lemma isSpaceUnit_of_visible {u : Fin 65536} (hl : 33 ≤ u.val) (hu : u.val < 128) :
    isSpaceUnit u = false := by
  have hall : ∀ n < 128, 33 ≤ n → isSpaceUnit (Fin.ofNat 65536 n) = false := by decide
  rw [← Fin.ofNat_val_eq_self u]
  exact hall u.val hu hl

end Blanks

section Numerals

def digitUnit (n : ℕ) : Fin 65536 := unit (hexDigit n)

def digitsText (b n : ℕ) : JsString := (Nat.digits b n).reverse.map digitUnit

/-- The text of a number in a base up to sixteen. -/
def numeral (b n : ℕ) : JsString := if n = 0 then [unit '0'] else digitsText b n

def digitValue (u : Fin 65536) : ℕ := (hexUnitValue u).getD 0

def numeralValue (b : ℕ) (s : JsString) : ℕ := s.foldl (fun n u => b * n + digitValue u) 0

def padStart (width : ℕ) (s : JsString) : JsString :=
  List.replicate (width - s.length) (unit '0') ++ s

variable {b n : ℕ}

lemma digitValue_digitUnit (h : n < 16) : digitValue (digitUnit n) = n := by
  rw [digitValue, digitUnit, hexUnitValue_hexDigit h, Option.getD_some]

lemma numeralValue_append (b : ℕ) (s : JsString) (u : Fin 65536) :
    numeralValue b (s ++ [u]) = b * numeralValue b s + digitValue u := by
  simp [numeralValue]

lemma digitsText_step (hb : 1 < b) (hn : 0 < n) :
    digitsText b n = digitsText b (n / b) ++ [digitUnit (n % b)] := by
  rw [digitsText, digitsText, Nat.digits_def' hb hn, List.reverse_cons, List.map_append,
    List.map_singleton]

lemma numeralValue_digitsText (hb : 1 < b) (hb' : b ≤ 16) (n : ℕ) :
    numeralValue b (digitsText b n) = n := by
  induction n using Nat.strongRecOn with
  | _ n ih =>
    rcases Nat.eq_zero_or_pos n with rfl | hn
    · simp [digitsText, numeralValue]
    · have hmod : n % b < b := Nat.mod_lt n (by omega)
      rw [digitsText_step hb hn, numeralValue_append, ih _ (Nat.div_lt_self hn hb),
        digitValue_digitUnit (by omega), Nat.div_add_mod]

lemma numeralValue_numeral (hb : 1 < b) (hb' : b ≤ 16) (n : ℕ) :
    numeralValue b (numeral b n) = n := by
  rw [numeral]
  split
  · rename_i h
    rw [h]
    simp [numeralValue, digitValue, hexUnitValue, unit]
  · exact numeralValue_digitsText hb hb' n

lemma numeral_ne_nil (hb : 1 < b) (n : ℕ) : numeral b n ≠ [] := by
  rw [numeral]
  split
  · exact List.cons_ne_nil _ _
  · rename_i h
    rw [digitsText_step hb (Nat.pos_of_ne_zero h)]
    simp

lemma isDigitUnit_digitUnit (h : n < 10) : isDigitUnit (digitUnit n) = true := by
  have hall : ∀ n < 10, isDigitUnit (digitUnit n) = true := by decide
  exact hall n h

lemma isDigitUnit_of_mem {u : Fin 65536} (h : u ∈ numeral 10 n) : isDigitUnit u = true := by
  rw [numeral] at h
  split at h
  · obtain rfl := List.mem_singleton.mp h
    decide
  · obtain ⟨d, hd, rfl⟩ := List.mem_map.mp h
    exact isDigitUnit_digitUnit (Nat.digits_lt_base (by decide) (List.mem_reverse.mp hd))

end Numerals

section Hexadecimal

def hexText (bytes : Bytes) : JsString :=
  bytes.flatMap fun byte => [digitUnit (byte.val / 16), digitUnit (byte.val % 16)]

/-- Reading stops at the first pair that is not two digits. -/
def bytesOfHex : JsString → Bytes
  | high :: low :: rest =>
    match hexUnitValue high, hexUnitValue low with
    | some h, some l => Fin.ofNat 256 (16 * h + l) :: bytesOfHex rest
    | _, _ => []
  | _ => []

def isHexUnit (u : Fin 65536) : Bool := (hexUnitValue u).isSome

def lowerUnit (u : Fin 65536) : Fin 65536 :=
  if 65 ≤ u.val ∧ u.val ≤ 90 then Fin.ofNat _ (u.val + 32) else u

variable {n k : ℕ}

@[simp] lemma length_hexText (bytes : Bytes) : (hexText bytes).length = 2 * bytes.length := by
  induction bytes with
  | nil => rfl
  | cons byte bytes ih =>
    rw [hexText, List.flatMap_cons, ← hexText, List.length_append, ih]
    simp
    omega

lemma bytesOfHex_hexText (bytes : Bytes) : bytesOfHex (hexText bytes) = bytes := by
  induction bytes with
  | nil => rfl
  | cons byte bytes ih =>
    have hbyte := byte.isLt
    have hhigh := hexUnitValue_hexDigit (n := byte.val / 16) (by omega)
    have hlow := hexUnitValue_hexDigit (n := byte.val % 16) (by omega)
    rw [hexText, List.flatMap_cons, ← hexText, List.cons_append, List.cons_append, List.nil_append,
      bytesOfHex, digitUnit, digitUnit, hhigh, hlow, ih]
    simp only [List.cons.injEq, and_true]
    rw [Nat.div_add_mod]
    exact Fin.ofNat_val_eq_self byte

lemma hexText_append (bytes more : Bytes) : hexText (bytes ++ more) = hexText bytes ++ hexText more :=
  List.flatMap_append

lemma numeralValue_hexText (bytes : Bytes) : numeralValue 16 (hexText bytes) = ofBytes bytes := by
  induction bytes using List.reverseRecOn with
  | nil => rfl
  | append_singleton bytes byte ih =>
    have hbyte := byte.isLt
    have hlast : hexText [byte] = [digitUnit (byte.val / 16)] ++ [digitUnit (byte.val % 16)] := rfl
    rw [hexText_append, hlast, ← List.append_assoc, numeralValue_append, numeralValue_append, ih,
      digitValue_digitUnit (by omega), digitValue_digitUnit (by omega), ofBytes_append]
    omega

lemma padStart_digitsText (width n : ℕ) : padStart (width + 1) (digitsText 16 n) =
    padStart width (digitsText 16 (n / 16)) ++ [digitUnit (n % 16)] := by
  rcases Nat.eq_zero_or_pos n with rfl | hn
  · simp [digitsText, padStart, List.replicate_succ', digitUnit, hexDigit, hexDigits]
  · rw [digitsText_step (by decide) hn, padStart, padStart, List.length_append,
      List.length_singleton, Nat.add_sub_add_right, List.append_assoc]

lemma padStart_numeral (hk : 0 < k) (hn : n < 256 ^ k) :
    padStart (2 * k) (numeral 16 n) = hexText (toBytes k n) := by
  have hdigits : ∀ k n, n < 256 ^ k → padStart (2 * k) (digitsText 16 n) = hexText (toBytes k n) := by
    intro k
    induction k with
    | zero =>
      intro n hn
      obtain rfl : n = 0 := by simpa using hn
      rfl
    | succ k ih =>
      intro n hn
      have hrest : n / 256 < 256 ^ k := by
        rw [pow_succ] at hn
        omega
      have hlast : hexText [(⟨n % 256, Nat.mod_lt n (by decide)⟩ : Fin 256)] =
          [digitUnit (n / 16 % 16)] ++ [digitUnit (n % 16)] := by
        have hhigh : n % 256 / 16 = n / 16 % 16 := by omega
        have hlow : n % 256 % 16 = n % 16 := by omega
        rw [hexText, List.flatMap_singleton, hhigh, hlow]
        rfl
      rw [Nat.mul_succ, padStart_digitsText, padStart_digitsText, Nat.div_div_eq_div_mul,
        ih _ hrest, toBytes, hexText_append, hlast, List.append_assoc]
  rw [← hdigits k n hn, numeral]
  split
  · rename_i h
    obtain ⟨m, rfl⟩ := Nat.exists_eq_succ_of_ne_zero hk.ne'
    rw [h]
    simp [digitsText, padStart, Nat.mul_succ, List.replicate_succ']
  · rfl

lemma hexUnitValue_cases {u : Fin 65536} {d : ℕ} (h : hexUnitValue u = some d) :
    d < 16 ∧ digitUnit d = lowerUnit u := by
  have hval : ∀ d < 16, (digitUnit d).val = if d < 10 then 48 + d else 87 + d := by decide
  rw [hexUnitValue] at h
  rw [lowerUnit]
  split_ifs at h with hdigit hlower hupper
  · obtain rfl := Option.some.inj h
    refine ⟨by omega, Fin.ext ?_⟩
    rw [hval _ (by omega), if_pos (by omega), if_neg (by omega)]
    omega
  · obtain rfl := Option.some.inj h
    refine ⟨by omega, Fin.ext ?_⟩
    rw [hval _ (by omega), if_neg (by omega), if_neg (by omega)]
    omega
  · obtain rfl := Option.some.inj h
    refine ⟨by omega, Fin.ext ?_⟩
    rw [hval _ (by omega), if_neg (by omega), if_pos (by omega)]
    simp only [Fin.ofNat]
    omega

lemma bytesOfHex_cons {high low : Fin 65536} {s : JsString}
    (hs : ∀ u ∈ high :: low :: s, isHexUnit u = true) :
    ∃ h l, h < 16 ∧ l < 16 ∧ digitUnit h = lowerUnit high ∧ digitUnit l = lowerUnit low ∧
      bytesOfHex (high :: low :: s) = Fin.ofNat 256 (16 * h + l) :: bytesOfHex s := by
  obtain ⟨h, hh⟩ := Option.isSome_iff_exists.mp (hs high List.mem_cons_self)
  obtain ⟨l, hl⟩ := Option.isSome_iff_exists.mp (hs low (List.mem_cons_of_mem _ List.mem_cons_self))
  obtain ⟨hlt, hhigh⟩ := hexUnitValue_cases hh
  obtain ⟨llt, hlow⟩ := hexUnitValue_cases hl
  exact ⟨h, l, hlt, llt, hhigh, hlow, by simp only [bytesOfHex, hh, hl]⟩

lemma isHexUnit_of_tail {high low : Fin 65536} {s : JsString}
    (hs : ∀ u ∈ high :: low :: s, isHexUnit u = true) : ∀ u ∈ s, isHexUnit u = true :=
  fun u hu => hs u (List.mem_cons_of_mem _ (List.mem_cons_of_mem _ hu))

/-- Digits and letters are read as pairs, and written back in lower case. -/
lemma hexText_bytesOfHex : ∀ s : JsString, (∀ u ∈ s, isHexUnit u = true) → s.length % 2 = 0 →
    hexText (bytesOfHex s) = s.map lowerUnit
  | [], _, _ => rfl
  | [_], _, heven => absurd heven (by simp)
  | high :: low :: s, hs, heven => by
    obtain ⟨h, l, hlt, llt, hhigh, hlow, hbytes⟩ := bytesOfHex_cons hs
    have hrest := hexText_bytesOfHex s (isHexUnit_of_tail hs) (by simp at heven; omega)
    have hbyte : (Fin.ofNat 256 (16 * h + l)).val = 16 * h + l := Nat.mod_eq_of_lt (by omega)
    have hdiv : (16 * h + l) / 16 = h := by omega
    have hmod : (16 * h + l) % 16 = l := by omega
    rw [hbytes, hexText, List.flatMap_cons, ← hexText, hrest, hbyte, hdiv, hmod, hhigh, hlow]
    rfl

lemma length_bytesOfHex {s : JsString} (hs : ∀ u ∈ s, isHexUnit u = true)
    (heven : s.length % 2 = 0) : 2 * (bytesOfHex s).length = s.length := by
  rw [← length_hexText, hexText_bytesOfHex s hs heven, List.length_map]

end Hexadecimal

end StellarTags.Platform
