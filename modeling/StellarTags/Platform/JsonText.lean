import StellarTags.Platform.Unicode

/-! JSON texts: how values are written down, and how they are read back. -/

namespace StellarTags.Platform

def unit (c : Char) : Fin 65536 := Fin.ofNat _ c.toNat

def quoteMark : Fin 65536 := unit quotationMark
def comma : Fin 65536 := unit ','
def colon : Fin 65536 := unit ':'
def openBracket : Fin 65536 := unit '['
def closeBracket : Fin 65536 := unit ']'
def openBrace : Fin 65536 := unit (Char.ofNat 123)
def closeBrace : Fin 65536 := unit (Char.ofNat 125)

section Strings

def hexUnits (u : Fin 65536) : JsString :=
  [unit (hexDigit (u.val / 0x1000)), unit (hexDigit (u.val / 0x100 % 16)),
    unit (hexDigit (u.val / 16 % 16)), unit (hexDigit (u.val % 16))]

def shortEscape (u : Fin 65536) : Option (Fin 65536) :=
  if u.val = 34 ∨ u.val = 92 then some u
  else if u.val = 8 then some (unit 'b')
  else if u.val = 9 then some (unit 't')
  else if u.val = 10 then some (unit 'n')
  else if u.val = 12 then some (unit 'f')
  else if u.val = 13 then some (unit 'r')
  else none

def escapeUnit (u : Fin 65536) : JsString :=
  match shortEscape u with
  | some e => [unit backslash, e]
  | none =>
    if u.val < 32 ∨ isHigh u ∨ isLow u then unit backslash :: unit 'u' :: hexUnits u
    else [u]

/-- A surrogate is escaped unless it stands in a pair. -/
def escapeUnits : JsString → JsString
  | [] => []
  | [u] => escapeUnit u
  | u :: v :: rest =>
    if isHigh u ∧ isLow v then u :: v :: escapeUnits rest
    else escapeUnit u ++ escapeUnits (v :: rest)

def quoteUnits (s : JsString) : JsString := quoteMark :: (escapeUnits s ++ [quoteMark])

def hexUnitValue (u : Fin 65536) : Option ℕ :=
  if 48 ≤ u.val ∧ u.val ≤ 57 then some (u.val - 48)
  else if 97 ≤ u.val ∧ u.val ≤ 102 then some (u.val - 87)
  else if 65 ≤ u.val ∧ u.val ≤ 70 then some (u.val - 55)
  else none

def unescape (u : Fin 65536) : Option (Fin 65536) :=
  if u.val = 34 ∨ u.val = 92 ∨ u.val = 47 then some u
  else if u.val = 98 then some 8
  else if u.val = 116 then some 9
  else if u.val = 110 then some 10
  else if u.val = 102 then some 12
  else if u.val = 114 then some 13
  else none

/-- The next unit of a string, escaped or as it is. -/
def readUnit : JsString → Option (Fin 65536 × JsString)
  | [] => none
  | u :: rest =>
    if u.val = 92 then
      match rest with
      | [] => none
      | e :: rest =>
        if e.val = 117 then
          match rest with
          | a :: b :: c :: d :: rest => do
            let a ← hexUnitValue a
            let b ← hexUnitValue b
            let c ← hexUnitValue c
            let d ← hexUnitValue d
            some (Fin.ofNat _ (a * 0x1000 + b * 0x100 + c * 16 + d), rest)
          | _ => none
        else do
          let e ← unescape e
          some (e, rest)
    else if u.val < 32 then none
    else some (u, rest)

/-- A string up to its closing mark. -/
def readString : ℕ → JsString → Option (JsString × JsString)
  | 0, _ => none
  | _, [] => none
  | fuel + 1, u :: rest =>
    if u = quoteMark then some ([], rest)
    else do
      let (v, rest) ← readUnit (u :: rest)
      let (s, rest) ← readString fuel rest
      some (v :: s, rest)

def parseString (text : JsString) : Option (JsString × JsString) := readString text.length text

variable {u v : Fin 65536} {s t rest rest' : JsString}

lemma hexUnitValue_hexDigit {n : ℕ} (h : n < 16) : hexUnitValue (unit (hexDigit n)) = some n := by
  have hall : ∀ n < 16, hexUnitValue (unit (hexDigit n)) = some n := by decide
  exact hall n h

lemma unescape_shortEscape {e : Fin 65536} (h : shortEscape u = some e) :
    e.val ≠ 117 ∧ unescape e = some u := by
  rw [shortEscape] at h
  split_ifs at h with hself h8 h9 h10 h12 h13
  · obtain rfl := Option.some.inj h
    exact ⟨by omega, if_pos (by omega)⟩
  · obtain rfl : u = 8 := Fin.ext h8
    obtain rfl := Option.some.inj h
    decide
  · obtain rfl : u = 9 := Fin.ext h9
    obtain rfl := Option.some.inj h
    decide
  · obtain rfl : u = 10 := Fin.ext h10
    obtain rfl := Option.some.inj h
    decide
  · obtain rfl : u = 12 := Fin.ext h12
    obtain rfl := Option.some.inj h
    decide
  · obtain rfl : u = 13 := Fin.ext h13
    obtain rfl := Option.some.inj h
    decide

lemma readUnit_plain (hu : u.val ≠ 92) (hlow : 32 ≤ u.val) :
    readUnit (u :: rest) = some (u, rest) := by
  rw [readUnit.eq_def]
  dsimp only
  rw [if_neg hu, if_neg (by omega)]

lemma readUnit_short {e : Fin 65536} (h : shortEscape u = some e) :
    readUnit (unit backslash :: e :: rest) = some (u, rest) := by
  obtain ⟨hne, he⟩ := unescape_shortEscape h
  have hslash : (unit backslash).val = 92 := rfl
  simp [readUnit, hslash, hne, he]

lemma readUnit_hex (u : Fin 65536) (rest : JsString) :
    readUnit (unit backslash :: unit 'u' :: (hexUnits u ++ rest)) = some (u, rest) := by
  have hslash : (unit backslash).val = 92 := rfl
  have hletter : (unit 'u').val = 117 := rfl
  have ha := hexUnitValue_hexDigit (n := u.val / 0x1000) (by omega)
  have hb := hexUnitValue_hexDigit (n := u.val / 0x100 % 16) (by omega)
  have hc := hexUnitValue_hexDigit (n := u.val / 16 % 16) (by omega)
  have hd := hexUnitValue_hexDigit (n := u.val % 16) (by omega)
  have hsum : u.val / 0x1000 * 0x1000 + u.val / 0x100 % 16 * 0x100 + u.val / 16 % 16 * 16 +
      u.val % 16 = u.val := by omega
  simp only [hexUnits, List.cons_append, List.nil_append, readUnit, hslash, hletter, if_true, ha,
    hb, hc, hd, Option.bind_eq_bind, Option.bind_some, hsum, Fin.ofNat_val_eq_self]

/-- What is written for a unit is read as the unit, and is no closing mark. -/
lemma readUnit_escapeUnit (u : Fin 65536) (rest : JsString) :
    readUnit (escapeUnit u ++ rest) = some (u, rest) ∧
      ∃ v, (escapeUnit u).head? = some v ∧ v ≠ quoteMark := by
  have hne : unit backslash ≠ quoteMark := by decide
  rw [escapeUnit]
  cases hshort : shortEscape u with
  | some e => exact ⟨readUnit_short hshort, _, rfl, hne⟩
  | none =>
    rw [shortEscape] at hshort
    split_ifs at hshort with hself
    dsimp only
    split_ifs with hplain
    · exact ⟨readUnit_hex u rest, _, rfl, hne⟩
    · refine ⟨readUnit_plain (by omega) (by omega), u, rfl, ?_⟩
      rintro rfl
      exact hself (.inl rfl)

lemma readString_cons {fuel : ℕ} {text : JsString} (hread : readUnit text = some (u, rest))
    (hhead : ∃ v, text.head? = some v ∧ v ≠ quoteMark) :
    readString (fuel + 1) text = (readString fuel rest).map fun r => (u :: r.1, r.2) := by
  obtain ⟨v, hhead, hne⟩ := hhead
  obtain ⟨tail, rfl⟩ := List.head?_eq_some_iff.mp hhead
  rw [readString, if_neg hne, hread, Option.bind_eq_bind, Option.bind_some]
  cases h : readString fuel rest with
  | none => simp [h]
  | some r => simp [h]

lemma readString_plain {fuel : ℕ} (hu : 128 ≤ u.val) :
    readString (fuel + 1) (u :: rest) = (readString fuel rest).map fun r => (u :: r.1, r.2) := by
  refine readString_cons (readUnit_plain (by omega) (by omega)) ⟨u, rfl, ?_⟩
  rintro rfl
  exact absurd hu (by decide)

lemma readString_escapeUnit (fuel : ℕ) (u : Fin 65536) (rest : JsString) :
    readString (fuel + 1) (escapeUnit u ++ rest) =
      (readString fuel rest).map fun r => (u :: r.1, r.2) := by
  obtain ⟨hread, v, hhead, hne⟩ := readUnit_escapeUnit u rest
  refine readString_cons hread ⟨v, ?_, hne⟩
  rw [List.head?_append, hhead]
  rfl

/-- A string is read back as it was, and reading stops at its closing mark. -/
lemma readString_escapeUnits {fuel : ℕ} (hfuel : s.length < fuel) :
    readString fuel (escapeUnits s ++ quoteMark :: rest) = some (s, rest) := by
  fun_induction escapeUnits s generalizing fuel with
  | case1 =>
    obtain ⟨fuel, rfl⟩ := Nat.exists_eq_succ_of_ne_zero (Nat.ne_of_gt hfuel)
    simp [readString]
  | case2 u =>
    obtain ⟨fuel, rfl⟩ : ∃ n, fuel = n + 2 := ⟨fuel - 2, by simp at hfuel; omega⟩
    rw [readString_escapeUnit]
    simp [readString]
  | case3 u v tail hpair ih =>
    obtain ⟨fuel, rfl⟩ : ∃ n, fuel = n + 2 := ⟨fuel - 2, by simp at hfuel; omega⟩
    have hu := of_decide_eq_true hpair.1
    have hv := of_decide_eq_true hpair.2
    rw [List.cons_append, List.cons_append, readString_plain (by omega),
      readString_plain (by omega), ih (by simp at hfuel; omega)]
    rfl
  | case4 u v tail hpair ih =>
    obtain ⟨fuel, rfl⟩ := Nat.exists_eq_succ_of_ne_zero (Nat.ne_of_gt (Nat.zero_lt_of_lt hfuel))
    rw [List.append_assoc, Nat.succ_eq_add_one, readString_escapeUnit,
      ih (by simp at hfuel ⊢; omega)]
    rfl

lemma length_le_escapeUnits (s : JsString) : s.length ≤ (escapeUnits s).length := by
  have hunit : ∀ u : Fin 65536, 1 ≤ (escapeUnit u).length := by
    intro u
    obtain ⟨-, v, hhead, -⟩ := readUnit_escapeUnit u []
    obtain ⟨tail, htail⟩ := List.head?_eq_some_iff.mp hhead
    simp [htail]
  fun_induction escapeUnits s with
  | case1 => simp
  | case2 u => exact hunit u
  | case3 u v tail hpair ih => simpa using ih
  | case4 u v tail hpair ih =>
    rw [List.length_append]
    have hu := hunit u
    simp only [List.length_cons] at ih ⊢
    omega

lemma parseString_escapeUnits (s rest : JsString) :
    parseString (escapeUnits s ++ quoteMark :: rest) = some (s, rest) := by
  have hlength := length_le_escapeUnits s
  refine readString_escapeUnits ?_
  simp only [List.length_append, List.length_cons]
  omega

lemma charUnits_eq {c : Char} (h : c.toNat < 0x10000) : charUnits c = [unit c] := if_pos h

lemma charUnits_hexDigit {n : ℕ} (h : n < 16) : charUnits (hexDigit n) = [unit (hexDigit n)] := by
  have hall : ∀ n < 16, (hexDigit n).toNat < 0x10000 := by decide
  exact charUnits_eq (hall n h)

lemma escapeUnit_eq {c : Char} (hc : charUnits c = [u]) (hval : u.val = c.toNat)
    (hhigh : isHigh u = false) (hlow : isLow u = false) :
    escapeUnit u = (escape c).flatMap charUnits := by
  have hchar : ∀ d : Char, c = d ↔ u.val = d.toNat := by
    intro d
    rw [hval, ← Char.toNat_inj]
  have hslash : charUnits backslash = [unit backslash] := rfl
  rw [escapeUnit, shortEscape, escape]
  simp only [hchar, ← hval, hhigh, hlow, Bool.false_eq_true, or_false]
  have hq : quotationMark.toNat = 34 := rfl
  have hb : backslash.toNat = 92 := rfl
  rw [hq, hb]
  by_cases hself : u.val = 34 ∨ u.val = 92
  · rw [if_pos hself, if_pos hself]
    simp [hslash, hc]
  rw [if_neg hself, if_neg hself]
  by_cases h8 : u.val = 8
  · rw [if_pos h8, if_pos h8]
    rfl
  rw [if_neg h8, if_neg h8]
  by_cases h9 : u.val = 9
  · rw [if_pos h9, if_pos h9]
    rfl
  rw [if_neg h9, if_neg h9]
  by_cases h10 : u.val = 10
  · rw [if_pos h10, if_pos h10]
    rfl
  rw [if_neg h10, if_neg h10]
  by_cases h12 : u.val = 12
  · rw [if_pos h12, if_pos h12]
    rfl
  rw [if_neg h12, if_neg h12]
  by_cases h13 : u.val = 13
  · rw [if_pos h13, if_pos h13]
    rfl
  rw [if_neg h13, if_neg h13]
  dsimp only
  by_cases hcontrol : u.val < 32
  · have hzero : u.val / 0x1000 = 0 ∧ u.val / 0x100 % 16 = 0 ∧ u.val / 16 % 16 = u.val / 16 := by
      omega
    have hone := charUnits_hexDigit (n := u.val / 16) (by omega)
    have htwo := charUnits_hexDigit (n := u.val % 16) (by omega)
    rw [if_pos hcontrol, if_pos hcontrol]
    simp only [hexUnits, hzero, List.flatMap_cons, List.flatMap_nil, hone, htwo]
    rfl
  · rw [if_neg hcontrol, if_neg hcontrol]
    simp [hc]

lemma escapeUnits_cons_units (c : Char) (rest : JsString) :
    escapeUnits (charUnits c ++ rest) = (escape c).flatMap charUnits ++ escapeUnits rest := by
  by_cases h : c.toNat < 0x10000
  · obtain ⟨u, hu, hval, hhigh, hlow⟩ := charUnits_bmp h
    rw [← escapeUnit_eq hu hval hhigh hlow, hu, List.singleton_append]
    cases rest with
    | nil => simp [escapeUnits]
    | cons v rest => simp [escapeUnits, hhigh]
  · obtain ⟨u, v, huv, hhigh, hlow, -⟩ := charUnits_pair h
    have hescape : escape c = [c] := by
      have hne : ∀ d : Char, d.toNat < 0x10000 → c ≠ d := fun d hd hcd => h (hcd ▸ hd)
      rw [escape, if_neg (not_or.mpr ⟨hne _ (by decide), hne _ (by decide)⟩), if_neg (by omega),
        if_neg (by omega), if_neg (by omega), if_neg (by omega), if_neg (by omega),
        if_neg (by omega)]
    rw [hescape, List.flatMap_singleton, huv]
    simp [escapeUnits, hhigh, hlow]

/-- On the strings that are texts, the code units of the quoted text. -/
lemma quoteUnits_units (s : String) : quoteUnits (units s) = units (quote s) := by
  have hbody : escapeUnits (units s) = (s.toList.flatMap escape).flatMap charUnits := by
    rw [units]
    induction s.toList with
    | nil => rfl
    | cons c cs ih =>
      rw [List.flatMap_cons, List.flatMap_cons, List.flatMap_append, escapeUnits_cons_units, ih]
  rw [quoteUnits, hbody, units, quote, String.toList_ofList, List.flatMap_cons, List.flatMap_append]
  rfl

end Strings

end StellarTags.Platform
