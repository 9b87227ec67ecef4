import StellarTags.Platform.JsonText

/-! JSON values: what is written for them, and the parser that reads it. -/

namespace StellarTags.Platform

/-- A value, with the fields of an object in the order they came. -/
inductive JsValue (N : Type) : Type
  | null
  | bool (b : Bool)
  | number (n : N)
  | string (s : JsString)
  | array (values : List (JsValue N))
  | object (fields : List (JsString × JsValue N))

section Writing

variable {N : Type}

def join (parts : List JsString) : JsString := [comma].intercalate parts

mutual

def stringify (numeral : N → JsString) : JsValue N → JsString
  | .null => units "null"
  | .bool b => units (if b then "true" else "false")
  | .number n => numeral n
  | .string s => quoteUnits s
  | .array values => openBracket :: (join (stringifyValues numeral values) ++ [closeBracket])
  | .object fields => openBrace :: (join (stringifyFields numeral fields) ++ [closeBrace])

def stringifyValues (numeral : N → JsString) : List (JsValue N) → List JsString
  | [] => []
  | value :: values => stringify numeral value :: stringifyValues numeral values

def stringifyFields (numeral : N → JsString) : List (JsString × JsValue N) → List JsString
  | [] => []
  | (key, value) :: fields =>
    (quoteUnits key ++ colon :: stringify numeral value) :: stringifyFields numeral fields

end

end Writing

section Reading

def isBlank (u : Fin 65536) : Bool := u.val = 32 ∨ u.val = 9 ∨ u.val = 10 ∨ u.val = 13

def skipBlanks (text : JsString) : JsString := text.dropWhile isBlank

def isDigitUnit (u : Fin 65536) : Bool := 48 ≤ u.val ∧ u.val ≤ 57

def isExponent (text : JsString) : Bool :=
  match text with
  | [] => true
  | e :: rest =>
    if e = unit 'e' ∨ e = unit 'E' then
      let digits := match rest with
        | sign :: digits => if sign = unit '+' ∨ sign = unit '-' then digits else rest
        | [] => []
      digits ≠ [] ∧ digits.all isDigitUnit
    else false

def isFraction (text : JsString) : Bool :=
  match text with
  | point :: rest =>
    if point = unit '.' then
      (rest.takeWhile isDigitUnit ≠ []) ∧ isExponent (rest.dropWhile isDigitUnit)
    else isExponent text
  | [] => true

def isUnsigned (text : JsString) : Bool :=
  match text with
  | [] => false
  | d :: rest =>
    if d = unit '0' then isFraction rest
    else isDigitUnit d ∧ isFraction (rest.dropWhile isDigitUnit)

def isNumeralUnit (u : Fin 65536) : Bool :=
  isDigitUnit u ∨ u = unit '-' ∨ u = unit '+' ∨ u = unit '.' ∨ u = unit 'e' ∨ u = unit 'E'

/-- The text of a number: a sign, digits without a leading zero, a fraction and an exponent. -/
def isNumeral (text : JsString) : Bool :=
  text.all isNumeralUnit &&
    match text with
    | sign :: rest => if sign = unit '-' then isUnsigned rest else isUnsigned text
    | [] => false

variable {N : Type}

def parseNumber (numberOf : JsString → N) (text : JsString) : Option (JsValue N × JsString) :=
  let token := text.takeWhile isNumeralUnit
  if isNumeral token then some (.number (numberOf token), text.dropWhile isNumeralUnit) else none

def parseWord (word : JsString) (value : JsValue N) (text : JsString) :
    Option (JsValue N × JsString) :=
  if word.isPrefixOf text then some (value, text.drop word.length) else none

def parseScalar (numberOf : JsString → N) (text : JsString) : Option (JsValue N × JsString) :=
  match text with
  | [] => none
  | u :: _ =>
    if u = unit 'n' then parseWord (units "null") .null text
    else if u = unit 't' then parseWord (units "true") (.bool true) text
    else if u = unit 'f' then parseWord (units "false") (.bool false) text
    else parseNumber numberOf text

/-- A key that comes again replaces the value it had. -/
def setField (fields : List (JsString × JsValue N)) (field : JsString × JsValue N) :
    List (JsString × JsValue N) :=
  if field.1 ∈ fields.map Prod.fst then fields.map fun f => if f.1 = field.1 then field else f
  else fields ++ [field]

mutual

def parseValue (numberOf : JsString → N) : ℕ → JsString → Option (JsValue N × JsString)
  | 0, _ => none
  | fuel + 1, text =>
    match skipBlanks text with
    | [] => none
    | u :: rest =>
      if u = quoteMark then (parseString rest).map fun r => (.string r.1, r.2)
      else if u = openBracket then
        match skipBlanks rest with
        | [] => none
        | v :: tail =>
          if v = closeBracket then some (.array [], tail)
          else (parseItems numberOf fuel (v :: tail)).map fun r => (.array r.1, r.2)
      else if u = openBrace then
        match skipBlanks rest with
        | [] => none
        | v :: tail =>
          if v = closeBrace then some (.object [], tail)
          else (parseFields numberOf fuel (v :: tail)).map fun r =>
            (.object (r.1.foldl setField []), r.2)
      else parseScalar numberOf (u :: rest)

def parseItems (numberOf : JsString → N) : ℕ → JsString → Option (List (JsValue N) × JsString)
  | 0, _ => none
  | fuel + 1, text =>
    (parseValue numberOf fuel text).bind fun r =>
      match skipBlanks r.2 with
      | [] => none
      | u :: tail =>
        if u = comma then (parseItems numberOf fuel tail).map fun q => (r.1 :: q.1, q.2)
        else if u = closeBracket then some ([r.1], tail)
        else none

def parseFields (numberOf : JsString → N) :
    ℕ → JsString → Option (List (JsString × JsValue N) × JsString)
  | 0, _ => none
  | fuel + 1, text =>
    match skipBlanks text with
    | [] => none
    | q :: tail =>
      if q = quoteMark then
        (parseString tail).bind fun k =>
          match skipBlanks k.2 with
          | [] => none
          | c :: tail =>
            if c = colon then
              (parseValue numberOf fuel tail).bind fun r =>
                match skipBlanks r.2 with
                | [] => none
                | u :: tail =>
                  if u = comma then
                    (parseFields numberOf fuel tail).map fun q => ((k.1, r.1) :: q.1, q.2)
                  else if u = closeBrace then some ([(k.1, r.1)], tail)
                  else none
            else none
      else none

end

/-- Every step down reads a unit or goes to the first of several parts. -/
def parseJson (numberOf : JsString → N) (text : JsString) : Option (JsValue N) :=
  (parseValue numberOf (2 * text.length + 2) text).bind fun r =>
    if skipBlanks r.2 = [] then some r.1 else none

end Reading

section RoundTrip

variable {N : Type} {numeral : N → JsString} {numberOf : JsString → N} {rest : JsString}
  {u : Fin 65536} {fuel : ℕ}

mutual

/-- No object has a key twice, at any depth. -/
def JsValue.Distinct : JsValue N → Prop
  | .array values => ValuesDistinct values
  | .object fields => (fields.map Prod.fst).Nodup ∧ FieldsDistinct fields
  | _ => True

def ValuesDistinct : List (JsValue N) → Prop
  | [] => True
  | value :: values => value.Distinct ∧ ValuesDistinct values

def FieldsDistinct : List (JsString × JsValue N) → Prop
  | [] => True
  | (_, value) :: fields => value.Distinct ∧ FieldsDistinct fields

end

mutual

def JsValue.weight : JsValue N → ℕ
  | .array values => 1 + valuesWeight values
  | .object fields => 1 + fieldsWeight fields
  | _ => 1

def valuesWeight : List (JsValue N) → ℕ
  | [] => 0
  | value :: values => 1 + value.weight + valuesWeight values

def fieldsWeight : List (JsString × JsValue N) → ℕ
  | [] => 0
  | (_, value) :: fields => 1 + value.weight + fieldsWeight fields

end

/-- What comes next does not go on with a number. -/
def Ends (rest : JsString) : Prop := ∀ u ∈ rest.head?, isNumeralUnit u = false

lemma skipBlanks_cons (h : isBlank u = false) : skipBlanks (u :: rest) = u :: rest := by
  simp [skipBlanks, h]

lemma parseWord_self (word : JsString) (value : JsValue N) (rest : JsString) :
    parseWord word value (word ++ rest) = some (value, rest) := by
  simp [parseWord]

lemma all_of_isNumeral {t : JsString} (h : isNumeral t = true) : ∀ u ∈ t, isNumeralUnit u = true := by
  rw [isNumeral.eq_def, Bool.and_eq_true] at h
  exact List.all_eq_true.mp h.1

lemma parseNumber_append {t : JsString} (ht : isNumeral t = true) (hr : Ends rest) :
    parseNumber numberOf (t ++ rest) = some (.number (numberOf t), rest) := by
  have hall := all_of_isNumeral ht
  have hnone : rest.takeWhile isNumeralUnit = [] ∧ rest.dropWhile isNumeralUnit = rest := by
    cases rest with
    | nil => exact ⟨rfl, rfl⟩
    | cons u rest =>
      have hu := hr u rfl
      simp [hu]
  have htake : (t ++ rest).takeWhile isNumeralUnit = t := by
    rw [List.takeWhile_append_of_pos hall, hnone.1, List.append_nil]
  have hdrop : (t ++ rest).dropWhile isNumeralUnit = rest := by
    rw [List.dropWhile_append_of_pos hall, hnone.2]
  simp only [parseNumber, htake, hdrop, ht, if_true]

lemma foldl_setField {done fields : List (JsString × JsValue N)}
    (h : ((done ++ fields).map Prod.fst).Nodup) : fields.foldl setField done = done ++ fields := by
  induction fields generalizing done with
  | nil => simp
  | cons field fields ih =>
    have hnew : field.1 ∉ done.map Prod.fst := by
      rw [List.map_append, List.map_cons, List.nodup_append] at h
      intro hmem
      exact h.2.2 _ hmem _ List.mem_cons_self rfl
    rw [List.foldl_cons, setField, if_neg hnew, ih (by simpa using h), List.append_assoc,
      List.singleton_append]

/-- A unit that begins a number begins nothing else. -/
lemma isNumeralUnit_ne {v : Fin 65536} (hu : isNumeralUnit u = true) (hv : isNumeralUnit v = false) :
    u ≠ v := by
  rintro rfl
  rw [hu] at hv
  exact Bool.noConfusion hv

lemma isBlank_of_isNumeralUnit (h : isNumeralUnit u = true) : isBlank u = false := by
  have hnone : ∀ v : Fin 65536, isBlank v = true → isNumeralUnit v = false := by
    intro v hv
    rcases of_decide_eq_true hv with hv | hv | hv | hv
    · obtain rfl : v = 32 := Fin.ext hv
      decide
    · obtain rfl : v = 9 := Fin.ext hv
      decide
    · obtain rfl : v = 10 := Fin.ext hv
      decide
    · obtain rfl : v = 13 := Fin.ext hv
      decide
  cases hb : isBlank u with
  | false => rfl
  | true => exact absurd rfl (isNumeralUnit_ne h (hnone u hb))

lemma isNumeral_ne_nil {t : JsString} (h : isNumeral t = true) : t ≠ [] := by
  rintro rfl
  exact Bool.noConfusion h

/-- What is written for a value begins with a unit that is no blank and closes nothing. -/
lemma stringify_head (hn : ∀ n, isNumeral (numeral n) = true) (value : JsValue N) :
    ∃ u tail, stringify numeral value = u :: tail ∧ isBlank u = false ∧ u ≠ closeBracket := by
  cases value with
  | null => exact ⟨unit 'n', _, rfl, by decide, by decide⟩
  | bool b =>
    cases b with
    | true => exact ⟨unit 't', _, rfl, by decide, by decide⟩
    | false => exact ⟨unit 'f', _, rfl, by decide, by decide⟩
  | number n =>
    obtain ⟨u, tail, ht⟩ := List.exists_cons_of_ne_nil (isNumeral_ne_nil (hn n))
    have hu : isNumeralUnit u = true := all_of_isNumeral (hn n) u (by simp [ht])
    exact ⟨u, tail, by rw [stringify, ht], isBlank_of_isNumeralUnit hu,
      isNumeralUnit_ne hu (by decide)⟩
  | string s => exact ⟨quoteMark, _, by rw [stringify, quoteUnits], by decide, by decide⟩
  | array values => exact ⟨openBracket, _, by rw [stringify], by decide, by decide⟩
  | object fields => exact ⟨openBrace, _, by rw [stringify], by decide, by decide⟩

lemma join_cons_cons (a b : JsString) (parts : List JsString) :
    join (a :: b :: parts) = a ++ comma :: join (b :: parts) := by
  simp [join, List.intercalate, List.intersperse]

lemma join_singleton (a : JsString) : join [a] = a := by
  simp [join, List.intercalate, List.intersperse]

lemma join_stringifyValues_head (hn : ∀ n, isNumeral (numeral n) = true) (value : JsValue N)
    (values : List (JsValue N)) : ∃ u tail,
      join (stringifyValues numeral (value :: values)) = u :: tail ∧ isBlank u = false ∧
        u ≠ closeBracket := by
  obtain ⟨u, tail, htext, hblank, hne⟩ := stringify_head hn value
  cases values with
  | nil => exact ⟨u, tail, by rw [stringifyValues, stringifyValues, join_singleton, htext], hblank, hne⟩
  | cons w values =>
    exact ⟨u, _, by rw [stringifyValues, stringifyValues, join_cons_cons, htext, List.cons_append],
      hblank, hne⟩

lemma join_stringifyFields_head (numeral : N → JsString) (field : JsString × JsValue N)
    (fields : List (JsString × JsValue N)) : ∃ tail,
      join (stringifyFields numeral (field :: fields)) = quoteMark :: tail := by
  obtain ⟨key, value⟩ := field
  cases fields with
  | nil => exact ⟨_, by rw [stringifyFields, stringifyFields, join_singleton, quoteUnits, List.cons_append]⟩
  | cons g fields =>
    obtain ⟨key', value'⟩ := g
    exact ⟨_, by rw [stringifyFields, stringifyFields, join_cons_cons, quoteUnits, List.cons_append,
      List.cons_append]⟩

lemma parseValue_scalar (hb : isBlank u = false) (hu : u ≠ quoteMark ∧ u ≠ openBracket ∧ u ≠ openBrace) :
    parseValue numberOf (fuel + 1) (u :: rest) = parseScalar numberOf (u :: rest) := by
  rw [parseValue, skipBlanks_cons hb]
  dsimp only
  rw [if_neg hu.1, if_neg hu.2.1, if_neg hu.2.2]

lemma parseValue_string (s : JsString) :
    parseValue numberOf (fuel + 1) (quoteUnits s ++ rest) = some (.string s, rest) := by
  rw [parseValue, quoteUnits, List.cons_append, skipBlanks_cons (by decide)]
  dsimp only
  rw [if_pos rfl, List.append_assoc, List.singleton_append, parseString_escapeUnits]
  rfl

lemma parseValue_number {t : JsString} (ht : isNumeral t = true) (hr : Ends rest) :
    parseValue numberOf (fuel + 1) (t ++ rest) = some (.number (numberOf t), rest) := by
  have hparse : parseNumber numberOf (t ++ rest) = some (.number (numberOf t), rest) :=
    parseNumber_append ht hr
  obtain ⟨u, tail, rfl⟩ := List.exists_cons_of_ne_nil (isNumeral_ne_nil ht)
  have hu : isNumeralUnit u = true := all_of_isNumeral ht u List.mem_cons_self
  rw [List.cons_append] at hparse ⊢
  rw [parseValue_scalar (isBlank_of_isNumeralUnit hu) ⟨isNumeralUnit_ne hu (by decide),
    isNumeralUnit_ne hu (by decide), isNumeralUnit_ne hu (by decide)⟩, parseScalar,
    if_neg (isNumeralUnit_ne hu (by decide)), if_neg (isNumeralUnit_ne hu (by decide)),
    if_neg (isNumeralUnit_ne hu (by decide)), hparse]

lemma parseValue_word {value : JsValue N} (h : value = .null ∨ ∃ b, value = .bool b) :
    parseValue numberOf (fuel + 1) (stringify numeral value ++ rest) = some (value, rest) := by
  rcases h with rfl | ⟨_ | _, rfl⟩
  · refine (parseValue_scalar (u := unit 'n') (by decide) (by decide)).trans ?_
    rw [parseScalar, if_pos rfl]
    exact parseWord_self (units "null") .null rest
  · refine (parseValue_scalar (u := unit 'f') (by decide) (by decide)).trans ?_
    rw [parseScalar, if_neg (by decide), if_neg (by decide), if_pos rfl]
    exact parseWord_self (units "false") (.bool false) rest
  · refine (parseValue_scalar (u := unit 't') (by decide) (by decide)).trans ?_
    rw [parseScalar, if_neg (by decide), if_pos rfl]
    exact parseWord_self (units "true") (.bool true) rest

lemma parseFields_key (key text : JsString) :
    parseFields numberOf (fuel + 1) ((quoteUnits key ++ colon :: text) ++ rest) =
      (parseValue numberOf fuel (text ++ rest)).bind fun r =>
        match skipBlanks r.2 with
        | [] => none
        | u :: tail =>
          if u = comma then
            (parseFields numberOf fuel tail).map fun q => ((key, r.1) :: q.1, q.2)
          else if u = closeBrace then some ([(key, r.1)], tail)
          else none := by
  rw [parseFields, quoteUnits, List.append_assoc, List.cons_append, skipBlanks_cons (by decide)]
  dsimp only
  rw [if_pos rfl, List.append_assoc, List.singleton_append, parseString_escapeUnits,
    Option.bind_some]
  dsimp only
  rw [List.cons_append, skipBlanks_cons (by decide)]
  rfl

lemma ends_cons (h : isNumeralUnit u = false) : Ends (u :: rest) := by
  intro v hv
  obtain rfl := Option.some.inj hv
  exact h

mutual

/-- A value is read back as it was, whatever ends it. -/
lemma parseValue_stringify (hn : ∀ n, isNumeral (numeral n) = true)
    (hl : ∀ n, numberOf (numeral n) = n) (value : JsValue N) (hd : value.Distinct) {fuel : ℕ}
    {rest : JsString} (hf : value.weight ≤ fuel) (hr : Ends rest) :
    parseValue numberOf fuel (stringify numeral value ++ rest) = some (value, rest) := by
  obtain ⟨fuel, rfl⟩ : ∃ n, fuel = n + 1 := by
    refine ⟨fuel - 1, ?_⟩
    cases value <;> simp only [JsValue.weight] at hf <;> omega
  match value with
  | .null => exact parseValue_word (.inl rfl)
  | .bool b => exact parseValue_word (.inr ⟨b, rfl⟩)
  | .number n =>
    rw [stringify, parseValue_number (hn n) hr, hl n]
  | .string s => exact parseValue_string s
  | .array [] =>
    rw [stringify, stringifyValues, parseValue, List.cons_append, skipBlanks_cons (by decide)]
    rfl
  | .array (v :: values) =>
    obtain ⟨u, tail, htext, hblank, hne⟩ := join_stringifyValues_head hn v values
    have hweight : valuesWeight (v :: values) ≤ fuel := by
      rw [JsValue.weight] at hf
      omega
    have hitems := parseItems_join hn hl v values hd rest hweight
    rw [htext, List.cons_append] at hitems
    rw [stringify, htext, parseValue, List.cons_append, skipBlanks_cons (by decide)]
    dsimp only
    rw [if_neg (by decide), if_pos rfl, List.append_assoc, List.singleton_append, List.cons_append,
      skipBlanks_cons hblank]
    dsimp only
    rw [if_neg hne, hitems]
    rfl
  | .object [] =>
    rw [stringify, stringifyFields, parseValue, List.cons_append, skipBlanks_cons (by decide)]
    rfl
  | .object (field :: fields) =>
    obtain ⟨tail, htext⟩ := join_stringifyFields_head numeral field fields
    have hweight : fieldsWeight (field :: fields) ≤ fuel := by
      rw [JsValue.weight] at hf
      omega
    have hfields := parseFields_join hn hl field fields hd.2 rest hweight
    rw [htext, List.cons_append] at hfields
    rw [stringify, htext, parseValue, List.cons_append, skipBlanks_cons (by decide)]
    dsimp only
    rw [if_neg (by decide), if_neg (by decide), if_pos rfl, List.append_assoc,
      List.singleton_append, List.cons_append, skipBlanks_cons (by decide)]
    dsimp only
    rw [if_neg (by decide), hfields, Option.map_some, foldl_setField (by simpa using hd.1)]
    rfl
termination_by fuel

lemma parseItems_join (hn : ∀ n, isNumeral (numeral n) = true)
    (hl : ∀ n, numberOf (numeral n) = n) (value : JsValue N) (values : List (JsValue N))
    (hd : ValuesDistinct (value :: values)) {fuel : ℕ} (rest : JsString)
    (hf : valuesWeight (value :: values) ≤ fuel) :
    parseItems numberOf fuel (join (stringifyValues numeral (value :: values)) ++ closeBracket :: rest) =
      some (value :: values, rest) := by
  obtain ⟨fuel, rfl⟩ : ∃ n, fuel = n + 1 := by
    refine ⟨fuel - 1, ?_⟩
    simp only [valuesWeight] at hf
    omega
  rw [valuesWeight] at hf
  match values with
  | [] =>
    rw [stringifyValues, stringifyValues, join_singleton, parseItems,
      parseValue_stringify hn hl value hd.1 (by omega) (ends_cons (by decide)), Option.bind_some]
    dsimp only
    rw [skipBlanks_cons (by decide)]
    rfl
  | w :: values =>
    rw [stringifyValues, stringifyValues, join_cons_cons, List.append_assoc, List.cons_append,
      parseItems, parseValue_stringify hn hl value hd.1 (by omega) (ends_cons (by decide)),
      Option.bind_some, ← stringifyValues]
    dsimp only
    rw [skipBlanks_cons (by decide)]
    dsimp only
    rw [if_pos rfl, parseItems_join hn hl w values hd.2 _ (by omega)]
    rfl
termination_by fuel

lemma parseFields_join (hn : ∀ n, isNumeral (numeral n) = true)
    (hl : ∀ n, numberOf (numeral n) = n) (field : JsString × JsValue N)
    (fields : List (JsString × JsValue N)) (hd : FieldsDistinct (field :: fields)) {fuel : ℕ}
    (rest : JsString) (hf : fieldsWeight (field :: fields) ≤ fuel) :
    parseFields numberOf fuel
        (join (stringifyFields numeral (field :: fields)) ++ closeBrace :: rest) =
      some (field :: fields, rest) := by
  obtain ⟨key, value⟩ := field
  obtain ⟨fuel, rfl⟩ : ∃ n, fuel = n + 1 := by
    refine ⟨fuel - 1, ?_⟩
    simp only [fieldsWeight] at hf
    omega
  rw [fieldsWeight] at hf
  match fields with
  | [] =>
    rw [stringifyFields, stringifyFields, join_singleton, parseFields_key,
      parseValue_stringify hn hl value hd.1 (by omega) (ends_cons (by decide)), Option.bind_some]
    dsimp only
    rw [skipBlanks_cons (by decide)]
    rfl
  | (key', value') :: fields =>
    rw [stringifyFields, stringifyFields, join_cons_cons, List.append_assoc, List.cons_append,
      parseFields_key, parseValue_stringify hn hl value hd.1 (by omega) (ends_cons (by decide)),
      Option.bind_some, ← stringifyFields]
    dsimp only
    rw [skipBlanks_cons (by decide)]
    dsimp only
    rw [if_pos rfl, parseFields_join hn hl (key', value') fields hd.2 _ (by omega)]
    rfl
termination_by fuel

end

mutual

/-- A text has a unit for every value in it and one between any two. -/
lemma weight_le (hn : ∀ n, isNumeral (numeral n) = true) (value : JsValue N) :
    value.weight + 1 ≤ 2 * (stringify numeral value).length := by
  obtain ⟨u, tail, htext, -, -⟩ := stringify_head hn value
  match value with
  | .null | .bool _ | .number _ | .string _ =>
    simp only [htext, JsValue.weight, List.length_cons]
    omega
  | .array values =>
    have hvalues := valuesWeight_le hn values
    rw [stringify, JsValue.weight, List.length_cons, List.length_append, List.length_singleton]
    omega
  | .object fields =>
    have hfields := fieldsWeight_le hn fields
    rw [stringify, JsValue.weight, List.length_cons, List.length_append, List.length_singleton]
    omega

lemma valuesWeight_le (hn : ∀ n, isNumeral (numeral n) = true) (values : List (JsValue N)) :
    valuesWeight values ≤ 2 * (join (stringifyValues numeral values)).length := by
  match values with
  | [] => exact Nat.zero_le _
  | [value] =>
    have hvalue := weight_le hn value
    rw [stringifyValues, stringifyValues, join_singleton, valuesWeight, valuesWeight]
    omega
  | value :: w :: values =>
    have hvalue := weight_le hn value
    have hvalues := valuesWeight_le hn (w :: values)
    rw [stringifyValues] at hvalues ⊢
    rw [stringifyValues, join_cons_cons, valuesWeight, List.length_append, List.length_cons]
    omega

lemma fieldsWeight_le (hn : ∀ n, isNumeral (numeral n) = true)
    (fields : List (JsString × JsValue N)) :
    fieldsWeight fields ≤ 2 * (join (stringifyFields numeral fields)).length := by
  match fields with
  | [] => exact Nat.zero_le _
  | [(key, value)] =>
    have hvalue := weight_le hn value
    rw [stringifyFields, stringifyFields, join_singleton, fieldsWeight, fieldsWeight,
      List.length_append, List.length_cons]
    omega
  | (key, value) :: (key', value') :: fields =>
    have hvalue := weight_le hn value
    have hfields := fieldsWeight_le hn ((key', value') :: fields)
    rw [stringifyFields] at hfields ⊢
    rw [stringifyFields, join_cons_cons, fieldsWeight, List.length_append, List.length_append,
      List.length_cons, List.length_cons]
    omega

end

/-- JSON.parse undoes JSON.stringify. -/
lemma parseJson_stringify (hn : ∀ n, isNumeral (numeral n) = true)
    (hl : ∀ n, numberOf (numeral n) = n) {value : JsValue N} (hd : value.Distinct) :
    parseJson numberOf (stringify numeral value) = some value := by
  have hweight : value.weight ≤ 2 * (stringify numeral value).length + 2 := by
    have h := weight_le hn value
    omega
  have hends : Ends [] := by simp [Ends]
  have hvalue := parseValue_stringify hn hl value hd hweight hends
  rw [List.append_nil] at hvalue
  rw [parseJson, hvalue]
  rfl

end RoundTrip

end StellarTags.Platform
