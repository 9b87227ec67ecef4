import StellarTags.Routing.RulesEngine

/-! The evaluation of conditions with every operation that the language may refuse, and that none is
refused but for the depth. -/

namespace StellarTags.Routing

open Platform

inductive Thrown
  /-- A property of nothing is read, or a method is called that the value does not have. -/
  | typeError (what : String)
  /-- A pattern is malformed. -/
  | syntaxError
  | error (message : String)
  deriving DecidableEq, Repr

/-- What `typeof` tells. -/
inductive Kind
  | undefined
  | boolean
  | number
  | string
  | object
  | function
  deriving DecidableEq, Repr

namespace Value

def typeof : Value → Kind
  | .undefined => .undefined
  | .function => .function
  | .json .null | .json (.array _) | .json (.object _) => .object
  | .json (.bool _) => .boolean
  | .json (.number _) => .number
  | .json (.string _) => .string

def isNullish : Value → Bool
  | .undefined | .json .null => true
  | _ => false

def isArray : Value → Bool
  | .json (.array _) => true
  | _ => false

/-- A string's methods are called on it. -/
def asString : Value → Except Thrown String
  | .json (.string s) => .ok s
  | _ => .error (.typeError "not a string")

def asArray : Value → Except Thrown (List Json)
  | .json (.array values) => .ok values
  | _ => .error (.typeError "not an array")

def truthy (host : Host) : Value → Bool
  | .undefined => false
  | .function => true
  | .json value => Routing.truthy host (some value)

end Value

/-- The conditions in an array. -/
def childrenOf (value : Option Json) : Option (List Json) :=
  match value with
  | some (.array children) => some children
  | _ => none

lemma childrenOf_eq_none {value : Option Json}
    (h : ∀ children, value = some (.array children) → False) : childrenOf value = none := by
  unfold childrenOf
  split
  · exact (h _ rfl).elim
  · rfl

lemma evaluateNode_object (host : Host) (context : Json) (levels : ℕ) (node : List (String × Json)) :
    evaluateNode host context (levels + 1) (.object node) =
      match childrenOf (field "and" node) with
      | some children => everyNode (evaluateNode host context levels) children
      | none =>
        match childrenOf (field "or" node) with
        | some children => someNode (evaluateNode host context levels) children
        | none =>
          if truthy host (field "not" node) then do
            return !(← evaluateNode host context levels ((field "not" node).getD .null))
          else .ok (evaluateAtom host node context) := by
  rw [evaluateNode]
  split
  · rename_i children hand
    rw [hand]
    rfl
  · rename_i children hor hand
    rw [childrenOf_eq_none hand, hor]
    rfl
  · rename_i hand hor
    rw [childrenOf_eq_none hand, childrenOf_eq_none hor]
    cases field "not" node <;> rfl

namespace Raising

variable (host : Host)

/-- A function's own properties are not looked into: none is ever read. -/
def get (name : String) (value : Value) : Except Thrown Value :=
  match value with
  | .undefined | .json .null => .error (.typeError ("cannot read " ++ name))
  | .function => .ok .undefined
  | .json value => .ok (property host name value)

def safeGetParts : List String → Value → Except Thrown Value
  | [], current => .ok current
  | part :: parts, current =>
    if current.isNullish then .ok .undefined
    else
      let cleanPart := trim part
      if cleanPart ∈ forbiddenProperties then .ok .undefined
      else if current.typeof ≠ .object then .ok .undefined
      else do
        let next ← get host cleanPart current
        safeGetParts parts next

def safeGet (target path : Value) : Except Thrown Value :=
  if target.isNullish ∨ path.typeof ≠ .string then .ok .undefined
  else do
    let path ← path.asString
    safeGetParts host ((path.toList.splitOn '.').map String.ofList) target

def normalizeComparable (value : Value) : Except Thrown Comparable :=
  if value.typeof = .string then do
    let s ← value.asString
    let trimmed := trim s
    .ok (if trimmed ≠ "" ∧ host.isNumber trimmed then .number (host.parseFloat trimmed) else .text s)
  else .ok (Routing.normalizeComparable host value)

def someItem (test : Json → Except Thrown Bool) : List Json → Except Thrown Bool
  | [] => .ok false
  | item :: items => do
    if ← test item then return true else someItem test items

def everyItem (test : Json → Except Thrown Bool) : List Json → Except Thrown Bool
  | [] => .ok true
  | item :: items => do
    if ← test item then everyItem test items else return false

/-- Whether the item is among the values of an array. -/
def among (item : Comparable) (values : Value) : Except Thrown Bool := do
  let values ← values.asArray
  someItem (fun value => do return sameValue (← normalizeComparable host (.json value)) item) values

def strings (a b : Value) (test : List Char → List Char → Bool) : Except Thrown Bool := do
  let s ← a.asString
  let t ← b.asString
  return test s.toList t.toList

def bothStrings (a b : Value) : Bool := decide (a.typeof = .string ∧ b.typeof = .string)

def regExpTest (pattern s : String) : Except Thrown Bool :=
  match host.regex pattern s with
  | some found => .ok found
  | none => .error .syntaxError

def compareValues (op actual expected : Value) : Except Thrown Bool := do
  let normActual ← normalizeComparable host actual
  let normExpected ← normalizeComparable host expected
  let op ← op.asString
  match String.ofList (op.toList.map Char.toLower) with
  | "eq" | "==" => return sameValue normActual normExpected
  | "neq" | "!=" => return !sameValue normActual normExpected
  | "gt" | ">" => return ordered normActual normExpected fun m n => decide (n < m)
  | "gte" | ">=" => return ordered normActual normExpected fun m n => decide (n ≤ m)
  | "lt" | "<" => return ordered normActual normExpected fun m n => decide (m < n)
  | "lte" | "<=" => return ordered normActual normExpected fun m n => decide (m ≤ n)
  | "in" => if expected.isArray then among host normActual expected else return false
  | "not_in" => if expected.isArray then return !(← among host normActual expected) else return true
  | "contains" =>
    if bothStrings actual expected then strings actual expected fun s t => decide (t <:+: s)
    else if actual.isArray then among host normExpected actual
    else return false
  | "startswith" =>
    if bothStrings actual expected then strings actual expected fun s t => decide (t <+: s)
    else return false
  | "endswith" =>
    if bothStrings actual expected then strings actual expected fun s t => decide (t <:+ s)
    else return false
  | "exists" =>
    return if expected.truthy host then !actual.isNullish else actual.isNullish
  | "regex" =>
    if actual.typeof ≠ .string ∨ expected.typeof ≠ .string then return false
    else do
      let s ← actual.asString
      let pattern ← expected.asString
      if maxRegexInputLength < (codeUnits s).length ∨ 100 < (codeUnits pattern).length then
        return false
      else tryCatch (regExpTest host pattern s) fun _ => return false
  | _ => return false

def evaluateAtom (node : List (String × Json)) (context : Value) : Except Thrown Bool :=
  let fieldPath := (either host "field" "path" node).elim .undefined .json
  let operator := (either host "operator" "op" node).elim .undefined .json
  let expectedValue := if (field "value" node).isSome then field "value" node else field "val" node
  if fieldPath.typeof ≠ .string ∨ operator.typeof ≠ .string then return false
  else do
    let actualValue ← safeGet host context fieldPath
    compareValues host operator actualValue (expectedValue.elim .undefined .json)

def depthExceeded : String :=
  "Rules engine maximum recursion depth of " ++ toString maxRecursionDepth ++ " exceeded"

/-- With the levels that are left before the depth is exceeded. -/
def evaluateNode (context : Value) : ℕ → Json → Except Thrown Bool
  | 0, _ => .error (.error depthExceeded)
  | levels + 1, .object node =>
    match childrenOf (field "and" node) with
    | some children => everyItem (evaluateNode context levels) children
    | none =>
      match childrenOf (field "or" node) with
      | some children => someItem (evaluateNode context levels) children
      | none =>
        if truthy host (field "not" node) then do
          return !(← evaluateNode context levels ((field "not" node).getD .null))
        else evaluateAtom host node context
  | _ + 1, _ => return false

section Agreement

variable {host} {value actual expected : Value} {item : Comparable} {test : List Char → List Char → Bool}

lemma safeGetParts_eq (parts : List String) (value : Value) :
    safeGetParts host parts value = .ok (Routing.safeGetParts host parts value) := by
  induction parts generalizing value with
  | nil => cases value <;> rfl
  | cons part parts ih =>
    have hnothing : Routing.safeGetParts host parts .undefined = .undefined := by
      cases parts <;> rfl
    cases value with
    | undefined => rfl
    | function =>
      simp [safeGetParts, Value.isNullish, Value.typeof, Routing.safeGetParts]
    | json current =>
      rw [safeGetParts, Routing.safeGetParts]
      by_cases hforbidden : trim part ∈ forbiddenProperties
      · cases current <;> simp [Value.isNullish, hforbidden]
      · cases current with
        | array values =>
          simp [Value.isNullish, Value.typeof, hforbidden, get, bind, Except.bind, ih]
        | object fields =>
          simp [Value.isNullish, Value.typeof, hforbidden, get, bind, Except.bind, ih]
        | null => simp [Value.isNullish, property, hnothing]
        | bool b => simp [Value.isNullish, Value.typeof, property, hnothing]
        | number text => simp [Value.isNullish, Value.typeof, property, hnothing]
        | string s => simp [Value.isNullish, Value.typeof, property, hnothing]

lemma safeGet_eq (context : Json) (path : String) :
    safeGet host (.json context) (.json (.string path)) =
      .ok (Routing.safeGet host context path) := by
  rw [safeGet]
  by_cases hnullish : (Value.json context).isNullish = true
  · obtain rfl : context = .null := by
      cases context <;> simp [Value.isNullish] at hnullish ⊢
    obtain ⟨part, parts, hparts⟩ := List.exists_cons_of_ne_nil
      (List.splitOn_ne_nil '.' path.toList)
    have hnothing : Routing.safeGetParts host (parts.map String.ofList) .undefined = .undefined := by
      cases parts <;> rfl
    simp [Value.isNullish, Routing.safeGet, hparts, Routing.safeGetParts, property, hnothing]
  · simp [hnullish, Value.typeof, Value.asString, bind, Except.bind, safeGetParts_eq,
      Routing.safeGet]

lemma normalizeComparable_eq (value : Value) :
    normalizeComparable host value = .ok (Routing.normalizeComparable host value) := by
  cases value with
  | undefined => rfl
  | function => rfl
  | json value => cases value <;> rfl

lemma someItem_eq (f : Json → Bool) (items : List Json) :
    someItem (fun value => .ok (f value)) items = .ok (items.any f) := by
  induction items with
  | nil => rfl
  | cons value items ih =>
    cases hf : f value with
    | false => simp [someItem, hf, bind, Except.bind, ih]
    | true => simp [someItem, hf, bind, Except.bind, pure, Except.pure]

lemma among_eq (item : Comparable) (values : List Json) :
    among host item (.json (.array values)) = .ok (values.any fun value =>
      sameValue (Routing.normalizeComparable host (.json value)) item) := by
  have hsome := someItem_eq (fun value =>
    sameValue (Routing.normalizeComparable host (.json value)) item) values
  rw [← hsome]
  simp only [among, Value.asArray, bind, Except.bind, normalizeComparable_eq, pure, Except.pure]

lemma strings_eq (actual expected : Value) (test : List Char → List Char → Bool) :
    (if bothStrings actual expected then strings actual expected test else .ok false) =
      .ok (texts actual expected test) := by
  cases actual with
  | undefined => rfl
  | function => rfl
  | json s =>
    cases expected with
    | undefined => cases s <;> rfl
    | function => cases s <;> rfl
    | json t => cases s <;> cases t <;> rfl

/-- A malformed pattern is caught. -/
lemma regExpTest_eq (s pattern : String) :
    (if maxRegexInputLength < (codeUnits s).length ∨ 100 < (codeUnits pattern).length then .ok false
      else tryCatch (regExpTest host pattern s) fun _ => .ok false) =
      .ok (if maxRegexInputLength < (codeUnits s).length ∨ 100 < (codeUnits pattern).length then false
        else (host.regex pattern s).getD false) := by
  split_ifs with hlong
  · rfl
  · rw [regExpTest]
    cases host.regex pattern s <;> rfl

lemma compareValues_eq (op : String) (actual expected : Value) :
    compareValues host (.json (.string op)) actual expected =
      .ok (Routing.compareValues host op actual expected) := by
  simp only [compareValues, normalizeComparable_eq, Value.asString, bind, Except.bind, pure,
    Except.pure]
  unfold Routing.compareValues
  generalize String.ofList (op.toList.map Char.toLower) = operator
  split
  case h_13 =>
    cases expected with
    | json value => cases value with
      | array values => exact among_eq _ values
      | _ => rfl
    | _ => rfl
  case h_14 =>
    cases expected with
    | json value => cases value with
      | array values =>
        simp only [Value.isArray, if_true, among_eq]
      | _ => rfl
    | _ => rfl
  case h_15 =>
    have hstrings := strings_eq actual expected fun s t => decide (t <:+: s)
    cases actual with
    | json value => cases value with
      | array values => exact among_eq _ values
      | _ => exact hstrings
    | _ => exact hstrings
  case h_16 => exact strings_eq actual expected fun s t => decide (t <+: s)
  case h_17 => exact strings_eq actual expected fun s t => decide (t <:+ s)
  case h_18 =>
    cases actual with
    | json value => cases value <;> cases expected <;> rfl
    | _ => cases expected <;> rfl
  case h_19 =>
    cases actual with
    | json value => cases value with
      | string s => cases expected with
        | json value => cases value with
          | string pattern => exact regExpTest_eq s pattern
          | _ => rfl
        | _ => rfl
      | _ => rfl
    | _ => rfl
  case h_20 =>
    first
      | rfl
      | split
        all_goals first | rfl | contradiction
  all_goals rfl

lemma evaluateAtom_eq (node : List (String × Json)) (context : Json) :
    evaluateAtom host node (.json context) = .ok (Routing.evaluateAtom host node context) := by
  simp only [evaluateAtom, Routing.evaluateAtom]
  cases either host "field" "path" node with
  | none => rfl
  | some fieldPath =>
    cases fieldPath with
    | string path =>
      cases either host "operator" "op" node with
      | none => rfl
      | some operator =>
        cases operator with
        | string op =>
          simp [Value.typeof, safeGet_eq, bind, Except.bind, compareValues_eq]
        | _ => rfl
    | _ => rfl

variable {raising : Json → Except Thrown Bool} {plain : Json → Except String Bool}

lemma everyItem_eq (h : ∀ child, raising child = (plain child).mapError .error)
    (children : List Json) :
    everyItem raising children = (everyNode plain children).mapError .error := by
  induction children with
  | nil => rfl
  | cons child children ih =>
    rw [everyItem, everyNode, h, ih]
    cases plain child with
    | error message => rfl
    | ok holds => cases holds <;> rfl

lemma someItem_mapError (h : ∀ child, raising child = (plain child).mapError .error)
    (children : List Json) :
    someItem raising children = (someNode plain children).mapError .error := by
  induction children with
  | nil => rfl
  | cons child children ih =>
    rw [someItem, someNode, h, ih]
    cases plain child with
    | error message => rfl
    | ok holds => cases holds <;> rfl

/-- Nothing is refused that the plain evaluation does not refuse: there, only the depth is. -/
lemma evaluateNode_eq (context : Json) (levels : ℕ) (node : Json) :
    evaluateNode host (.json context) levels node =
      (Routing.evaluateNode host context levels node).mapError .error := by
  induction levels generalizing node with
  | zero => rfl
  | succ levels ih =>
    cases node with
    | object node =>
      rw [evaluateNode, evaluateNode_object]
      cases childrenOf (field "and" node) with
      | some children => exact everyItem_eq ih children
      | none =>
        cases childrenOf (field "or" node) with
        | some children => exact someItem_mapError ih children
        | none =>
          dsimp only
          split_ifs
          · rw [ih]
            cases Routing.evaluateNode host context levels _ <;> rfl
          · rw [evaluateAtom_eq]
            rfl
    | _ => rfl

end Agreement

end Raising

end StellarTags.Routing
