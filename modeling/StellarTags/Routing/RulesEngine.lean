import Mathlib.Data.Rat.Defs
import Mathlib.Order.WithBotTop
import StellarTags.Platform.Encoding

/-! The rules engine: trees of conditions on a payment, and what a rule does with a payment. -/

namespace StellarTags.Routing

open Platform

abbrev Number := WithBot (WithTop ℚ)

/-- How texts are read as numbers and matched with patterns, which properties an object or an array
inherits, which keys the characters of a text are spread to, and the clock. -/
structure Host where
  isNumber : String → Bool
  parseFloat : String → Number
  /-- The pattern comes first; there is no answer to a malformed one. -/
  regex : String → String → Option Bool
  inherits : Bool → String → Bool
  spreadText : String → List (String × Json)
  now : String

/-- A value that a property can have; what is inherited is a function. -/
inductive Value
  | undefined
  | function
  | json (value : Json)

inductive Comparable
  | number (n : Number)
  | text (s : String)
  | bool (b : Bool)
  | null
  | undefined
  /-- An object, an array or a function: it is the same as nothing else. -/
  | reference
  deriving DecidableEq

section Values

variable (host : Host)

def forbiddenProperties : List String := ["__proto__", "constructor", "prototype"]

def field (name : String) (fields : List (String × Json)) : Option Json :=
  (fields.find? fun property => property.1 = name).map Prod.snd

def property (name : String) (value : Json) : Value :=
  match value with
  | .object fields =>
    match field name fields with
    | some value => .json value
    | none => if host.inherits false name then .function else .undefined
  | .array values =>
    if name = "length" then .json (.number (toString values.length))
    else
      match (values.zipIdx.find? fun entry => toString entry.2 = name) with
      | some (value, _) => .json value
      | none => if host.inherits true name then .function else .undefined
  | _ => .undefined

def safeGetParts : List String → Value → Value
  | [], current => current
  | part :: parts, .json current =>
    let cleanPart := trim part
    if cleanPart ∈ forbiddenProperties then .undefined
    else safeGetParts parts (property host cleanPart current)
  | _ :: _, _ => .undefined

def safeGet (target : Json) (path : String) : Value :=
  safeGetParts host ((path.toList.splitOn '.').map String.ofList) (.json target)

def truthy (value : Option Json) : Bool :=
  match value with
  | none | some .null => false
  | some (.bool b) => b
  | some (.number text) => decide (host.parseFloat text ≠ ((0 : ℚ) : Number))
  | some (.string s) => decide (s ≠ "")
  | some (.array _) | some (.object _) => true

def normalizeComparable (value : Value) : Comparable :=
  match value with
  | .undefined => .undefined
  | .function => .reference
  | .json .null => .null
  | .json (.bool b) => .bool b
  | .json (.number text) => .number (host.parseFloat text)
  | .json (.string s) =>
    let trimmed := trim s
    if trimmed ≠ "" ∧ host.isNumber trimmed then .number (host.parseFloat trimmed) else .text s
  | .json (.array _) | .json (.object _) => .reference

def sameValue (a b : Comparable) : Bool := decide (a = b ∧ a ≠ .reference)

def ordered (a b : Comparable) (order : Number → Number → Bool) : Bool :=
  match a, b with
  | .number m, .number n => order m n
  | _, _ => false

def texts (a b : Value) (test : List Char → List Char → Bool) : Bool :=
  match a, b with
  | .json (.string s), .json (.string t) => test s.toList t.toList
  | _, _ => false

def maxRegexInputLength : ℕ := 1000

def compareValues (op : String) (actual expected : Value) : Bool :=
  let normActual := normalizeComparable host actual
  let normExpected := normalizeComparable host expected
  let among (item : Comparable) (values : List Json) : Bool :=
    values.any fun value => sameValue (normalizeComparable host (.json value)) item
  match String.ofList (op.toList.map Char.toLower) with
  | "eq" | "==" => sameValue normActual normExpected
  | "neq" | "!=" => !sameValue normActual normExpected
  | "gt" | ">" => ordered normActual normExpected fun m n => decide (n < m)
  | "gte" | ">=" => ordered normActual normExpected fun m n => decide (n ≤ m)
  | "lt" | "<" => ordered normActual normExpected fun m n => decide (m < n)
  | "lte" | "<=" => ordered normActual normExpected fun m n => decide (m ≤ n)
  | "in" =>
    match expected with
    | .json (.array values) => among normActual values
    | _ => false
  | "not_in" =>
    match expected with
    | .json (.array values) => !among normActual values
    | _ => true
  | "contains" =>
    match actual with
    | .json (.array values) => among normExpected values
    | _ => texts actual expected fun s t => decide (t <:+: s)
  | "startswith" => texts actual expected fun s t => decide (t <+: s)
  | "endswith" => texts actual expected fun s t => decide (t <:+ s)
  | "exists" =>
    let shouldExist := match expected with
      | .undefined => false
      | .function => true
      | .json value => truthy host (some value)
    let isPresent := match actual with
      | .undefined | .json .null => false
      | _ => true
    if shouldExist then isPresent else !isPresent
  | "regex" =>
    match actual, expected with
    | .json (.string s), .json (.string pattern) =>
      if maxRegexInputLength < (codeUnits s).length ∨ 100 < (codeUnits pattern).length then false
      else (host.regex pattern s).getD false
    | _, _ => false
  | _ => false

end Values

section Conditions

variable (host : Host)

def maxRecursionDepth : ℕ := 10

def everyNode (test : Json → Except String Bool) : List Json → Except String Bool
  | [] => .ok true
  | child :: children => do
    if ← test child then everyNode test children else return false

def someNode (test : Json → Except String Bool) : List Json → Except String Bool
  | [] => .ok false
  | child :: children => do
    if ← test child then return true else someNode test children

def either (first second : String) (node : List (String × Json)) : Option Json :=
  if truthy host (field first node) then field first node else field second node

def evaluateAtom (node : List (String × Json)) (context : Json) : Bool :=
  match either host "field" "path" node, either host "operator" "op" node with
  | some (.string fieldPath), some (.string operator) =>
    let expectedValue := if (field "value" node).isSome then field "value" node else field "val" node
    compareValues host operator (safeGet host context fieldPath)
      (expectedValue.elim .undefined .json)
  | _, _ => false

/-- With the levels that are left before the depth is exceeded. -/
def evaluateNode (context : Json) : ℕ → Json → Except String Bool
  | 0, _ => .error ("Rules engine maximum recursion depth of " ++ toString maxRecursionDepth ++
      " exceeded")
  | levels + 1, .object node =>
    match field "and" node, field "or" node, field "not" node with
    | some (.array children), _, _ => everyNode (evaluateNode context levels) children
    | _, some (.array children), _ => someNode (evaluateNode context levels) children
    | _, _, child =>
      match child with
      | some child =>
        if truthy host (some child) then do return !(← evaluateNode context levels child)
        else .ok (evaluateAtom host node context)
      | none => .ok (evaluateAtom host node context)
  | _ + 1, _ => .ok false

end Conditions

section Actions

variable (host : Host)

structure RoutedPayment where
  sender : Option Json
  recipient : Option Json
  originalTo : Option Json
  amount : Option Json
  asset : Option Json
  memo : Option Json
  memoType : Option Json
  route : Option Json
  priorityTier : Option Json
  fee : Option Json
  metadata : List (String × Json)

def orElse (a b : Option Json) : Option Json := if truthy host a then a else b

mutual

/-- A value as text; an object that has a `toString` of its own has none. -/
def template : Json → Option String
  | .null => some "null"
  | .bool b => some (if b then "true" else "false")
  | .number text => some text
  | .string s => some s
  | .array values => (templates values).map (",".intercalate ·)
  | .object fields => if (field "toString" fields).isSome then none else some "[object Object]"

def templates : List Json → Option (List String)
  | [] => some []
  | .null :: values => (templates values).map ("" :: ·)
  | value :: values => do
    let first ← template value
    let rest ← templates values
    return first :: rest

end

/-- The properties of a value, where they are spread into an object. -/
def spread (value : Option Json) : List (String × Json) :=
  match value with
  | some (.object fields) => fields
  | some (.array values) => values.zipIdx.map fun (value, i) => (toString i, value)
  | some (.string s) => host.spreadText s
  | _ => []

def merge (fields more : List (String × Json)) : List (String × Json) :=
  fields.map (fun (key, value) => (key, (field key more).getD value)) ++
    more.filter fun (key, _) => (field key fields).isNone

inductive RoutingResult
  | routed (payment : RoutedPayment)
  | unmodified (context : List (String × Json))

def defaultRoute : Json := .string "default-stellar-direct"

def conversionError : String := "Cannot convert object to primitive value"

def routedMemo (actions context : List (String × Json)) : Except String (Option Json) :=
  if truthy host (field "memoOverride" actions) then .ok (field "memoOverride" actions)
  else if truthy host (field "memoPrefix" actions) then
    let memo := orElse host (field "memo" context) (some (.string ""))
    match (field "memoPrefix" actions).bind template, memo.bind template with
    | some memoPrefix, some memo => .ok (some (.string (memoPrefix ++ memo)))
    | _, _ => .error conversionError
  else .ok (field "memo" context)

def routePaymentTo (actions context : List (String × Json)) : Except String RoutedPayment := do
  let memo ← routedMemo host actions context
  let route := orElse host (field "route" actions) (some defaultRoute)
  return {
    sender := field "from" context
    recipient := orElse host (field "targetAddress" actions) (field "to" context)
    originalTo := field "to" context
    amount := field "amount" context
    asset := orElse host (field "asset" context) (some (.string "XLM"))
    memo
    memoType := orElse host (field "memoType" actions) (field "memoType" context)
    route
    priorityTier := orElse host (field "priorityTier" actions) (some (.string "standard"))
    fee := match field "feeOverride" actions with
      | some (.number fee) => some (.number fee)
      | _ => orElse host (field "fee" context) (some (.number "0"))
    metadata := merge (merge (spread host (field "metadata" context))
        (spread host (field "enrichMetadata" actions)))
      [("routingEngine", .object ([("applied", .bool true)] ++
        (route.map fun route => ("route", route)).toList ++ [("timestamp", .string host.now)]))] }

def applyRuleActions (actions : Json) (context : List (String × Json)) :
    Except String RoutingResult :=
  match actions with
  | .object fields => (routePaymentTo host fields context).map .routed
  | .array _ => (routePaymentTo host [] context).map .routed
  | _ => .ok (.unmodified context)

end Actions

section Rules

variable (host : Host)

structure RoutingRule where
  id : String
  name : String
  priority : ℤ
  active : Bool
  clientOrg : Option String
  conditions : Json
  actions : Json
  createdAt : ℕ

structure AppliedRule where
  id : String
  name : String
  priority : ℤ
  actions : Json

/-- An entry has an error in place of a priority where a rule could not be evaluated or applied. -/
structure AuditEntry where
  ruleId : String
  ruleName : String
  outcome : Except String ℤ
  isMatch : Bool

structure Evaluation where
  appliedRule : Option AppliedRule
  routingResult : RoutingResult
  auditLog : List AuditEntry

def RoutingRule.applied (rule : RoutingRule) : AppliedRule :=
  ⟨rule.id, rule.name, rule.priority, rule.actions⟩

def RoutingRule.matches (rule : RoutingRule) (context : List (String × Json)) : Except String Bool :=
  evaluateNode host (.object context) (maxRecursionDepth + 1) rule.conditions

def unmatched (context : List (String × Json)) : List (String × Json) :=
  merge context [("route", defaultRoute), ("priorityTier", .string "standard"),
    ("metadata", .object (merge (spread host (field "metadata" context))
      [("routingEngine", .object [("applied", .bool false), ("route", defaultRoute)])]))]

def evaluateFrom (context : List (String × Json)) : List RoutingRule → List AuditEntry → Evaluation
  | [], auditLog => ⟨none, .unmodified (unmatched host context), auditLog⟩
  | rule :: rules, auditLog =>
    if rule.active = false then evaluateFrom context rules auditLog
    else
      match rule.matches host context with
      | .error message =>
        evaluateFrom context rules (auditLog ++ [⟨rule.id, rule.name, .error message, false⟩])
      | .ok isMatch =>
        let auditLog := auditLog ++ [⟨rule.id, rule.name, .ok rule.priority, isMatch⟩]
        if isMatch then
          match applyRuleActions host rule.actions context with
          | .ok routed => ⟨some rule.applied, routed, auditLog⟩
          | .error message =>
            evaluateFrom context rules (auditLog ++ [⟨rule.id, rule.name, .error message, false⟩])
        else evaluateFrom context rules auditLog

def evaluateRules (rules : List RoutingRule) (context : List (String × Json)) : Evaluation :=
  evaluateFrom host context rules []

end Rules

end StellarTags.Routing
