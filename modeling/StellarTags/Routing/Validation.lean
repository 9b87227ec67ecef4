import StellarTags.Routing.Exceptions
import StellarTags.Routing.RuleSelection

/-! What the validation of conditions promises to their evaluation. -/

namespace StellarTags.Routing

open Platform

section Validation

variable (host : Host)

def requireText (message : String) (value : Option Json) : Except String String :=
  match value with
  | some (.string s) => if truthy host (some (.string s)) then .ok s else .error message
  | _ => .error message

def requireAllowed (part : String) : Except String Unit :=
  if trim part ∈ forbiddenProperties then .error ("Forbidden field property access: " ++ part)
  else .ok ()

def validateAtom (node : List (String × Json)) : Except String Unit := do
  let fieldPath ← requireText host "Condition node must specify a string \"field\""
    (either host "field" "path" node)
  let _ ← requireText host "Condition node must specify a string \"operator\""
    (either host "operator" "op" node)
  ((fieldPath.toList.splitOn '.').map String.ofList).forM requireAllowed

def validateChildren (message : String) (validate : Json → Except String Unit)
    (value : Option Json) : Except String Unit :=
  match childrenOf value with
  | some (child :: children) => (child :: children).forM validate
  | _ => .error message

/-- With the levels that are left before the depth is exceeded. -/
def validateConditions : ℕ → Json → Except String Unit
  | 0, _ => .error "Conditions exceed maximum nesting depth"
  | levels + 1, .object node =>
    if truthy host (field "and" node) then
      validateChildren "\"and\" condition must be a non-empty array of conditions"
        (validateConditions levels) (field "and" node)
    else if truthy host (field "or" node) then
      validateChildren "\"or\" condition must be a non-empty array of conditions"
        (validateConditions levels) (field "or" node)
    else if truthy host (field "not" node) then
      validateConditions levels ((field "not" node).getD .null)
    else validateAtom host node
  | _ + 1, .array _ => validateAtom host []
  | _ + 1, _ => .error "Condition must be a JSON object"

end Validation

variable {host : Host} {context : Json} {levels : ℕ} {node : Json} {children : List Json}
  {validate : Json → Except String Unit} {evaluate : Json → Except String Bool}

lemma childrenOf_of_falsy {value : Option Json} (h : ¬ truthy host value = true) :
    childrenOf value = none := by
  apply childrenOf_eq_none
  rintro children rfl
  exact h rfl

lemma forM_ok (h : children.forM validate = .ok ()) : ∀ child ∈ children, validate child = .ok () := by
  induction children with
  | nil => simp
  | cons child children ih =>
    rw [List.forM] at h
    cases hv : validate child with
    | error message => simp [hv, bind, Except.bind] at h
    | ok done =>
      rw [hv] at h
      exact List.forall_mem_cons.mpr ⟨hv, ih h⟩

lemma validateChildren_ok {message : String} {value : Option Json}
    (h : validateChildren message validate value = .ok ()) :
    ∃ children, childrenOf value = some children ∧ ∀ child ∈ children, validate child = .ok () := by
  rw [validateChildren] at h
  split at h
  · rename_i child children hvalue
    exact ⟨child :: children, hvalue, forM_ok h⟩
  · cases h

lemma everyNode_ok (h : ∀ child ∈ children, ∃ b, evaluate child = .ok b) :
    ∃ b, everyNode evaluate children = .ok b := by
  induction children with
  | nil => exact ⟨true, rfl⟩
  | cons child children ih =>
    obtain ⟨⟨b, hb⟩, hchildren⟩ := List.forall_mem_cons.mp h
    rw [everyNode, hb]
    cases b with
    | false => exact ⟨false, rfl⟩
    | true => exact ih hchildren

lemma someNode_ok (h : ∀ child ∈ children, ∃ b, evaluate child = .ok b) :
    ∃ b, someNode evaluate children = .ok b := by
  induction children with
  | nil => exact ⟨false, rfl⟩
  | cons child children ih =>
    obtain ⟨⟨b, hb⟩, hchildren⟩ := List.forall_mem_cons.mp h
    rw [someNode, hb]
    cases b with
    | false => exact ih hchildren
    | true => exact ⟨true, rfl⟩

/-- What is valid within some levels is evaluated within them. -/
lemma evaluates_of_validated (h : validateConditions host levels node = .ok ()) :
    ∃ b, evaluateNode host context levels node = .ok b := by
  induction levels generalizing node with
  | zero => cases h
  | succ levels ih =>
    cases node with
    | object node =>
      rw [evaluateNode_object]
      rw [validateConditions] at h
      split_ifs at h with hand hor hnot
      · obtain ⟨children, hchildren, hall⟩ := validateChildren_ok h
        rw [hchildren]
        exact everyNode_ok fun child hc => ih (hall child hc)
      · obtain ⟨children, hchildren, hall⟩ := validateChildren_ok h
        rw [childrenOf_of_falsy hand, hchildren]
        exact someNode_ok fun child hc => ih (hall child hc)
      · obtain ⟨b, hb⟩ := ih h
        rw [childrenOf_of_falsy hand, childrenOf_of_falsy hor]
        dsimp only
        rw [if_pos hnot, hb]
        exact ⟨!b, rfl⟩
      · rw [childrenOf_of_falsy hand, childrenOf_of_falsy hor]
        dsimp only
        rw [if_neg hnot]
        exact ⟨_, rfl⟩
    | _ => exact ⟨false, rfl⟩

/-- Whatever conditions pass the validation, their evaluation answers on every context: of all the
operations that the language may refuse there, none is refused. -/
theorem validated_conditions_evaluate (host : Host) (conditions : Json)
    (h : validateConditions host (maxRecursionDepth + 1) conditions = .ok ()) (context : Json) :
    ∃ b : Bool,
      Raising.evaluateNode host (.json context) (maxRecursionDepth + 1) conditions = .ok b ∧
      evaluateNode host context (maxRecursionDepth + 1) conditions = .ok b := by
  obtain ⟨b, hb⟩ : ∃ b, evaluateNode host context (maxRecursionDepth + 1) conditions = .ok b :=
    evaluates_of_validated h
  refine ⟨b, ?_, hb⟩
  rw [Raising.evaluateNode_eq, hb]
  rfl

section Examples

/-- A pattern that is malformed, and a list that is none. -/
def awkward : Json :=
  .object [("or", .array [
    .object [("field", .string "memo"), ("operator", .string "regex"), ("value", .string "(")],
    .object [("not", .object [("path", .string "amount.length"), ("op", .string "in"),
      ("val", .number "5")])]])]

theorem validated_conditions_evaluate_awkward :
    ∃ b : Bool,
      Raising.evaluateNode sampleHost (.json .null) (maxRecursionDepth + 1) awkward = .ok b ∧
      evaluateNode sampleHost .null (maxRecursionDepth + 1) awkward = .ok b :=
  validated_conditions_evaluate sampleHost awkward (by decide +kernel) .null

end Examples

end StellarTags.Routing
