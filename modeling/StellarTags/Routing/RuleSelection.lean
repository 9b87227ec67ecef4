import Mathlib.Data.List.Sort
import StellarTags.Routing.RulesEngine

/-! Which rule of the database a payment is routed by. -/

namespace StellarTags.Routing

open Platform

variable {host : Host} {rules page : List RoutingRule} {rule other : RoutingRule}
  {context : List (String × Json)} {auditLog : List AuditEntry}

structure RuleTable where
  rules : List RoutingRule
  ids : (rules.map RoutingRule.id).Nodup

/-- By descending priority, then ascending time of creation. -/
def comesFirst (a b : RoutingRule) : Prop :=
  b.priority < a.priority ∨ a.priority = b.priority ∧ a.createdAt ≤ b.createdAt

instance : DecidableRel comesFirst := fun _ _ => inferInstanceAs (Decidable (_ ∨ _))

def RuleTable.ordered (table : RuleTable) : List RoutingRule :=
  table.rules.insertionSort comesFirst

def queried (clientOrg : Option String) (activeOnly : Bool) (rule : RoutingRule) : Bool :=
  (!activeOnly || rule.active) &&
    match clientOrg with
    | none | some "" => true
    | some org => decide (rule.clientOrg = some org ∨ rule.clientOrg = none)

def getRules (table : RuleTable) (clientOrg : Option String) (activeOnly : Bool)
    (limit offset : ℕ) : List RoutingRule :=
  ((table.ordered.filter (queried clientOrg activeOnly)).drop offset).take (min limit 100)

def routePayment (host : Host) (table : RuleTable) (context : List (String × Json))
    (clientOrg : Option String) : Evaluation :=
  evaluateRules host (getRules table clientOrg true 50 0) context

def Visible (clientOrg : Option String) (rule : RoutingRule) : Prop :=
  rule.clientOrg = none ∨ rule.clientOrg = clientOrg

instance (clientOrg : Option String) (rule : RoutingRule) : Decidable (Visible clientOrg rule) :=
  inferInstanceAs (Decidable (_ ∨ _))

def RoutingRule.Matches (host : Host) (context : List (String × Json)) (rule : RoutingRule) : Prop :=
  (rule.matches host context).toOption = some true

instance (rule : RoutingRule) : Decidable (rule.Matches host context) :=
  inferInstanceAs (Decidable (_ = _))

/-- A rule that matches and whose actions make a payment of the context. -/
def Applicable (host : Host) (context : List (String × Json)) (rule : RoutingRule) : Prop :=
  rule.Matches host context ∧ (applyRuleActions host rule.actions context).isOk = true

instance (rule : RoutingRule) : Decidable (Applicable host context rule) :=
  inferInstanceAs (Decidable (_ ∧ _))

/-- The first rule, by priority and then by age, that the payment's organisation sees and that
matches. -/
def selected (host : Host) (table : RuleTable) (context : List (String × Json))
    (clientOrg : Option String) : Option RoutingRule :=
  table.ordered.find? fun rule =>
    decide (rule.active = true ∧ Visible clientOrg rule ∧ rule.Matches host context)

/-- The rule to apply is among the first fifty that are read, its actions can be applied, and none of
another organisation takes its place. -/
def Reached (host : Host) (table : RuleTable) (context : List (String × Json))
    (clientOrg : Option String) : Prop :=
  let page := getRules table clientOrg true 50 0
  match selected host table context clientOrg with
  | none => ∀ other ∈ page, ¬ Visible clientOrg other → ¬ Applicable host context other
  | some rule => (∃ read ∈ page, read.id = rule.id) ∧ Applicable host context rule ∧
    ∀ other ∈ page.takeWhile (·.id ≠ rule.id), ¬ Visible clientOrg other →
      ¬ Applicable host context other

section Ordering

lemma comesFirst_total (a b : RoutingRule) : comesFirst a b ∨ comesFirst b a := by
  unfold comesFirst
  omega

lemma comesFirst_trans (a b c : RoutingRule) (hab : comesFirst a b) (hbc : comesFirst b c) :
    comesFirst a c := by
  unfold comesFirst at *
  omega

instance : Std.Total comesFirst := ⟨comesFirst_total⟩

instance : IsTrans RoutingRule comesFirst := ⟨comesFirst_trans⟩

lemma mem_ordered (table : RuleTable) : rule ∈ table.ordered ↔ rule ∈ table.rules :=
  List.mem_insertionSort _

lemma nodup_ordered (table : RuleTable) : (table.ordered.map RoutingRule.id).Nodup :=
  ((List.perm_insertionSort _ _).map _).nodup_iff.mpr table.ids

lemma selected_first {table : RuleTable} {clientOrg : Option String}
    (h : selected host table context clientOrg = some rule) (hother : other ∈ table.rules)
    (hactive : other.active = true) (hvisible : Visible clientOrg other)
    (hmatches : other.Matches host context) : comesFirst rule other := by
  obtain ⟨-, before, after, hsplit, hbefore⟩ := List.find?_eq_some_iff_append.mp h
  have hsorted : table.ordered.Pairwise comesFirst := List.pairwise_insertionSort _ _
  have hmem := (mem_ordered table).mpr hother
  rw [hsplit] at hsorted hmem
  rw [List.mem_append, List.mem_cons] at hmem
  obtain hmem | rfl | hmem := hmem
  · have hno := hbefore other hmem
    rw [decide_eq_true ⟨hactive, hvisible, hmatches⟩] at hno
    cases hno
  · exact .inr ⟨rfl, le_rfl⟩
  · exact (List.pairwise_cons.mp (List.pairwise_append.mp hsorted).2.1).1 other hmem

end Ordering

section Evaluating

lemma evaluateFrom_applied (rules : List RoutingRule) (auditLog : List AuditEntry) :
    (evaluateFrom host context rules auditLog).appliedRule =
      (rules.find? fun rule => decide (rule.active = true ∧ Applicable host context rule)).map
        RoutingRule.applied := by
  induction rules generalizing auditLog with
  | nil => rfl
  | cons rule rules ih =>
    rw [evaluateFrom, List.find?_cons]
    by_cases hactive : rule.active = false
    · rw [if_pos hactive, ih]
      simp [hactive]
    · rw [if_neg hactive]
      have hactive : rule.active = true := by simpa using hactive
      cases hmatches : rule.matches host context with
      | error message =>
        have hno : ¬ rule.Matches host context := by simp [RoutingRule.Matches, hmatches, Except.toOption]
        simp only [ih]
        simp [Applicable, hno]
      | ok isMatch =>
        cases isMatch with
        | false =>
          have hno : ¬ rule.Matches host context := by
            simp [RoutingRule.Matches, hmatches, Except.toOption]
          simp only [Bool.false_eq_true, if_false, ih]
          simp [Applicable, hno]
        | true =>
          have hyes : rule.Matches host context := by
            simp [RoutingRule.Matches, hmatches, Except.toOption]
          simp only [if_true]
          cases happly : applyRuleActions host rule.actions context with
          | error message =>
            simp only [ih]
            simp [Applicable, happly, Except.isOk, Except.toBool]
          | ok routed => simp [Applicable, hactive, hyes, happly, Except.isOk, Except.toBool]

end Evaluating

section Selecting

variable {table : RuleTable} {clientOrg : Option String}

lemma getRules_eq (table : RuleTable) (clientOrg : Option String) :
    getRules table clientOrg true 50 0 = (table.ordered.filter (queried clientOrg true)).take 50 := by
  rw [getRules, List.drop_zero]
  rfl

lemma queried_of_visible (hactive : rule.active = true) (hvisible : Visible clientOrg rule) :
    queried clientOrg true rule = true := by
  unfold queried
  rw [hactive]
  split
  · rfl
  · rfl
  · simpa using Or.symm hvisible

lemma active_of_mem_page (h : rule ∈ getRules table clientOrg true 50 0) : rule.active = true := by
  rw [getRules_eq] at h
  have hqueried := (List.mem_filter.mp (List.mem_of_mem_take h)).2
  unfold queried at hqueried
  cases hactive : rule.active with
  | true => rfl
  | false => simp [hactive] at hqueried

lemma mem_of_mem_page (h : rule ∈ getRules table clientOrg true 50 0) : rule ∈ table.ordered := by
  rw [getRules_eq] at h
  exact (List.mem_filter.mp (List.mem_of_mem_take h)).1

lemma eq_of_id (table : RuleTable) (hrule : rule ∈ table.ordered) (hother : other ∈ table.ordered)
    (hid : rule.id = other.id) : rule = other :=
  List.inj_on_of_nodup_map (nodup_ordered table) hrule hother hid

/-- A rule that is selected and read is the first of the page that is seen and matches. -/
lemma find_selected (h : selected host table context clientOrg = some rule)
    (hpage : rule ∈ getRules table clientOrg true 50 0) :
    (getRules table clientOrg true 50 0).find? (fun rule =>
      decide (rule.active = true ∧ Visible clientOrg rule ∧ rule.Matches host context)) =
        some rule := by
  have hfiltered : (table.ordered.filter (queried clientOrg true)).find? (fun rule =>
      decide (rule.active = true ∧ Visible clientOrg rule ∧ rule.Matches host context)) =
        some rule := by
    rw [← h, selected, List.find?_filter]
    congr 1
    funext other
    by_cases hother : other.active = true ∧ Visible clientOrg other ∧ other.Matches host context
    · simp [hother, queried_of_visible hother.1 hother.2.1]
    · simp [hother]
  rw [getRules_eq] at hpage ⊢
  rw [← List.take_append_drop 50 (table.ordered.filter (queried clientOrg true)),
    List.find?_append] at hfiltered
  cases hfind : ((table.ordered.filter (queried clientOrg true)).take 50).find? (fun rule =>
      decide (rule.active = true ∧ Visible clientOrg rule ∧ rule.Matches host context)) with
  | some first => rwa [hfind, Option.some_or] at hfiltered
  | none =>
    have hno := List.find?_eq_none.mp hfind rule hpage
    exact absurd (List.find?_some h) hno

lemma nodup_page (table : RuleTable) (clientOrg : Option String) :
    ((getRules table clientOrg true 50 0).map RoutingRule.id).Nodup := by
  rw [getRules_eq]
  exact (nodup_ordered table).sublist
    (((List.take_sublist _ _).trans List.filter_sublist).map RoutingRule.id)

/-- What is read before a rule is where its id does not stop. -/
lemma takeWhile_eq {before after : List RoutingRule}
    (hpage : getRules table clientOrg true 50 0 = before ++ rule :: after) :
    (getRules table clientOrg true 50 0).takeWhile (·.id ≠ rule.id) = before := by
  have hnodup := nodup_page table clientOrg
  rw [hpage] at hnodup ⊢
  rw [List.map_append, List.map_cons, List.nodup_append] at hnodup
  have hbefore : ∀ other ∈ before, decide (other.id ≠ rule.id) = true := by
    intro other hother
    exact decide_eq_true (hnodup.2.2 other.id (List.mem_map_of_mem hother) rule.id
      (List.mem_cons_self ..))
  rw [List.takeWhile_append_of_pos hbefore, List.takeWhile_cons_of_neg (by simp), List.append_nil]

lemma reached_iff : Reached host table context clientOrg ↔
    (getRules table clientOrg true 50 0).find? (fun rule =>
      decide (rule.active = true ∧ Applicable host context rule)) =
        selected host table context clientOrg := by
  unfold Reached
  dsimp only
  cases hselected : selected host table context clientOrg with
  | none =>
    have hnone {other : RoutingRule} (hpage : other ∈ getRules table clientOrg true 50 0)
        (hvisible : Visible clientOrg other) : ¬ Applicable host context other := fun happlies => by
      have hno := List.find?_eq_none.mp hselected other (mem_of_mem_page hpage)
      exact hno (decide_eq_true ⟨active_of_mem_page hpage, hvisible, happlies.1⟩)
    rw [List.find?_eq_none]
    constructor
    · intro hforeign other hpage happlies
      have happlies := (of_decide_eq_true happlies).2
      by_cases hvisible : Visible clientOrg other
      · exact hnone hpage hvisible happlies
      · exact hforeign other hpage hvisible happlies
    · intro hno other hpage _ happlies
      exact hno other hpage (decide_eq_true ⟨active_of_mem_page hpage, happlies⟩)
  | some rule =>
    constructor
    · rintro ⟨⟨read, hread, hid⟩, happlies, hforeign⟩
      obtain rfl := eq_of_id table (mem_of_mem_page hread)
        (List.mem_of_find?_eq_some hselected) hid
      obtain ⟨-, before, after, hpage, hbefore⟩ :=
        List.find?_eq_some_iff_append.mp (find_selected hselected hread)
      rw [takeWhile_eq hpage] at hforeign
      rw [List.find?_eq_some_iff_append]
      refine ⟨decide_eq_true ⟨active_of_mem_page hread, happlies⟩, before, after, hpage,
        fun other hother => ?_⟩
      rw [Bool.not_eq_true', decide_eq_false_iff_not]
      rintro ⟨hactive, happlies⟩
      have hunselected := hbefore other hother
      rw [Bool.not_eq_true', decide_eq_false_iff_not] at hunselected
      apply hforeign other hother (fun hvisible => ?_) happlies
      exact hunselected ⟨hactive, hvisible, happlies.1⟩
    · intro hfind
      have hread := List.mem_of_find?_eq_some hfind
      obtain ⟨happlies, before, after, hpage, hbefore⟩ := List.find?_eq_some_iff_append.mp hfind
      refine ⟨⟨rule, hread, rfl⟩, (of_decide_eq_true happlies).2, ?_⟩
      rw [takeWhile_eq hpage]
      intro other hother _ happlies
      have hno := hbefore other hother
      rw [decide_eq_true ⟨active_of_mem_page (hpage ▸ List.mem_append_left _ hother), happlies⟩] at hno
      cases hno

end Selecting

/-- A payment is routed by the rule that is selected for it exactly when that rule is reached. -/
theorem routePayment_selects_iff (host : Host) (table : RuleTable) (context : List (String × Json))
    (clientOrg : Option String) :
    (routePayment host table context clientOrg).appliedRule =
        (selected host table context clientOrg).map RoutingRule.applied ↔
      Reached host table context clientOrg := by
  rw [reached_iff, routePayment, evaluateRules, evaluateFrom_applied]
  constructor
  · intro happlied
    cases hfind : (getRules table clientOrg true 50 0).find? (fun rule =>
        decide (rule.active = true ∧ Applicable host context rule)) with
    | none =>
      rw [hfind, Option.map_none] at happlied
      exact (Option.map_eq_none_iff.mp happlied.symm).symm
    | some rule =>
      rw [hfind, Option.map_some] at happlied
      obtain ⟨other, hselected, happlied⟩ := Option.map_eq_some_iff.mp happlied.symm
      rw [hselected, eq_of_id table (mem_of_mem_page (List.mem_of_find?_eq_some hfind))
        (List.mem_of_find?_eq_some hselected) (congrArg AppliedRule.id happlied).symm]
  · intro hfind
    rw [hfind]

section Samples

def sampleHost : Host where
  isNumber _ := false
  parseFloat _ := ((0 : ℚ) : Number)
  regex _ _ := none
  inherits _ _ := false
  spreadText _ := []
  now := ""

def sampleRule (id : String) (clientOrg : Option String) (conditions : Json) : RoutingRule where
  id := id
  name := id
  priority := 0
  active := true
  clientOrg := clientOrg
  conditions := conditions
  actions := .object [("route", .string id)]
  createdAt := 0

def hasAmount : Json :=
  .object [("field", .string "amount"), ("operator", .string "exists"), ("value", .bool true)]

def hasMemo : Json :=
  .object [("field", .string "memo"), ("operator", .string "exists"), ("value", .bool true)]

def samplePayment : List (String × Json) := [("amount", .string "5")]

def foreignTable : RuleTable where
  rules := [sampleRule "acme" (some "acme") hasAmount]
  ids := by decide

def longTable : RuleTable where
  rules := (List.range 50).map (fun n => sampleRule (toString n) none hasMemo) ++
    [sampleRule "last" none hasAmount]
  ids := by decide +kernel

end Samples

/-- A rule of another organisation is applied, and the fifty-first rule is missed. -/
theorem foreign_applied_own_missed :
    (routePayment sampleHost foreignTable samplePayment none).appliedRule ≠
        (selected sampleHost foreignTable samplePayment none).map RoutingRule.applied ∧
      (routePayment sampleHost longTable samplePayment (some "acme")).appliedRule ≠
        (selected sampleHost longTable samplePayment (some "acme")).map RoutingRule.applied := by
  have hids {a b : Option AppliedRule} (h : a.map AppliedRule.id ≠ b.map AppliedRule.id) : a ≠ b :=
    fun heq => h (heq ▸ rfl)
  exact ⟨hids (by decide +kernel), hids (by decide +kernel)⟩

end StellarTags.Routing
