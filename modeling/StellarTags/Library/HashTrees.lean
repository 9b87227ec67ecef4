import Mathlib.Algebra.Order.Group.Nat
import Mathlib.Data.List.Induction
import Mathlib.Data.List.Nodup
import Mathlib.Tactic.Common

/-! Binary trees over a list that is folded up layer by layer, an odd layer with its last node
twice; what the value at the top says about the list. -/

namespace StellarTags.Library.HashTrees

variable {α β γ : Type} {combine : β → β → β}

section Layers

variable {layer : List β}

def nextLayer (combine : β → β → β) : List β → List β
  | [] => []
  | [last] => [combine last last]
  | left :: right :: layer => combine left right :: nextLayer combine layer

/-- The layers over a layer, it included. There are fewer than its nodes. -/
def layersFrom (combine : β → β → β) : ℕ → List β → List (List β)
  | 0, layer => [layer]
  | fuel + 1, layer =>
    if 1 < layer.length then layer :: layersFrom combine fuel (nextLayer combine layer)
    else [layer]

def layers (combine : β → β → β) (layer : List β) : List (List β) :=
  layersFrom combine layer.length layer

def top (combine : β → β → β) (layer : List β) : Option β :=
  (layers combine layer).getLast?.bind List.head?

@[simp] lemma length_nextLayer (combine : β → β → β) (layer : List β) :
    (nextLayer combine layer).length = (layer.length + 1) / 2 := by
  induction layer using nextLayer.induct with
  | case1 => simp [nextLayer]
  | case2 => simp [nextLayer]
  | case3 left right layer ih =>
    simp only [nextLayer, List.length_cons, ih]
    omega

lemma layersFrom_of_le (combine : β → β → β) {fuel : ℕ} (h : layer.length ≤ fuel) :
    layersFrom combine fuel layer = layers combine layer := by
  unfold layers
  generalize hn : layer.length = n at h
  induction n using Nat.strong_induction_on generalizing fuel layer with
  | _ n ih =>
    subst hn
    by_cases hlong : 1 < layer.length
    · obtain ⟨fuel, rfl⟩ : ∃ k, fuel = k + 1 := ⟨fuel - 1, by omega⟩
      obtain ⟨m, hm⟩ : ∃ m, layer.length = m + 1 := ⟨layer.length - 1, by omega⟩
      have hshort : (nextLayer combine layer).length < layer.length := by
        rw [length_nextLayer]
        omega
      rw [hm, layersFrom, if_pos hlong, layersFrom, if_pos hlong,
        ih _ hshort rfl (by omega : _ ≤ fuel), ih _ hshort rfl (by omega : _ ≤ m)]
    · cases fuel with
      | zero => rw [Nat.le_zero.mp h]
      | succ fuel =>
        cases hm : layer.length with
        | zero => simp [layersFrom, hm]
        | succ m => simp [layersFrom, hlong]

lemma layers_of_short (h : layer.length ≤ 1) : layers combine layer = [layer] := by
  unfold layers
  match layer with
  | [] => rfl
  | [a] => rfl

lemma layers_of_long (h : 1 < layer.length) :
    layers combine layer = layer :: layers combine (nextLayer combine layer) := by
  have hfuel : (nextLayer combine layer).length ≤ layer.length - 1 := by
    rw [length_nextLayer]
    omega
  obtain ⟨m, hm⟩ : ∃ m, layer.length = m + 1 := ⟨layer.length - 1, by omega⟩
  rw [layers, hm, layersFrom, if_pos h, layersFrom_of_le combine (by omega)]

lemma layers_ne_nil (combine : β → β → β) (layer : List β) : layers combine layer ≠ [] := by
  by_cases h : 1 < layer.length
  · simp [layers_of_long h]
  · simp [layers_of_short (by omega : layer.length ≤ 1)]

@[simp] lemma top_nil : top combine [] = none := rfl

@[simp] lemma top_singleton (a : β) : top combine [a] = some a := rfl

lemma top_of_long (h : 1 < layer.length) :
    top combine layer = top combine (nextLayer combine layer) := by
  unfold top
  rw [layers_of_long h, List.getLast?_cons_of_ne_nil (layers_ne_nil _ _)]

/-- A property of a layer and its top follows if one layer hands it down to the layer below. -/
lemma layer_induction (combine : β → β → β) {P : List β → Prop} (nil : P []) (one : ∀ a, P [a])
    (more : ∀ layer, 1 < layer.length → P (nextLayer combine layer) → P layer) (layer : List β) :
    P layer := by
  generalize hn : layer.length = n
  induction n using Nat.strong_induction_on generalizing layer with
  | _ n ih =>
    match layer with
    | [] => exact nil
    | [a] => exact one a
    | a :: b :: layer =>
      subst hn
      apply more _ (by simp)
      apply ih _ _ _ rfl
      simp only [nextLayer, List.length_cons, length_nextLayer]
      omega

lemma exists_top (combine : β → β → β) (h : layer ≠ []) : ∃ a, top combine layer = some a := by
  induction layer using layer_induction combine with
  | nil => exact absurd rfl h
  | one a => exact ⟨a, rfl⟩
  | more layer hlong ih =>
    rw [top_of_long hlong]
    apply ih
    apply List.ne_nil_of_length_pos
    rw [length_nextLayer]
    omega

lemma mem_nextLayer {P : β → Prop} (hjoin : ∀ a b, P a → P b → P (combine a b))
    (h : ∀ a ∈ layer, P a) : ∀ a ∈ nextLayer combine layer, P a := by
  induction layer using nextLayer.induct with
  | case1 => exact h
  | case2 last =>
    intro a ha
    obtain rfl := List.mem_singleton.mp ha
    exact hjoin _ _ (h _ (by simp)) (h _ (by simp))
  | case3 left right layer ih =>
    intro a ha
    obtain rfl | ha := List.mem_cons.mp ha
    · exact hjoin _ _ (h _ (by simp)) (h _ (by simp))
    · exact ih (fun b hb => h b (by simp [hb])) a ha

lemma top_induction {P : β → Prop} (hjoin : ∀ a b, P a → P b → P (combine a b))
    (h : ∀ a ∈ layer, P a) {a : β} (ha : top combine layer = some a) : P a := by
  induction layer using layer_induction combine with
  | nil => cases ha
  | one b =>
    obtain rfl := Option.some.inj ha
    exact h _ (by simp)
  | more layer hlong ih =>
    rw [top_of_long hlong] at ha
    exact ih (mem_nextLayer hjoin h) ha

lemma nextLayer_map {other : γ → γ → γ} {f : β → γ}
    (hf : ∀ a b, f (combine a b) = other (f a) (f b)) (layer : List β) :
    nextLayer other (layer.map f) = (nextLayer combine layer).map f := by
  induction layer using nextLayer.induct with
  | case1 => rfl
  | case2 last => simp [nextLayer, hf]
  | case3 left right layer ih => simp [nextLayer, hf, ih]

lemma top_map {other : γ → γ → γ} {f : β → γ} (hf : ∀ a b, f (combine a b) = other (f a) (f b))
    (layer : List β) : top other (layer.map f) = (top combine layer).map f := by
  induction layer using layer_induction combine with
  | nil => rfl
  | one a => rfl
  | more layer hlong ih =>
    rw [top_of_long (by simpa using hlong), nextLayer_map hf, ih, top_of_long hlong]

end Layers

section Paths

variable {layer : List β} {a b : β} {i : ℕ}

/-- Where the sibling stands. -/
inductive Side
  | left
  | right
  deriving DecidableEq, Repr

def Side.join (combine : β → β → β) : Side → β → β → β
  | .left, sibling, a => combine sibling a
  | .right, sibling, a => combine a sibling

def climb (combine : β → β → β) (a : β) (path : List (Side × β)) : β :=
  path.foldl (fun a step => step.1.join combine step.2 a) a

@[simp] lemma climb_nil (combine : β → β → β) (a : β) : climb combine a [] = a := rfl

@[simp] lemma climb_cons (combine : β → β → β) (a : β) (step : Side × β) (path : List (Side × β)) :
    climb combine a (step :: path) = climb combine (step.1.join combine step.2 a) path := rfl

@[simp] lemma climb_snoc (combine : β → β → β) (a : β) (path : List (Side × β)) (step : Side × β) :
    climb combine a (path ++ [step]) = step.1.join combine step.2 (climb combine a path) := by
  simp [climb]

def sideOf (i : ℕ) : Side := if i % 2 = 1 then .left else .right

/-- A last node without a partner is its own. -/
def siblingOf (layer : List β) (i : ℕ) : Option β :=
  if i % 2 = 1 then layer[i - 1]? else layer[i + 1]?.or layer[i]?

def pathOf : List (List β) → ℕ → List (Side × β)
  | layer :: upper :: layers, i =>
    (siblingOf layer i).toList.map (sideOf i, ·) ++ pathOf (upper :: layers) (i / 2)
  | _, _ => []

lemma getElem?_nextLayer (combine : β → β → β) (ha : layer[i]? = some a) :
    ∃ b, siblingOf layer i = some b ∧
      (nextLayer combine layer)[i / 2]? = some ((sideOf i).join combine b a) := by
  induction layer using nextLayer.induct generalizing i with
  | case1 => simp at ha
  | case2 last =>
    obtain ⟨hi, rfl⟩ : i = 0 ∧ last = a := by
      cases i with
      | zero => simpa using ha
      | succ i => simp at ha
    subst hi
    exact ⟨last, rfl, rfl⟩
  | case3 left right layer ih =>
    match i with
    | 0 =>
      obtain rfl : left = a := by simpa using ha
      exact ⟨right, rfl, rfl⟩
    | 1 =>
      obtain rfl : right = a := by simpa using ha
      exact ⟨left, rfl, rfl⟩
    | i + 2 =>
      obtain ⟨b, hb, hnext⟩ := ih (by simpa using ha)
      have hside : sideOf (i + 2) = sideOf i := by simp [sideOf]
      refine ⟨b, ?_, ?_⟩
      · rw [← hb]
        unfold siblingOf
        rw [Nat.add_mod_right]
        split
        · rw [show i + 2 - 1 = (i - 1) + 1 + 1 by omega]
          simp
        · simp
      · rw [hside, Nat.add_div_right _ (by omega)]
        simpa [nextLayer] using hnext

lemma top_eq_climb (ha : layer[i]? = some a) :
    top combine layer = some (climb combine a (pathOf (layers combine layer) i)) := by
  induction layer using layer_induction combine generalizing i a with
  | nil => simp at ha
  | one b =>
    cases i with
    | zero => simpa [layers_of_short, pathOf] using ha
    | succ i => simp at ha
  | more layer hlong ih =>
    obtain ⟨b, hb, hnext⟩ := getElem?_nextLayer combine ha
    rw [top_of_long hlong, ih hnext, layers_of_long hlong]
    obtain ⟨upper, rest, hl⟩ := List.exists_cons_of_ne_nil
      (layers_ne_nil combine (nextLayer combine layer))
    rw [hl, pathOf, hb]
    rfl

end Paths

section Trees

inductive HashTree (α : Type)
  | leaf (a : α)
  | node (left right : HashTree α)
  deriving DecidableEq, Repr

namespace HashTree

def eval (f : α → β) (combine : β → β → β) : HashTree α → β
  | leaf a => f a
  | node left right => combine (left.eval f combine) (right.eval f combine)

def leaves : HashTree α → List α
  | leaf a => [a]
  | node left right => left.leaves ++ right.leaves

/-- The pairs that are joined on the way up. -/
def joins (f : α → β) (combine : β → β → β) : HashTree α → List (β × β)
  | leaf _ => []
  | node left right =>
    (left.eval f combine, right.eval f combine) :: (left.joins f combine ++ right.joins f combine)

inductive Perfect : ℕ → HashTree α → Prop
  | leaf (a : α) : Perfect 0 (leaf a)
  | node {d : ℕ} {left right : HashTree α} : Perfect d left → Perfect d right →
      Perfect (d + 1) (node left right)

/-- Equal up to the order of the two halves of nodes. -/
inductive Same : HashTree α → HashTree α → Prop
  | leaf (a : α) : Same (leaf a) (leaf a)
  | straight {l r l' r' : HashTree α} : Same l l' → Same r r' → Same (node l r) (node l' r')
  | crossed {l r l' r' : HashTree α} : Same l r' → Same r l' → Same (node l r) (node l' r')

end HashTree

/-- The tree over a list, by the folding of its layers. -/
def tree (l : List α) : Option (HashTree α) := top .node (l.map .leaf)

/-- The leaves of the tree: the list, and what odd layers repeat. -/
def complete (l : List α) : List α := (tree l).elim [] HashTree.leaves

variable {l l' : List α} {t t' : HashTree α} {f : α → β} {d d' : ℕ}

lemma top_eq_eval (f : α → β) (combine : β → β → β) (l : List α) :
    top combine (l.map f) = (tree l).map (HashTree.eval f combine) := by
  rw [tree, ← top_map (fun _ _ => rfl), List.map_map]
  rfl

lemma exists_tree (h : l ≠ []) : ∃ t, tree l = some t := exists_top _ (by simpa using h)

namespace HashTree

lemma Perfect.length_leaves (h : Perfect d t) : t.leaves.length = 2 ^ d := by
  induction h with
  | leaf a => rfl
  | node _ _ ihl ihr =>
    rw [leaves, List.length_append, ihl, ihr]
    omega

lemma Perfect.ext (h : Perfect d t) (h' : Perfect d' t') (hleaves : t.leaves = t'.leaves) :
    t = t' := by
  have hd : d = d' := by
    apply Nat.pow_right_injective le_rfl
    change 2 ^ d = 2 ^ d'
    rw [← h.length_leaves, ← h'.length_leaves, hleaves]
  subst hd
  induction h generalizing t' with
  | leaf a =>
    cases h' with
    | leaf b => simpa [leaves] using hleaves
  | node hl hr ihl ihr =>
    cases h' with
    | node hl' hr' =>
      obtain ⟨hleft, hright⟩ :=
        List.append_inj hleaves (hl.length_leaves.trans hl'.length_leaves.symm)
      rw [ihl hleft hl', ihr hright hr']

lemma eval_induction {P : β → Prop} (hleaf : ∀ a ∈ t.leaves, P (f a))
    (hjoin : ∀ a b, P a → P b → P (combine a b)) : P (t.eval f combine) := by
  induction t with
  | leaf a => exact hleaf a (by simp [leaves])
  | node l r ihl ihr =>
    simp only [leaves, List.mem_append] at hleaf
    exact hjoin _ _ (ihl fun a ha => hleaf a (.inl ha)) (ihr fun a ha => hleaf a (.inr ha))

lemma joins_induction {P : β → Prop} (hleaf : ∀ a ∈ t.leaves, P (f a))
    (hjoin : ∀ a b, P a → P b → P (combine a b)) {p : β × β} (hp : p ∈ t.joins f combine) :
    P p.1 ∧ P p.2 := by
  induction t with
  | leaf a => cases hp
  | node l r ihl ihr =>
    simp only [leaves, List.mem_append] at hleaf
    have hl (a : α) (ha : a ∈ l.leaves) : P (f a) := hleaf a (.inl ha)
    have hr (a : α) (ha : a ∈ r.leaves) : P (f a) := hleaf a (.inr ha)
    obtain rfl | hp := List.mem_cons.mp hp
    · exact ⟨eval_induction hl hjoin, eval_induction hr hjoin⟩
    · exact (List.mem_append.mp hp).elim (ihl hl) (ihr hr)

/-- No leaf passes for a join, and leaves and joins can be told from their values: then the value
determines the tree. -/
lemma eval_injective (hleaf : ∀ a ∈ t.leaves, ∀ b ∈ t'.leaves, f a = f b → a = b)
    (hjoin : ∀ p ∈ t.joins f combine, ∀ q ∈ t'.joins f combine,
      combine p.1 p.2 = combine q.1 q.2 → p = q)
    (hleft : ∀ a ∈ t.leaves, ∀ q ∈ t'.joins f combine, f a ≠ combine q.1 q.2)
    (hright : ∀ p ∈ t.joins f combine, ∀ b ∈ t'.leaves, combine p.1 p.2 ≠ f b)
    (h : t.eval f combine = t'.eval f combine) : t = t' := by
  induction t generalizing t' with
  | leaf a =>
    cases t' with
    | leaf b => rw [hleaf a (by simp [leaves]) b (by simp [leaves]) h]
    | node l' r' => exact absurd h (hleft a (by simp [leaves]) _ (List.mem_cons_self ..))
  | node l r ihl ihr =>
    cases t' with
    | leaf b => exact absurd h (hright _ (List.mem_cons_self ..) b (by simp [leaves]))
    | node l' r' =>
      have hpair := hjoin _ (List.mem_cons_self ..) _ (List.mem_cons_self ..) h
      obtain ⟨hl, hr⟩ := Prod.mk.inj hpair
      simp only [leaves, joins, List.mem_append, List.mem_cons] at hleaf hjoin hleft hright
      rw [ihl (fun a ha b hb => hleaf a (.inl ha) b (.inl hb))
          (fun p hp q hq => hjoin p (.inr (.inl hp)) q (.inr (.inl hq)))
          (fun a ha q hq => hleft a (.inl ha) q (.inr (.inl hq)))
          (fun p hp b hb => hright p (.inr (.inl hp)) b (.inl hb)) hl,
        ihr (fun a ha b hb => hleaf a (.inr ha) b (.inr hb))
          (fun p hp q hq => hjoin p (.inr (.inr hp)) q (.inr (.inr hq)))
          (fun a ha q hq => hleft a (.inr ha) q (.inr (.inr hq)))
          (fun p hp b hb => hright p (.inr (.inr hp)) b (.inr hb)) hr]

lemma Same.eval {op : β → β → β} (hop : ∀ a b, op a b = op b a) (h : Same t t') :
    t.eval f op = t'.eval f op := by
  induction h with
  | leaf a => rfl
  | straight _ _ ihl ihr => rw [HashTree.eval, ihl, ihr, HashTree.eval]
  | crossed _ _ ihl ihr => rw [HashTree.eval, ihl, ihr, hop, HashTree.eval]

/-- Joins that can be told up to their order determine the tree up to the order of halves. -/
lemma same_of_eval (ht : Perfect d t) (ht' : Perfect d t') (hleaf : Function.Injective f)
    (hjoin : ∀ p ∈ t.joins f combine, ∀ q ∈ t'.joins f combine,
      combine p.1 p.2 = combine q.1 q.2 → p = q ∨ p = q.swap)
    (h : t.eval f combine = t'.eval f combine) : Same t t' := by
  induction ht generalizing t' with
  | leaf a =>
    cases ht' with
    | leaf b =>
      rw [hleaf h]
      exact .leaf b
  | @node d l r hl hr ihl ihr =>
    cases ht' with
    | @node _ l' r' hl' hr' =>
      have hpair := hjoin _ (List.mem_cons_self ..) _ (List.mem_cons_self ..) h
      simp only [joins, List.mem_append, List.mem_cons] at hjoin
      obtain hpair | hpair := hpair
      · obtain ⟨hleft, hright⟩ := Prod.mk.inj hpair
        exact .straight (ihl hl' (fun p hp q hq => hjoin p (.inr (.inl hp)) q (.inr (.inl hq))) hleft)
          (ihr hr' (fun p hp q hq => hjoin p (.inr (.inr hp)) q (.inr (.inr hq))) hright)
      · obtain ⟨hleft, hright⟩ := Prod.mk.inj hpair
        exact .crossed (ihl hr' (fun p hp q hq => hjoin p (.inr (.inl hp)) q (.inr (.inr hq))) hleft)
          (ihr hl' (fun p hp q hq => hjoin p (.inr (.inr hp)) q (.inr (.inl hq))) hright)

end HashTree

lemma complete_eq_top (l : List α) : complete l = (top (· ++ ·) (l.map ([·]))).getD [] := by
  have heval (t : HashTree α) : t.eval ([·]) (· ++ ·) = t.leaves := by
    induction t with
    | leaf a => rfl
    | node l r ihl ihr => rw [HashTree.eval, ihl, ihr, HashTree.leaves]
  rw [top_eq_eval, complete]
  cases tree l with
  | none => rfl
  | some t => exact (heval t).symm

lemma complete_of_tree (h : tree l = some t) : complete l = t.leaves := by rw [complete, h]; rfl

lemma complete_map (g : α → β) (l : List α) : complete (l.map g) = (complete l).map g := by
  have hl : (l.map g).map ([·]) = (l.map ([·])).map (List.map g) := by simp
  rw [complete_eq_top, complete_eq_top, hl, top_map (fun _ _ => List.map_append)]
  cases top (· ++ ·) (l.map ([·])) <;> rfl

lemma length_complete (h : l.length = l'.length) :
    (complete l).length = (complete l').length := by
  have hunits : l.map (fun _ => ()) = l'.map (fun _ => ()) := by simp [List.map_const', h]
  have hcomplete := congrArg List.length (congrArg complete hunits)
  simpa only [complete_map, List.length_map] using hcomplete

lemma mem_of_mem_complete {a : α} (h : a ∈ complete l) : a ∈ l := by
  obtain hnil | hcons := eq_or_ne l []
  · subst hnil
    exact h
  obtain ⟨t, ht⟩ := exists_tree hcons
  rw [complete_of_tree ht] at h
  refine top_induction (P := fun t => ∀ a ∈ t.leaves, a ∈ l) ?_ ?_ ht a h
  · intro left right hleft hright a ha
    exact (List.mem_append.mp ha).elim (hleft a) (hright a)
  · intro t ht
    obtain ⟨b, hb, rfl⟩ := List.mem_map.mp ht
    intro a ha
    rwa [List.mem_singleton.mp ha]

lemma prefix_complete (l : List α) : l <+: complete l := by
  have hlayer (layer : List (List α)) :
      layer.flatten <+: (nextLayer (· ++ ·) layer).flatten := by
    induction layer using nextLayer.induct with
    | case1 => exact List.prefix_rfl
    | case2 last => simp [nextLayer]
    | case3 left right layer ih =>
      simp only [nextLayer, List.flatten_cons, ← List.append_assoc]
      exact (List.prefix_append_right_inj _).mpr ih
  have htop (layer : List (List α)) : layer.flatten <+: (top (· ++ ·) layer).getD [] := by
    induction layer using layer_induction fun a b : List α => a ++ b with
    | nil => exact List.prefix_rfl
    | one a => simp
    | more layer hlong ih =>
      rw [top_of_long hlong]
      exact (hlayer layer).trans ih
  have hl := htop (l.map ([·]))
  rwa [← complete_eq_top, ← List.flatMap_def, List.flatMap_singleton'] at hl

lemma eq_of_complete (hlength : l.length = l'.length) (h : complete l = complete l') : l = l' := by
  rw [List.prefix_iff_eq_take.mp (prefix_complete l), hlength, h,
    ← List.prefix_iff_eq_take.mp (prefix_complete l')]

lemma eq_of_complete_of_nodup (hl : l.Nodup) (hl' : l'.Nodup) (h : complete l = complete l') :
    l = l' := by
  have hpart {l l' : List α} (hl' : l'.Nodup) (h : complete l = complete l') (hp : l <+: l') :
      l = l' := by
    obtain ⟨more, rfl⟩ := hp
    cases more with
    | nil => simp
    | cons a more =>
      have ha : a ∈ complete l := by
        rw [h]
        exact (prefix_complete _).subset (by simp)
      exact absurd (mem_of_mem_complete ha) fun hmem =>
        (List.nodup_append.mp hl').2.2 a hmem a (by simp) rfl
  obtain hp | hp := List.prefix_or_prefix_of_prefix (prefix_complete l)
    (h ▸ prefix_complete l')
  · exact hpart hl' h hp
  · exact (hpart hl h.symm hp).symm

lemma exists_perfect (h : tree l = some t) : ∃ d, t.Perfect d := by
  have hlayer (layer : List (HashTree α)) (d : ℕ) (hd : ∀ t ∈ layer, t.Perfect d) :
      ∀ t, top .node layer = some t → ∃ d, t.Perfect d := by
    induction layer using layer_induction HashTree.node generalizing d with
    | nil => simp
    | one a =>
      intro t ht
      obtain rfl := Option.some.inj ht
      exact ⟨d, hd _ (by simp)⟩
    | more layer hlong ih =>
      intro t ht
      rw [top_of_long hlong] at ht
      have hnext : ∀ t ∈ nextLayer HashTree.node layer, t.Perfect (d + 1) := by
        clear ih ht hlong
        induction layer using nextLayer.induct with
        | case1 => simp [nextLayer]
        | case2 last => simpa [nextLayer] using HashTree.Perfect.node (hd _ (by simp)) (hd _ (by simp))
        | case3 left right layer ih =>
          intro t ht
          obtain rfl | ht := List.mem_cons.mp ht
          · exact .node (hd _ (by simp)) (hd _ (by simp))
          · exact ih (fun t ht => hd t (by simp [ht])) t ht
      exact ih (d + 1) hnext t ht
  refine hlayer _ 0 (fun t ht => ?_) t h
  obtain ⟨a, -, rfl⟩ := List.mem_map.mp ht
  exact .leaf a

/-- Trees are the same exactly where their lists complete to the same list. -/
lemma tree_eq_iff (ht : tree l = some t) (ht' : tree l' = some t') :
    t = t' ↔ complete l = complete l' := by
  obtain ⟨d, hd⟩ := exists_perfect ht
  obtain ⟨d', hd'⟩ := exists_perfect ht'
  rw [complete_of_tree ht, complete_of_tree ht']
  exact ⟨congrArg _, hd.ext hd'⟩

lemma exists_perfect_pair (hlength : l.length = l'.length) (ht : tree l = some t)
    (ht' : tree l' = some t') : ∃ d, t.Perfect d ∧ t'.Perfect d := by
  obtain ⟨d, hd⟩ := exists_perfect ht
  obtain ⟨d', hd'⟩ := exists_perfect ht'
  have hpow : 2 ^ d = 2 ^ d' := by
    rw [← hd.length_leaves, ← hd'.length_leaves, ← complete_of_tree ht, ← complete_of_tree ht',
      length_complete hlength]
  rw [Nat.pow_right_injective le_rfl hpow] at hd
  exact ⟨d', hd, hd'⟩

end Trees

section Verification

variable {f : α → β} {t : HashTree α} {a : β} {path : List (Side × β)}

def Side.pair : Side → β → β → β × β
  | .left, sibling, a => (sibling, a)
  | .right, sibling, a => (a, sibling)

lemma Side.join_eq (side : Side) (sibling a : β) :
    side.join combine sibling a =
      combine (side.pair sibling a).1 (side.pair sibling a).2 := by
  cases side <;> rfl

def joinsOf (combine : β → β → β) : β → List (Side × β) → List (β × β)
  | _, [] => []
  | a, step :: path =>
    step.1.pair step.2 a :: joinsOf combine (step.1.join combine step.2 a) path

lemma joinsOf_snoc (combine : β → β → β) (a : β) (path : List (Side × β)) (step : Side × β) :
    joinsOf combine a (path ++ [step]) =
      joinsOf combine a path ++ [step.1.pair step.2 (climb combine a path)] := by
  induction path generalizing a with
  | nil => rfl
  | cons first path ih =>
    rw [List.cons_append, joinsOf, ih, joinsOf, List.cons_append, climb_cons]

/-- Whatever path leads to the top of a tree started at one of its leaves: the last join of the path
is the top one of the tree, up to the order of its halves, and so on down. -/
lemma mem_leaves_of_climb
    (hjoin : ∀ p ∈ joinsOf combine a path, ∀ q ∈ t.joins f combine,
      combine p.1 p.2 = combine q.1 q.2 → p = q ∨ p = q.swap)
    (hstart : ∀ q ∈ t.joins f combine, a ≠ combine q.1 q.2)
    (hleaf : ∀ p ∈ joinsOf combine a path, ∀ b ∈ t.leaves, combine p.1 p.2 ≠ f b)
    (h : climb combine a path = t.eval f combine) : ∃ b ∈ t.leaves, a = f b := by
  induction path using List.reverseRecOn generalizing t with
  | nil =>
    cases t with
    | leaf b => exact ⟨b, by simp [HashTree.leaves], h⟩
    | node l r => exact absurd h (hstart _ (List.mem_cons_self ..))
  | append_singleton path step ih =>
    rw [climb_snoc, Side.join_eq] at h
    rw [joinsOf_snoc] at hjoin hleaf
    have hlast : step.1.pair step.2 (climb combine a path) ∈
        joinsOf combine a path ++ [step.1.pair step.2 (climb combine a path)] := by simp
    cases t with
    | leaf b => exact absurd h (hleaf _ hlast b (by simp [HashTree.leaves]))
    | node l r =>
      have hpair := hjoin _ hlast _ (List.mem_cons_self ..) h
      simp only [HashTree.leaves, HashTree.joins, List.mem_append, List.mem_cons] at hjoin hstart hleaf ⊢
      have hbelow : climb combine a path = l.eval f combine ∨
          climb combine a path = r.eval f combine := by
        obtain ⟨side, sibling⟩ := step
        obtain hpair | hpair := hpair
        · cases side with
          | left => exact .inr (Prod.mk.inj hpair).2
          | right => exact .inl (Prod.mk.inj hpair).1
        · cases side with
          | left => exact .inl (Prod.mk.inj hpair).2
          | right => exact .inr (Prod.mk.inj hpair).1
      obtain hl | hr := hbelow
      · obtain ⟨b, hb, ha⟩ := ih (t := l)
          (fun p hp q hq => hjoin p (.inl hp) q (.inr (.inl hq)))
          (fun q hq => hstart q (.inr (.inl hq))) (fun p hp b hb => hleaf p (.inl hp) b (.inl hb)) hl
        exact ⟨b, .inl hb, ha⟩
      · obtain ⟨b, hb, ha⟩ := ih (t := r)
          (fun p hp q hq => hjoin p (.inl hp) q (.inr (.inr hq)))
          (fun q hq => hstart q (.inr (.inr hq))) (fun p hp b hb => hleaf p (.inl hp) b (.inr hb)) hr
        exact ⟨b, .inr hb, ha⟩

end Verification

section Orders

/-- Where two elements of a list come to stand in its tree: side by side, or not. -/
inductive Mark
  | first
  | second
  | met
  | other
  deriving DecidableEq

def Mark.join : Mark → Mark → Mark
  | .first, .second | .second, .first | .met, _ | _, .met => .met
  | _, _ => .other

lemma Mark.join_comm (a b : Mark) : a.join b = b.join a := by cases a <;> cases b <;> rfl

lemma Mark.join_met (a : Mark) : a.join .met = .met := by cases a <;> rfl

lemma Mark.met_join (a : Mark) : Mark.met.join a = .met := by cases a <;> rfl

lemma top_met {layer : List Mark} (h : .met ∈ layer) : top Mark.join layer = some .met := by
  induction layer using layer_induction Mark.join with
  | nil => cases h
  | one a => rw [List.mem_singleton.mp h, top_singleton]
  | more layer hlong ih =>
    rw [top_of_long hlong]
    apply ih
    clear ih hlong
    induction layer using nextLayer.induct with
    | case1 => exact h
    | case2 last => simp [nextLayer, ← List.mem_singleton.mp h, Mark.join_met]
    | case3 left right layer ih =>
      simp only [List.mem_cons] at h
      obtain rfl | rfl | h := h
      · simp [nextLayer, Mark.met_join]
      · simp [nextLayer, Mark.join_met]
      · exact List.mem_cons_of_mem _ (ih h)

variable [DecidableEq α] {a b c : α} {rest : List α} {t t' : HashTree α}

/-- With another neighbour for its first element, a list of different elements has another tree. -/
lemma not_same_of_swap (hnodup : (a :: b :: c :: rest).Nodup)
    (ht : tree (a :: b :: c :: rest) = some t) (ht' : tree (a :: c :: b :: rest) = some t') :
    ¬ HashTree.Same t t' := by
  let mark (x : α) : Mark := if x = a then .first else if x = b then .second else .other
  simp only [List.nodup_cons, List.mem_cons, not_or] at hnodup
  obtain ⟨⟨hab, hac, ha⟩, ⟨hbc, hb⟩, -, -⟩ := hnodup
  have hmarka : mark a = .first := if_pos rfl
  have hmarkb : mark b = .second := by simp [mark, Ne.symm hab]
  have hmarkc : mark c = .other := by simp [mark, Ne.symm hac, Ne.symm hbc]
  have hmarks : ∀ m ∈ rest.map mark, m = .other := by
    intro m hm
    obtain ⟨x, hx, rfl⟩ := List.mem_map.mp hm
    have hxa : x ≠ a := fun h => ha (h ▸ hx)
    have hxb : x ≠ b := fun h => hb (h ▸ hx)
    simp [mark, hxa, hxb]
  have hmet : t.eval mark Mark.join = .met := by
    have htop := top_eq_eval mark Mark.join (a :: b :: c :: rest)
    rw [ht, top_of_long (by simp), List.map_cons, List.map_cons, hmarka, hmarkb,
      top_met (by simp [nextLayer, Mark.join])] at htop
    exact (Option.some.inj htop).symm
  have hapart : t'.eval mark Mark.join ≠ .met := by
    have htop := top_eq_eval mark Mark.join (a :: c :: b :: rest)
    rw [ht', top_of_long (by simp), List.map_cons, List.map_cons, List.map_cons, hmarka, hmarkb,
      hmarkc] at htop
    have hjoin (m n : Mark) (hm : m = .other ∨ m = .second) (hn : n = .other ∨ n = .second) :
        m.join n = .other ∨ m.join n = .second := by
      obtain rfl | rfl := hm <;> obtain rfl | rfl := hn <;> exact .inl rfl
    have hlayer : ∀ m ∈ Mark.second :: rest.map mark, m = .other ∨ m = .second := by
      intro m hm
      obtain rfl | hm := List.mem_cons.mp hm
      · exact .inr rfl
      · exact .inl (hmarks m hm)
    have hnext : ∀ m ∈ nextLayer Mark.join (.first :: .other :: .second :: rest.map mark),
        m = .other ∨ m = .second := by
      intro m hm
      obtain rfl | hm := List.mem_cons.mp hm
      · exact .inl rfl
      · exact mem_nextLayer hjoin hlayer m hm
    have hlast := top_induction hjoin hnext htop
    intro hmet
    rw [hmet] at hlast
    obtain h | h := hlast <;> cases h
  intro hsame
  rw [← hsame.eval Mark.join_comm] at hapart
  exact hapart hmet

end Orders

end StellarTags.Library.HashTrees
