import StellarTags.Library.Triples
import Mathlib.Data.List.Prime
import Mathlib.Data.ZMod.Basic
import Mathlib.FieldTheory.Finite.Basic
import Mathlib.NumberTheory.LucasPrimality
import Mathlib.Tactic

/-! Finite fields: primes that Lucas's test shows, and powers that permute the elements. -/

namespace StellarTags.Library.PrimeFields

/-- The power of `a` modulo `m`, for exponents of so many bits. -/
def powMod (m a : ℕ) : ℕ → ℕ → ℕ
  | 0, _ => 1 % m
  | bits + 1, n =>
    let root := powMod m a bits (n / 2)
    if n % 2 = 1 then root * root * a % m else root * root % m

lemma powMod_eq (m a : ℕ) {bits n : ℕ} (h : n < 2 ^ bits) : powMod m a bits n = a ^ n % m := by
  induction bits generalizing n with
  | zero =>
    obtain rfl : n = 0 := by simpa using h
    rw [powMod, pow_zero]
  | succ bits ih =>
    have hhalf : n / 2 < 2 ^ bits := by
      rw [pow_succ] at h
      omega
    have hsquare : powMod m a bits (n / 2) * powMod m a bits (n / 2) ≡ a ^ (n / 2 + n / 2) [MOD m] := by
      rw [ih hhalf, pow_add]
      exact (Nat.mod_modEq _ _).mul (Nat.mod_modEq _ _)
    rw [powMod]
    by_cases hodd : n % 2 = 1
    · rw [if_pos hodd]
      refine (hsquare.mul_right a).trans ?_
      rw [← pow_succ, show n / 2 + n / 2 + 1 = n by omega]
    · rw [if_neg hodd]
      refine hsquare.trans ?_
      rw [show n / 2 + n / 2 = n by omega]

/-- Lucas's test with the base `a`, for a prime whose predecessor has the given factorisation. -/
def lucas (p a bits : ℕ) (factors : List (ℕ × ℕ)) : Bool :=
  (factors.map fun f => f.1 ^ f.2).prod = p - 1 ∧ powMod p a bits (p - 1) = 1 ∧
    ∀ f ∈ factors, powMod p a bits ((p - 1) / f.1) ≠ 1

variable {p a : ℕ} {factors : List (ℕ × ℕ)}

lemma pow_eq_one_iff (hp : 1 < p) (n : ℕ) : (a : ZMod p) ^ n = 1 ↔ a ^ n % p = 1 := by
  have h := ZMod.natCast_eq_natCast_iff' (a ^ n) 1 p
  rwa [Nat.mod_eq_of_lt hp, Nat.cast_pow, Nat.cast_one] at h

theorem prime_of_lucas (a bits : ℕ) (hp : 1 < p) (hbits : p ≤ 2 ^ bits) (hf : ∀ f ∈ factors, f.1.Prime)
    (h : lucas p a bits factors = true) : p.Prime := by
  obtain ⟨hprod, hone, hne⟩ := of_decide_eq_true h
  have hpow (n : ℕ) (hn : n ≤ p - 1) : powMod p a bits n = a ^ n % p := powMod_eq p a (by omega)
  refine lucas_primality p a ?_ fun q hq hdvd => ?_
  · rw [pow_eq_one_iff hp, ← hpow _ le_rfl, hone]
  · rw [← hprod] at hdvd
    obtain ⟨x, hx, hqx⟩ := (Prime.dvd_prod_iff hq.prime).mp hdvd
    obtain ⟨f, hfm, rfl⟩ := List.mem_map.mp hx
    obtain rfl := (Nat.prime_dvd_prime_iff_eq hq (hf f hfm)).mp (hq.dvd_of_dvd_pow hqx)
    rw [ne_eq, pow_eq_one_iff hp, ← hpow _ (Nat.div_le_self _ _)]
    exact hne f hfm

/-- A power whose exponent is coprime to the number of units permutes the field. -/
theorem pow_bijective {F : Type} [Field F] [Finite F] {k : ℕ} (hk : k ≠ 0)
    (hcoprime : (Nat.card F - 1).Coprime k) : Function.Bijective fun x : F => x ^ k := by
  refine Finite.injective_iff_bijective.mp fun x y hxy => ?_
  have hpow : x ^ k = y ^ k := hxy
  rcases eq_or_ne x 0 with rfl | hx
  · rw [zero_pow hk, eq_comm] at hpow
    exact (eq_zero_of_pow_eq_zero hpow).symm
  · have hy : y ≠ 0 := by
      rintro rfl
      rw [zero_pow hk] at hpow
      exact hx (eq_zero_of_pow_eq_zero hpow)
    rw [← Nat.card_units] at hcoprime
    have hunits : Units.mk0 x hx = Units.mk0 y hy := by
      apply (Nat.Coprime.pow_left_bijective hcoprime).injective
      ext
      simpa using hpow
    simpa using congrArg Units.val hunits

end StellarTags.Library.PrimeFields

/-! Rank-one constraint systems, and the programs that lay them out and assign their variables. -/

namespace StellarTags.Library.ConstraintSystems

open Transactions Tx

inductive Variable : Type
  | one
  | input (i : ℕ)
  | witness (i : ℕ)
  deriving DecidableEq, Repr

abbrev Linear (p : ℕ) : Type := List (ZMod p × Variable)

structure Assignment (p : ℕ) where
  input : ℕ → ZMod p
  witness : ℕ → ZMod p

variable {p : ℕ}

def Assignment.value (w : Assignment p) : Variable → ZMod p
  | .one => 1
  | .input i => w.input i
  | .witness i => w.witness i

def bit (x : ZMod p) (i : ℕ) : ZMod p := if x.val.testBit i then 1 else 0

namespace Linear

def eval (w : Assignment p) (e : Linear p) : ZMod p := (e.map fun t => t.1 * w.value t.2).sum

def const (c : ZMod p) : Linear p := [(c, .one)]

def single (v : Variable) : Linear p := [(1, v)]

def add (a b : Linear p) : Linear p := a ++ b

def sub (a b : Linear p) : Linear p := a ++ b.map fun t => (-t.1, t.2)

variable (w : Assignment p) (a b : Linear p)

@[simp] lemma eval_const (c : ZMod p) : (const c).eval w = c := by
  simp [eval, const, Assignment.value]

@[simp] lemma eval_single (v : Variable) : (single v).eval w = w.value v := by
  simp [eval, single]

@[simp] lemma eval_nil : eval w ([] : Linear p) = 0 := rfl

@[simp] lemma eval_add : (a.add b).eval w = a.eval w + b.eval w := by
  simp [eval, add]

@[simp] lemma eval_sub : (a.sub b).eval w = a.eval w - b.eval w := by
  induction b with
  | nil => simp [eval, sub]
  | cons t b ih =>
    simp only [eval, sub, List.map_append, List.map_cons, List.sum_append, List.sum_cons] at ih ⊢
    rw [neg_mul, ← sub_sub, sub_right_comm, ← ih]
    ring

end Linear

/-- `digits` makes variables the binary digits of the least representative, the lowest one first. -/
inductive Constraint (p : ℕ) : Type
  | product (a b c : Linear p)
  | digits (a : Linear p) (bits : List Variable)

def Constraint.Holds (w : Assignment p) : Constraint p → Prop
  | .product a b c => a.eval w * b.eval w = c.eval w
  | .digits a bits => ∀ i v, bits[i]? = some v → w.value v = bit (a.eval w) i

/-- A set-up lays constraints out and assigns nothing; a prover assigns every variable. -/
structure System (p : ℕ) where
  proving : Bool
  inputs : List (Option (ZMod p))
  witnesses : List (Option (ZMod p))
  constraints : List (Constraint p)

def System.start (proving : Bool) : System p := ⟨proving, [], [], []⟩

inductive SynthesisError : Type
  | assignmentMissing
  deriving DecidableEq, Repr

abbrev Synthesis (p : ℕ) (α : Type) : Type := Tx (System p) SynthesisError α

def System.assigned (s : System p) : Variable → Option (ZMod p)
  | .one => some 1
  | .input i => s.inputs[i]?.join
  | .witness i => s.witnesses[i]?.join

def System.value (s : System p) : Linear p → Option (ZMod p)
  | [] => some 0
  | t :: e =>
    match s.assigned t.2, s.value e with
    | some x, some y => some (t.1 * x + y)
    | _, _ => none

section Programs

def given (f : System p → Option (ZMod p)) : Synthesis p (Option (ZMod p)) := do
  let s ← Tx.read id
  if s.proving then
    let x ← Tx.unwrap (f s) .assignmentMissing
    return some x
  else return none

def newWitness (f : System p → Option (ZMod p)) : Synthesis p Variable := do
  let x ← given f
  let n ← Tx.read fun s => s.witnesses.length
  Tx.update fun s => { s with witnesses := s.witnesses ++ [x] }
  return .witness n

def newInput (f : System p → Option (ZMod p)) : Synthesis p Variable := do
  let x ← given f
  let n ← Tx.read fun s => s.inputs.length
  Tx.update fun s => { s with inputs := s.inputs ++ [x] }
  return .input n

def enforce (c : Constraint p) : Synthesis p Unit :=
  Tx.update fun s => { s with constraints := s.constraints ++ [c] }

def mul (a b : Linear p) : Synthesis p (Linear p) := do
  let c ← newWitness fun s =>
    match s.value a, s.value b with
    | some x, some y => some (x * y)
    | _, _ => none
  enforce (.product a b (.single c))
  return .single c

def enforceEqual (a b : Linear p) : Synthesis p Unit :=
  enforce (.product (a.sub b) (.const 1) [])

def toBitsLe (size : ℕ) (a : Linear p) : Synthesis p (List Variable) := do
  let bits ← Tx.fold (fun bits i => do
    let b ← newWitness fun s => (s.value a).map (bit · i)
    return bits ++ [b]) [] (List.range size)
  enforce (.digits a bits)
  return bits

end Programs

def Satisfies (w : Assignment p) (s : System p) : Prop := ∀ c ∈ s.constraints, c.Holds w

section Soundness

/-- There are `k` inputs, and whatever satisfies the constraints so far has the property. -/
def Forces (k : ℕ) (R : Assignment p → Prop) (s : System p) : Prop :=
  s.inputs.length = k ∧ ∀ w, Satisfies w s → R w

variable {k : ℕ} {R : Assignment p → Prop} {f : System p → Option (ZMod p)} {a b : Linear p}

lemma given_ok {s t : System p} {x : Option (ZMod p)} (h : given f s = .ok (x, t)) : t = s := by
  rw [given, read_bind] at h
  by_cases hp : (id s).proving = true
  · rw [if_pos hp, unwrap_bind_ok] at h
    obtain ⟨y, -, h⟩ := h
    exact (pure_ok.mp h).2
  · rw [if_neg hp] at h
    exact (pure_ok.mp h).2

lemma newWitness_ok {s t : System p} {v : Variable} (h : newWitness f s = .ok (v, t)) :
    v = .witness s.witnesses.length ∧ ∃ x, t = { s with witnesses := s.witnesses ++ [x] } := by
  obtain ⟨x, u, hu, ht⟩ := bind_ok.mp h
  obtain rfl := given_ok hu
  rw [read_bind, update_bind, pure_ok] at ht
  exact ⟨ht.1, x, ht.2⟩

lemma newInput_ok {s t : System p} {v : Variable} (h : newInput f s = .ok (v, t)) :
    v = .input s.inputs.length ∧ ∃ x, t = { s with inputs := s.inputs ++ [x] } := by
  obtain ⟨x, u, hu, ht⟩ := bind_ok.mp h
  obtain rfl := given_ok hu
  rw [read_bind, update_bind, pure_ok] at ht
  exact ⟨ht.1, x, ht.2⟩

lemma newWitness_forces : Ensures (Forces k R) (newWitness f) fun _ => Forces k R := by
  intro s v t hs h
  obtain ⟨-, x, rfl⟩ := newWitness_ok h
  exact hs

lemma newInput_forces : Ensures (Forces k R) (newInput f) fun v s =>
    Forces (k + 1) R s ∧ v = .input k := by
  intro s v t hs h
  obtain ⟨hv, x, rfl⟩ := newInput_ok h
  exact ⟨⟨by simp [hs.1], hs.2⟩, by rw [hv, hs.1]⟩

lemma enforce_forces {c : Constraint p} :
    Ensures (Forces k R) (enforce c) fun _ => Forces k fun w => R w ∧ c.Holds w := by
  refine .update fun s hs => ⟨hs.1, fun w hw => ⟨hs.2 w fun d hd => hw d ?_, hw c ?_⟩⟩
  · exact List.mem_append_left _ hd
  · exact List.mem_append_right _ (List.mem_singleton_self c)

lemma Forces.weaken {R' : Assignment p → Prop} {s : System p} (h : Forces k R s)
    (hr : ∀ w, R w → R' w) : Forces k R' s := ⟨h.1, fun w hw => hr w (h.2 w hw)⟩

lemma mul_forces : Ensures (Forces k R) (mul a b) fun c =>
    Forces k fun w => R w ∧ c.eval w = a.eval w * b.eval w := by
  refine .bind newWitness_forces fun v => .bind enforce_forces fun _ => .pure fun s hs => ?_
  exact hs.weaken fun w hw => ⟨hw.1, hw.2.symm⟩

lemma enforceEqual_forces : Ensures (Forces k R) (enforceEqual a b) fun _ =>
    Forces k fun w => R w ∧ a.eval w = b.eval w := by
  refine enforce_forces.mono (fun s hs => hs) fun _ s hs => hs.weaken fun w hw => ⟨hw.1, ?_⟩
  have h : (a.sub b).eval w * (Linear.const 1).eval w = 0 := hw.2
  rw [Linear.eval_sub, Linear.eval_const, mul_one] at h
  exact sub_eq_zero.mp h

lemma toBitsLe_forces {size : ℕ} : Ensures (Forces k R) (toBitsLe size a) fun bits =>
    Forces k fun w => R w ∧ bits.length = size ∧
      ∀ i v, bits[i]? = some v → w.value v = bit (a.eval w) i := by
  have hfold (is : List ℕ) (n : ℕ) : ∀ bits : List Variable, bits.length = n →
      Ensures (Forces k R) (Tx.fold (fun bits i => do
        let b ← newWitness fun s => (s.value a).map (bit · i)
        return bits ++ [b]) bits is) fun bits s => Forces k R s ∧ bits.length = n + is.length := by
    induction is generalizing n with
    | nil => exact fun bits hb => .pure fun s hs => ⟨hs, by simpa using hb⟩
    | cons i is ih =>
      intro bits hb
      refine .bind (Q := fun bits s => Forces k R s ∧ bits.length = n + 1) ?_ fun bits => ?_
      · refine .bind newWitness_forces fun v => .pure fun s hs => ⟨hs, ?_⟩
        rw [List.length_append, hb, List.length_singleton]
      · refine .given fun hb => (ih (n + 1) bits hb).mono (fun s hs => hs) fun bits s hs => ⟨hs.1, ?_⟩
        rw [hs.2, List.length_cons, add_right_comm, add_assoc]
  refine .bind (hfold (List.range size) 0 [] rfl) fun bits => .given fun hb => ?_
  refine .bind enforce_forces fun _ => .pure fun s hs => hs.weaken fun w hw => ⟨hw.1, ?_, hw.2⟩
  rw [hb, List.length_range, zero_add]

lemma forEach_forces {α : Type} {φ : α → Assignment p → Prop} {body : α → Synthesis p Unit}
    (h : ∀ R a, Ensures (Forces k R) (body a) fun _ => Forces k fun w => R w ∧ φ a w)
    (as : List α) : Ensures (Forces k R) (Tx.forEach body as) fun _ =>
      Forces k fun w => R w ∧ ∀ a ∈ as, φ a w := by
  induction as generalizing R with
  | nil => exact .pure fun s hs => hs.weaken fun w hw => ⟨hw, by simp⟩
  | cons a as ih =>
    refine .bind (h R a) fun _ => ih.mono (fun s hs => hs) fun _ s hs => hs.weaken fun w hw => ?_
    exact ⟨hw.1.1, by simpa using ⟨hw.1.2, hw.2⟩⟩

/-- A fold of expressions computes the fold of their values. -/
lemma fold_forces {α : Type} {body : Linear p → α → Synthesis p (Linear p)}
    {g : ZMod p → α → ZMod p}
    (h : ∀ R b a, Ensures (Forces k R) (body b a) fun c =>
      Forces k fun w => R w ∧ c.eval w = g (b.eval w) a) (as : List α) :
    Ensures (Forces k R) (Tx.fold body b as) fun c =>
      Forces k fun w => R w ∧ c.eval w = as.foldl g (b.eval w) := by
  induction as generalizing R b with
  | nil => exact .pure fun s hs => hs.weaken fun w hw => ⟨hw, rfl⟩
  | cons a as ih =>
    refine .bind (h R b a) fun c => ih.mono (fun s hs => hs) fun d s hs => hs.weaken fun w hw => ?_
    exact ⟨hw.1.1, by rw [hw.2, hw.1.2, List.foldl_cons]⟩

end Soundness

section SetUps

/-- A set-up goes through, whatever it is given. -/
def SetsUp {α : Type} (m : Synthesis p α) : Prop :=
  ∀ s : System p, s.proving = false → ∃ a t, m s = .ok (a, t) ∧ t.proving = false

namespace SetsUp

variable {α β : Type} {f : System p → Option (ZMod p)} {a b : Linear p}

lemma pure (a : α) : SetsUp (Pure.pure a : Synthesis p α) := fun s hs => ⟨a, s, rfl, hs⟩

lemma bind {m : Synthesis p α} {g : α → Synthesis p β} (hm : SetsUp m) (hg : ∀ a, SetsUp (g a)) :
    SetsUp (m >>= g) := by
  intro s hs
  obtain ⟨a, t, hmt, ht⟩ := hm s hs
  obtain ⟨b, u, hgu, hu⟩ := hg a t ht
  exact ⟨b, u, by rw [bind_of_ok hmt, hgu], hu⟩

lemma fold {body : β → α → Synthesis p β} (h : ∀ b a, SetsUp (body b a)) (b : β) (as : List α) :
    SetsUp (Tx.fold body b as) := by
  induction as generalizing b with
  | nil => exact pure b
  | cons a as ih => exact bind (h b a) ih

lemma forEach {body : α → Synthesis p Unit} (h : ∀ a, SetsUp (body a)) (as : List α) :
    SetsUp (Tx.forEach body as) := by
  induction as with
  | nil => exact pure ()
  | cons a as ih => exact bind (h a) fun _ => ih

lemma given (s : System p) (hs : s.proving = false) : given f s = .ok (none, s) := by
  rw [ConstraintSystems.given, read_bind, if_neg (by simp [hs])]
  rfl

lemma newWitness : SetsUp (newWitness f) := by
  intro s hs
  refine ⟨.witness s.witnesses.length, { s with witnesses := s.witnesses ++ [none] }, ?_, hs⟩
  rw [ConstraintSystems.newWitness, bind_of_ok (given s hs)]
  rfl

lemma newInput : SetsUp (newInput f) := by
  intro s hs
  refine ⟨.input s.inputs.length, { s with inputs := s.inputs ++ [none] }, ?_, hs⟩
  rw [ConstraintSystems.newInput, bind_of_ok (given s hs)]
  rfl

lemma enforce (c : Constraint p) : SetsUp (enforce c) := fun _ hs => ⟨(), _, rfl, hs⟩

lemma mul : SetsUp (mul a b) := .bind newWitness fun _ => .bind (enforce _) fun _ => .pure _

lemma enforceEqual : SetsUp (enforceEqual a b) := enforce _

lemma toBitsLe {size : ℕ} : SetsUp (toBitsLe size a) :=
  .bind (.fold (fun _ _ => .bind newWitness fun _ => .pure _) _ _) fun _ =>
    .bind (enforce _) fun _ => .pure _

end SetsUp

end SetUps

section Completeness

variable {s t u : System p} {w : Assignment p} {a b : Linear p} {x y : ZMod p} {v : Variable}
  {f : System p → Option (ZMod p)}

/-- The assignment agrees with what the system has assigned. -/
def Reads (w : Assignment p) (s : System p) : Prop :=
  ∀ v x, s.assigned v = some x → w.value v = x

/-- Variables are added, and none is assigned again. -/
structure Grows (s t : System p) : Prop where
  proving : t.proving = s.proving
  inputs : s.inputs <+: t.inputs
  witnesses : s.witnesses <+: t.witnesses

/-- A prover whose constraints hold, whatever is assigned later. -/
structure Sound (s : System p) : Prop where
  proving : s.proving = true
  holds : ∀ w, Reads w s → Satisfies w s

/-- What the prover hands over, with `0` where nothing is assigned. -/
def System.reading (s : System p) : Assignment p :=
  ⟨fun i => (s.inputs[i]?.join).getD 0, fun i => (s.witnesses[i]?.join).getD 0⟩

lemma reads_reading (s : System p) : Reads s.reading s := by
  intro v x hv
  cases v with
  | one => exact Option.some.inj hv
  | input i =>
    have hv : s.inputs[i]?.join = some x := hv
    simp [System.reading, Assignment.value, hv]
  | witness i =>
    have hv : s.witnesses[i]?.join = some x := hv
    simp [System.reading, Assignment.value, hv]

lemma Grows.refl (s : System p) : Grows s s :=
  ⟨rfl, List.prefix_refl _, List.prefix_refl _⟩

lemma Grows.trans (hst : Grows s t) (htu : Grows t u) : Grows s u :=
  ⟨htu.proving.trans hst.proving, hst.inputs.trans htu.inputs, hst.witnesses.trans htu.witnesses⟩

lemma join_prefix {l k : List (Option (ZMod p))} (h : l <+: k) {i : ℕ} (hx : l[i]?.join = some x) :
    k[i]?.join = some x := by
  cases hl : l[i]? with
  | none => simp [hl] at hx
  | some o =>
    rw [hl] at hx
    obtain ⟨hi, rfl⟩ := List.getElem?_eq_some_iff.mp hl
    rwa [List.prefix_iff_getElem?.mp h i hi]

lemma Grows.assigned (h : Grows s t) (hv : s.assigned v = some x) : t.assigned v = some x := by
  cases v with
  | one => exact hv
  | input i => exact join_prefix h.inputs hv
  | witness i => exact join_prefix h.witnesses hv

lemma value_cons {e : ZMod p × Variable} (h : s.value (e :: a) = some x) :
    ∃ y z, s.assigned e.2 = some y ∧ s.value a = some z ∧ x = e.1 * y + z := by
  rw [System.value] at h
  cases hy : s.assigned e.2 with
  | none => simp [hy] at h
  | some y =>
    cases hz : s.value a with
    | none => simp [hy, hz] at h
    | some z => exact ⟨y, z, rfl, rfl, by simpa [hy, hz, eq_comm] using h⟩

lemma Grows.value (h : Grows s t) (ha : s.value a = some x) : t.value a = some x := by
  induction a generalizing x with
  | nil => exact ha
  | cons e a ih =>
    obtain ⟨y, z, hy, hz, rfl⟩ := value_cons ha
    rw [System.value, h.assigned hy, ih hz]

lemma Grows.reads (h : Grows s t) (hw : Reads w t) : Reads w s :=
  fun v x hv => hw v x (h.assigned hv)

lemma Reads.eval (hw : Reads w s) (ha : s.value a = some x) : a.eval w = x := by
  induction a generalizing x with
  | nil => exact Option.some.inj ha
  | cons e a ih =>
    obtain ⟨y, z, hy, hz, rfl⟩ := value_cons ha
    have htail := ih hz
    simp only [Linear.eval, List.map_cons, List.sum_cons] at htail ⊢
    rw [htail, hw e.2 y hy]

lemma value_append (ha : s.value a = some x) (hb : s.value b = some y) :
    s.value (a ++ b) = some (x + y) := by
  induction a generalizing x with
  | nil =>
    obtain rfl := Option.some.inj ha
    rwa [List.nil_append, zero_add]
  | cons e a ih =>
    obtain ⟨z, z', hz, hz', rfl⟩ := value_cons ha
    rw [List.cons_append, System.value, hz, ih hz', add_assoc]

lemma value_add (ha : s.value a = some x) (hb : s.value b = some y) :
    s.value (a.add b) = some (x + y) := value_append ha hb

lemma value_const (c : ZMod p) : s.value (.const c) = some c := by
  simp [Linear.const, System.value, System.assigned]

lemma value_single (h : s.assigned v = some x) : s.value (.single v) = some x := by
  simp [Linear.single, System.value, h]

/-- The program goes through, with every constraint met, and ends in `Q`. -/
def Completes {α : Type} (s : System p) (m : Synthesis p α) (Q : α → System p → Prop) : Prop :=
  ∃ a t, m s = .ok (a, t) ∧ Grows s t ∧ Sound t ∧ Q a t

namespace Completes

variable {α β : Type} {Q Q' : α → System p → Prop} {S : β → System p → Prop}

lemma pure (hs : Sound s) {a : α} (h : Q a s) : Completes s (Pure.pure a) Q :=
  ⟨a, s, rfl, .refl s, hs, h⟩

lemma mono {m : Synthesis p α} (h : Completes s m Q) (hq : ∀ a t, Grows s t → Q a t → Q' a t) :
    Completes s m Q' := by
  obtain ⟨a, t, hm, hg, ht, ha⟩ := h
  exact ⟨a, t, hm, hg, ht, hq a t hg ha⟩

lemma bind {m : Synthesis p α} {f : α → Synthesis p β} (hm : Completes s m Q)
    (hf : ∀ a t, Grows s t → Sound t → Q a t → Completes t (f a) S) : Completes s (m >>= f) S := by
  obtain ⟨a, t, hmt, hst, ht, ha⟩ := hm
  obtain ⟨b, u, hfu, htu, hu, hb⟩ := hf a t hst ht ha
  exact ⟨b, u, by rw [bind_of_ok hmt, hfu], hst.trans htu, hu, hb⟩

lemma given (hs : Sound s) (hv : f s = some x) :
    ConstraintSystems.given f s = .ok (some x, s) := by
  rw [ConstraintSystems.given, read_bind, if_pos (show (id s).proving = true from hs.proving)]
  change (Tx.unwrap (f s) _ >>= fun x => Pure.pure (some x)) s = _
  rw [hv]
  rfl

lemma newWitness (hs : Sound s) (hv : f s = some x) :
    Completes s (newWitness f) fun v t => t.assigned v = some x ∧ t.inputs = s.inputs := by
  have hg : Grows s { s with witnesses := s.witnesses ++ [some x] } :=
    ⟨rfl, List.prefix_refl _, List.prefix_append _ _⟩
  refine ⟨.witness s.witnesses.length, _, ?_, hg, ⟨hs.proving, fun w hw => ?_⟩, ?_⟩
  · rw [ConstraintSystems.newWitness, bind_of_ok (given hs hv)]
    rfl
  · exact hs.holds w (hg.reads hw)
  · exact ⟨by simp [System.assigned], rfl⟩

lemma newInput (hs : Sound s) (hv : f s = some x) :
    Completes s (newInput f) fun v t => t.assigned v = some x ∧ v = .input s.inputs.length ∧
      t.inputs.length = s.inputs.length + 1 := by
  have hg : Grows s { s with inputs := s.inputs ++ [some x] } :=
    ⟨rfl, List.prefix_append _ _, List.prefix_refl _⟩
  refine ⟨.input s.inputs.length, _, ?_, hg, ⟨hs.proving, fun w hw => ?_⟩, ?_, rfl, by simp⟩
  · rw [ConstraintSystems.newInput, bind_of_ok (given hs hv)]
    rfl
  · exact hs.holds w (hg.reads hw)
  · simp [System.assigned]

lemma enforce (hs : Sound s) {c : Constraint p} (hc : ∀ w, Reads w s → c.Holds w) :
    Completes s (enforce c) fun _ t => t.inputs = s.inputs := by
  have hg : Grows s { s with constraints := s.constraints ++ [c] } :=
    ⟨rfl, List.prefix_refl _, List.prefix_refl _⟩
  refine ⟨(), _, rfl, hg, ⟨hs.proving, fun w hw d hd => ?_⟩, rfl⟩
  rcases List.mem_append.mp hd with hd | hd
  · exact hs.holds w (hg.reads hw) d hd
  · obtain rfl := List.mem_singleton.mp hd
    exact hc w (hg.reads hw)

lemma mul (hs : Sound s) (ha : s.value a = some x) (hb : s.value b = some y) :
    Completes s (mul a b) fun c t => t.value c = some (x * y) := by
  refine (newWitness (x := x * y) hs (by rw [ha, hb])).bind fun v t hst ht ⟨hv, _⟩ => ?_
  refine (enforce ht fun w hw => ?_).bind fun _ u htu hu _ => ?_
  · change a.eval w * b.eval w = _
    rw [hw.eval (hst.value ha), hw.eval (hst.value hb), hw.eval (value_single hv)]
  · exact pure hu (value_single (htu.assigned hv))

lemma enforceEqual (hs : Sound s) (ha : s.value a = some x) (hb : s.value b = some x) :
    Completes s (enforceEqual a b) fun _ _ => True := by
  refine (enforce hs fun w hw => ?_).mono fun _ _ _ _ => trivial
  change (a.sub b).eval w * (Linear.const 1).eval w = 0
  rw [Linear.eval_sub, hw.eval ha, hw.eval hb, sub_self, zero_mul]

lemma fold {body : Linear p → α → Synthesis p (Linear p)} {g : ZMod p → α → ZMod p}
    (h : ∀ b x a s, Sound s → s.value b = some x →
      Completes s (body b a) fun c t => t.value c = some (g x a))
    (as : List α) (hs : Sound s) (hb : s.value b = some x) :
    Completes s (Tx.fold body b as) fun c t => t.value c = some (as.foldl g x) := by
  induction as generalizing s b x with
  | nil => exact pure hs hb
  | cons a as ih => exact (h b x a s hs hb).bind fun c t _ ht hc => ih ht hc

lemma forEach {body : α → Synthesis p Unit} {as : List α}
    (h : ∀ a ∈ as, ∀ t, Grows s t → Sound t → Completes t (body a) fun _ _ => True)
    (hs : Sound s) : Completes s (Tx.forEach body as) fun _ _ => True := by
  induction as generalizing s with
  | nil => exact pure hs trivial
  | cons a as ih =>
    refine (h a (by simp) s (.refl s) hs).bind fun _ t hst ht _ => ?_
    exact ih (fun b hb u htu hu => h b (by simp [hb]) u (hst.trans htu) hu) ht

lemma toBitsLe {size : ℕ} (hs : Sound s) (ha : s.value a = some x) :
    Completes s (toBitsLe size a) fun bits t =>
      ∀ i v, bits[i]? = some v → t.assigned v = some (bit x i) := by
  have hfold (k n : ℕ) (s : System p) (bits : List Variable) (hs : Sound s)
      (ha : s.value a = some x) (hn : bits.length = n)
      (hb : ∀ i v, bits[i]? = some v → s.assigned v = some (bit x i)) :
      Completes s (Tx.fold (fun bits i => do
        let b ← ConstraintSystems.newWitness fun s => (s.value a).map (bit · i)
        return bits ++ [b]) bits (List.range' n k)) fun bits t =>
          t.value a = some x ∧ ∀ i v, bits[i]? = some v → t.assigned v = some (bit x i) := by
    induction k generalizing n s bits with
    | zero => exact pure hs ⟨ha, hb⟩
    | succ k ih =>
      refine bind (Q := fun bits' t => t.value a = some x ∧ bits'.length = n + 1 ∧
        ∀ i v, bits'[i]? = some v → t.assigned v = some (bit x i)) ?_ fun bits' t _ ht h =>
          ih (n + 1) t bits' ht h.1 h.2.1 h.2.2
      refine (newWitness (x := bit x n) hs (by rw [ha]; rfl)).bind fun b t hst ht ⟨hbt, _⟩ => ?_
      refine pure ht ⟨hst.value ha, by simp [hn], fun i v hv => ?_⟩
      rcases lt_or_ge i bits.length with hi | hi
      · rw [List.getElem?_append_left hi] at hv
        exact hst.assigned (hb i v hv)
      · rw [List.getElem?_append_right hi, List.getElem?_singleton] at hv
        obtain ⟨hi', rfl⟩ : i - bits.length = 0 ∧ b = v := by
          split at hv
          · exact ⟨‹_›, Option.some.inj hv⟩
          · cases hv
        obtain rfl : i = n := by omega
        exact hbt
  have h := hfold size 0 s [] hs ha rfl (by simp)
  rw [← List.range_eq_range'] at h
  refine h.bind fun bits t _ ht hb => ?_
  refine (enforce (c := .digits a bits) ht fun w hw => ?_).bind fun _ u htu hu _ => ?_
  · intro i v hv
    rw [hw.eval hb.1]
    exact hw v _ (hb.2 i v hv)
  · exact pure hu fun i v hv => htu.assigned (hb.2 i v hv)

end Completes

end Completeness

section Shapes

/-- As many variables, and the same constraints. -/
def SameShape (s t : System p) : Prop :=
  s.inputs.length = t.inputs.length ∧ s.witnesses.length = t.witnesses.length ∧
    s.constraints = t.constraints

/-- Wherever both go through, they lay out the same. -/
def Alike {α : Type} (m n : Synthesis p α) : Prop :=
  ∀ s t a b s' t', SameShape s t → m s = .ok (a, s') → n t = .ok (b, t') → a = b ∧ SameShape s' t'

variable {α β : Type} {f f' : System p → Option (ZMod p)} {a b : Linear p}

namespace Alike

lemma pure (a : α) : Alike (Pure.pure a : Synthesis p α) (Pure.pure a) := by
  intro s t b c s' t' hs hm hn
  obtain ⟨rfl, rfl⟩ := pure_ok.mp hm
  obtain ⟨rfl, rfl⟩ := pure_ok.mp hn
  exact ⟨rfl, hs⟩

lemma bind {m n : Synthesis p α} {f g : α → Synthesis p β} (hm : Alike m n)
    (hf : ∀ a, Alike (f a) (g a)) : Alike (m >>= f) (n >>= g) := by
  intro s t b c s' t' hs hms hnt
  obtain ⟨a, u, hu, hms⟩ := bind_ok.mp hms
  obtain ⟨a', v, hv, hnt⟩ := bind_ok.mp hnt
  obtain ⟨rfl, huv⟩ := hm s t a a' u v hs hu hv
  exact hf a u v b c s' t' huv hms hnt

lemma fold {body body' : β → α → Synthesis p β} (h : ∀ b a, Alike (body b a) (body' b a)) (b : β)
    (as : List α) : Alike (Tx.fold body b as) (Tx.fold body' b as) := by
  induction as generalizing b with
  | nil => exact pure b
  | cons a as ih => exact bind (h b a) ih

lemma forEach {body : α → Synthesis p Unit} (h : ∀ a, Alike (body a) (body a)) (as : List α) :
    Alike (Tx.forEach body as) (Tx.forEach body as) := by
  induction as with
  | nil => exact pure ()
  | cons a as ih => exact bind (h a) fun _ => ih

lemma newWitness : Alike (newWitness f) (ConstraintSystems.newWitness f') := by
  intro s t v v' s' t' hs hm hn
  obtain ⟨rfl, x, rfl⟩ := newWitness_ok hm
  obtain ⟨rfl, y, rfl⟩ := newWitness_ok hn
  exact ⟨by rw [hs.2.1], hs.1, by simp [hs.2.1], hs.2.2⟩

lemma newInput : Alike (newInput f) (ConstraintSystems.newInput f') := by
  intro s t v v' s' t' hs hm hn
  obtain ⟨rfl, x, rfl⟩ := newInput_ok hm
  obtain ⟨rfl, y, rfl⟩ := newInput_ok hn
  exact ⟨by rw [hs.1], by simp [hs.1], hs.2.1, hs.2.2⟩

lemma enforce (c : Constraint p) :
    Alike (enforce c) (ConstraintSystems.enforce c) := by
  intro s t _ _ s' t' hs hm hn
  obtain rfl := update_ok.mp hm
  obtain rfl := update_ok.mp hn
  exact ⟨rfl, hs.1, hs.2.1, by rw [hs.2.2]⟩

lemma mul : Alike (mul a b) (ConstraintSystems.mul a b) :=
  .bind newWitness fun _ => .bind (enforce _) fun _ => .pure _

lemma enforceEqual : Alike (enforceEqual a b) (ConstraintSystems.enforceEqual a b) := enforce _

lemma toBitsLe {size : ℕ} : Alike (toBitsLe size a) (ConstraintSystems.toBitsLe size a) :=
  .bind (.fold (fun _ _ => .bind newWitness fun _ => .pure _) _ _) fun _ =>
    .bind (enforce _) fun _ => .pure _

end Alike

end Shapes

end StellarTags.Library.ConstraintSystems
