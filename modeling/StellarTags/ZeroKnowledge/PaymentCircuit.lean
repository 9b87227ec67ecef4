import StellarTags.Library.PositionalNumerals
import StellarTags.Library.ConstraintSystems
import StellarTags.Platform.Encoding

/-! The circuit of private payments, and which pairs of a commitment and a nullifier it admits. -/

namespace StellarTags.ZeroKnowledge.Payments

open Library.BigEndian Library.ConstraintSystems Library.PrimeFields Library.Transactions Tx
open Platform (Bytes Digest utf8)

/-- The order of the scalar field of BLS12-381. -/
def scalarOrder : ℕ := 52435875175126190479447740508185965837690552500527637822603658699938581184513

def scalarFactors : List (ℕ × ℕ) :=
  [(2, 32), (3, 1), (11, 1), (19, 1), (10177, 1), (125527, 1), (859267, 1), (906349, 2),
    (2508409, 1), (2529403, 1), (52437899, 1), (254760293, 2)]

lemma scalarFactors_prime : ∀ f ∈ scalarFactors, f.1.Prime := by
  simp only [scalarFactors, List.forall_mem_cons]
  norm_num

instance scalarOrder_prime : Fact scalarOrder.Prime :=
  ⟨prime_of_lucas 7 255 (by decide +kernel) (by decide +kernel) scalarFactors_prime
    (by decide +kernel)⟩

abbrev Fr : Type := ZMod scalarOrder

def ROUNDS : ℕ := 91
def COMMITMENT_DOMAIN : Fr := ((1 : ℕ) : Fr)
def NULLIFIER_DOMAIN : Fr := ((2 : ℕ) : Fr)

def fromBeBytesModOrder (bytes : Bytes) : Fr := ofBytes bytes

variable (sha256 : Bytes → Digest)

section Hashes

def round_constant (round : ℕ) : Fr :=
  fromBeBytesModOrder (sha256 (utf8 "stellar-tags-zk-payment-mimc-v1" ++ toBytes 4 round)).bytes

def permuteRound (value : Fr) (round : ℕ) : Fr :=
  let x := value + round_constant sha256 round
  let x2 := x * x
  let x4 := x2 * x2
  x4 * x2 * x

def permute (value : Fr) : Fr := (List.range ROUNDS).foldl (permuteRound sha256) value

def hash_payment (amount recipient secret : Fr) : Fr :=
  let state := permute sha256 (amount + COMMITMENT_DOMAIN)
  let state := permute sha256 (state + recipient)
  permute sha256 (state + secret)

def hash_nullifier (secret : Fr) : Fr := permute sha256 (secret + NULLIFIER_DOMAIN)

end Hashes

section Constraints

structure PaymentCircuit where
  amount : Option Fr
  recipient : Option Fr
  secret : Option Fr
  commitment : Option Fr
  nullifier : Option Fr

def permute_var (value : Linear scalarOrder) : Synthesis scalarOrder (Linear scalarOrder) :=
  Tx.fold (fun value round => do
    let x := value.add (.const (round_constant sha256 round))
    let x2 ← mul x x
    let x4 ← mul x2 x2
    let x6 ← mul x4 x2
    mul x6 x) value (List.range ROUNDS)

def inverse (value : Fr) : Option Fr := if value = 0 then none else some value⁻¹

def generate_constraints (circuit : PaymentCircuit) : Synthesis scalarOrder Unit := do
  let amount ← newWitness fun _ => circuit.amount
  let recipient ← newWitness fun _ => circuit.recipient
  let secret ← newWitness fun _ => circuit.secret
  let commitment ← newInput fun _ => circuit.commitment
  let nullifier ← newInput fun _ => circuit.nullifier
  let amount_bits ← toBitsLe 255 (.single amount)
  Tx.forEach (fun b => enforceEqual (.single b) (.const 0)) (amount_bits.drop 64)
  let inverse ← newWitness fun _ => circuit.amount.bind inverse
  let product ← mul (.single amount) (.single inverse)
  enforceEqual product (.const 1)
  let commitment_state ← permute_var sha256 ((Linear.single amount).add (.const COMMITMENT_DOMAIN))
  let commitment_state ← permute_var sha256 (commitment_state.add (.single recipient))
  let commitment_state ← permute_var sha256 (commitment_state.add (.single secret))
  enforceEqual commitment_state (.single commitment)
  let nullifier_state ← permute_var sha256 ((Linear.single secret).add (.const NULLIFIER_DOMAIN))
  enforceEqual nullifier_state (.single nullifier)

end Constraints

/-- What the circuit is to show about its private values and its public ones. -/
structure Opens (amount recipient secret commitment nullifier : Fr) : Prop where
  positive : amount ≠ 0
  bounded : amount.val < 2 ^ 64
  commitment : hash_payment sha256 amount recipient secret = commitment
  nullifier : hash_nullifier sha256 secret = nullifier

section Soundness

variable {sha256} {k : ℕ} {R : Assignment scalarOrder → Prop} {e : Linear scalarOrder}

lemma permute_var_forces : Ensures (Forces k R) (permute_var sha256 e) fun d =>
    Forces k fun w => R w ∧ d.eval w = permute sha256 (e.eval w) := by
  refine fold_forces (fun R b round => ?_) _
  refine .bind mul_forces fun x2 => .bind mul_forces fun x4 => .bind mul_forces fun x6 => ?_
  refine mul_forces.mono (fun s hs => hs) fun x7 s hs => hs.weaken fun w hw => ?_
  obtain ⟨⟨⟨⟨hr, h2⟩, h4⟩, h6⟩, h7⟩ := hw
  refine ⟨hr, ?_⟩
  rw [h7, h6, h4, h2, Linear.eval_add, Linear.eval_const]
  rfl

lemma val_lt_of_bits {x : Fr} (h : ∀ i, 64 ≤ i → i < 255 → bit x i = 0) : x.val < 2 ^ 64 := by
  refine Nat.lt_pow_two_of_testBit _ fun i hi => ?_
  rcases lt_or_ge i 255 with hi' | hi'
  · by_contra hbit
    have hone := h i hi hi'
    rw [bit, if_pos (by simpa using hbit)] at hone
    exact one_ne_zero hone
  · refine Nat.testBit_lt_two_pow (lt_of_lt_of_le (x.val_lt.trans ?_) (Nat.pow_le_pow_right two_pos hi'))
    decide +kernel

/-- Whatever satisfies the constraints knows an opening of the public inputs. -/
lemma generate_constraints_forces (circuit : PaymentCircuit) :
    Ensures (Forces 0 fun _ => True) (generate_constraints sha256 circuit) fun _ => Forces 2 fun w =>
      ∃ amount recipient secret, Opens sha256 amount recipient secret (w.input 0) (w.input 1) := by
  refine .bind newWitness_forces fun amount => .bind newWitness_forces fun recipient =>
    .bind newWitness_forces fun secret => ?_
  refine .bind newInput_forces fun commitment => .given fun hc => ?_
  refine .bind newInput_forces fun nullifier => .given fun hn => ?_
  refine .bind toBitsLe_forces fun bits => ?_
  refine .bind (forEach_forces (fun R b => enforceEqual_forces) _) fun _ => ?_
  refine .bind newWitness_forces fun inv => .bind mul_forces fun product => ?_
  refine .bind enforceEqual_forces fun _ => .bind permute_var_forces fun c1 => ?_
  refine .bind permute_var_forces fun c2 => .bind permute_var_forces fun c3 => ?_
  refine .bind enforceEqual_forces fun _ => .bind permute_var_forces fun n1 => ?_
  refine enforceEqual_forces.mono (fun s hs => hs) fun _ s hs => hs.weaken fun w hw => ?_
  obtain ⟨⟨⟨⟨⟨⟨⟨⟨⟨⟨-, hlen, hbits⟩, hzero⟩, hprod⟩, hone⟩, h1⟩, h2⟩, h3⟩, hcom⟩, hn1⟩, hnul⟩ := hw
  subst hc hn
  simp only [Linear.eval_single, Linear.eval_add, Linear.eval_const] at *
  refine ⟨w.value amount, w.value recipient, w.value secret, ?_, ?_, ?_, ?_⟩
  · intro h0
    rw [hprod, h0, zero_mul] at hone
    exact zero_ne_one hone
  · refine val_lt_of_bits fun i hi hi' => ?_
    obtain ⟨v, hv⟩ : ∃ v, bits[i]? = some v := ⟨_, List.getElem?_eq_getElem (by omega)⟩
    rw [← hbits i v hv]
    refine hzero v (List.mem_of_getElem? (i := i - 64) ?_)
    rwa [List.getElem?_drop, Nat.add_sub_cancel' hi]
  · rw [hash_payment, ← h1, ← h2, ← h3, hcom]
    rfl
  · rw [hash_nullifier, ← hn1, hnul]
    rfl

end Soundness

section Completeness

variable {sha256} {s : System scalarOrder} {e : Linear scalarOrder} {x : Fr}

lemma permute_var_completes (hs : Sound s) (he : s.value e = some x) :
    Completes s (permute_var sha256 e) fun d t => t.value d = some (permute sha256 x) := by
  refine Completes.fold (fun b x round s hs hb => ?_) _ hs he
  have hsum := value_add hb (value_const (round_constant sha256 round))
  refine (Completes.mul hs hsum hsum).bind fun x2 t hst ht h2 => ?_
  refine (Completes.mul ht h2 h2).bind fun x4 u htu hu h4 => ?_
  refine (Completes.mul hu h4 (htu.value h2)).bind fun x6 v huv hv h6 => ?_
  exact Completes.mul hv h6 (((hst.trans htu).trans huv).value hsum)

lemma bit_eq_zero {x : Fr} (hx : x.val < 2 ^ 64) {i : ℕ} (hi : 64 ≤ i) : bit x i = 0 := by
  rw [bit, if_neg]
  rw [Nat.testBit_lt_two_pow (hx.trans_le (Nat.pow_le_pow_right two_pos hi))]
  exact Bool.false_ne_true

/-- A prover that knows an opening assigns every variable, and meets every constraint. -/
lemma generate_constraints_completes {amount recipient secret commitment nullifier : Fr}
    (h : Opens sha256 amount recipient secret commitment nullifier) :
    Completes (System.start true) (generate_constraints sha256
      ⟨some amount, some recipient, some secret, some commitment, some nullifier⟩) fun _ s =>
        s.assigned (.input 0) = some commitment ∧ s.assigned (.input 1) = some nullifier := by
  have hstart : Sound (System.start (p := scalarOrder) true) :=
    ⟨rfl, fun w _ c hc => absurd hc List.not_mem_nil⟩
  refine (Completes.newWitness hstart rfl).bind fun a s1 _ hs1 ⟨ha, hi1⟩ => ?_
  refine (Completes.newWitness hs1 rfl).bind fun r s2 g2 hs2 ⟨hr, hi2⟩ => ?_
  refine (Completes.newWitness hs2 rfl).bind fun k s3 g3 hs3 ⟨hk, hi3⟩ => ?_
  refine (Completes.newInput hs3 rfl).bind fun c s4 g4 hs4 ⟨hc, hcv, hi4⟩ => ?_
  refine (Completes.newInput hs4 rfl).bind fun n s5 g5 hs5 ⟨hn, hnv, _⟩ => ?_
  obtain rfl : c = .input 0 := by rw [hcv, hi3, hi2, hi1, System.start, List.length_nil]
  obtain rfl : n = .input 1 := by
    rw [hnv, hi4, hi3, hi2, hi1, System.start, List.length_nil]
  have ha5 := ((g2.trans g3).trans (g4.trans g5)).assigned ha
  have hr5 := (g3.trans (g4.trans g5)).assigned hr
  have hk5 := (g4.trans g5).assigned hk
  have hc5 := g5.assigned hc
  -- from here on the five variables are assigned, and only the constraints are left to meet
  refine (Completes.toBitsLe hs5 (value_single ha5)).bind fun bits s6 g6 hs6 hbits => ?_
  refine (Completes.forEach (fun b hb t g ht => ?_) hs6).bind fun _ s7 g7 hs7 _ => ?_
  · obtain ⟨i, hi⟩ := List.mem_iff_getElem?.mp hb
    rw [List.getElem?_drop] at hi
    have hzero := hbits (64 + i) b hi
    rw [bit_eq_zero h.bounded (by omega)] at hzero
    exact Completes.enforceEqual ht (value_single (g.assigned hzero)) (value_const 0)
  have hinv : (some amount : Option Fr).bind inverse = some amount⁻¹ := if_neg h.positive
  refine (Completes.newWitness hs7 hinv).bind fun i s8 g8 hs8 ⟨hi, _⟩ => ?_
  have g58 := (g6.trans g7).trans g8
  refine (Completes.mul hs8 (value_single (g58.assigned ha5)) (value_single hi)).bind
    fun product s9 g9 hs9 hproduct => ?_
  rw [mul_inv_cancel₀ h.positive] at hproduct
  refine (Completes.enforceEqual hs9 hproduct (value_const 1)).bind fun _ s10 g10 hs10 _ => ?_
  have g510 := (g58.trans g9).trans g10
  refine (permute_var_completes hs10 (value_add (value_single (g510.assigned ha5))
    (value_const _))).bind fun c1 s11 g11 hs11 h1 => ?_
  have g511 := g510.trans g11
  refine (permute_var_completes hs11 (value_add h1 (value_single (g511.assigned hr5)))).bind
    fun c2 s12 g12 hs12 h2 => ?_
  have g512 := g511.trans g12
  refine (permute_var_completes hs12 (value_add h2 (value_single (g512.assigned hk5)))).bind
    fun c3 s13 g13 hs13 h3 => ?_
  have g513 := g512.trans g13
  have hcommitment : s13.value c3 = some commitment := h.commitment ▸ h3
  refine (Completes.enforceEqual hs13 hcommitment (value_single (g513.assigned hc5))).bind
    fun _ s14 g14 hs14 _ => ?_
  have g514 := g513.trans g14
  refine (permute_var_completes hs14 (value_add (value_single (g514.assigned hk5))
    (value_const _))).bind fun n1 s15 g15 hs15 h4 => ?_
  have g515 := g514.trans g15
  have hnullifier : s15.value n1 = some nullifier := h.nullifier ▸ h4
  refine (Completes.enforceEqual hs15 hnullifier (value_single (g515.assigned hn))).mono
    fun _ t g _ => ?_
  exact ⟨(g515.trans g).assigned hc5, (g515.trans g).assigned hn⟩

end Completeness

section Exactness

variable {sha256} {e : Linear scalarOrder}

lemma permute_var_alike : Alike (permute_var sha256 e) (permute_var sha256 e) :=
  .fold (fun _ _ => .bind .mul fun _ => .bind .mul fun _ => .bind .mul fun _ => .mul) _ _

lemma permute_var_setsUp : SetsUp (permute_var sha256 e) :=
  .fold (fun _ _ => .bind .mul fun _ => .bind .mul fun _ => .bind .mul fun _ => .mul) _ _

lemma generate_constraints_alike (circuit circuit' : PaymentCircuit) :
    Alike (generate_constraints sha256 circuit) (generate_constraints sha256 circuit') := by
  refine .bind .newWitness fun _ => .bind .newWitness fun _ => .bind .newWitness fun _ => ?_
  refine .bind .newInput fun _ => .bind .newInput fun _ => .bind .toBitsLe fun _ => ?_
  refine .bind (.forEach (fun _ => .enforceEqual) _) fun _ => .bind .newWitness fun _ => ?_
  refine .bind .mul fun _ => .bind .enforceEqual fun _ => .bind permute_var_alike fun _ => ?_
  refine .bind permute_var_alike fun _ => .bind permute_var_alike fun _ => ?_
  exact .bind .enforceEqual fun _ => .bind permute_var_alike fun _ => .enforceEqual

lemma generate_constraints_setsUp (circuit : PaymentCircuit) :
    SetsUp (generate_constraints sha256 circuit) := by
  refine .bind .newWitness fun _ => .bind .newWitness fun _ => .bind .newWitness fun _ => ?_
  refine .bind .newInput fun _ => .bind .newInput fun _ => .bind .toBitsLe fun _ => ?_
  refine .bind (.forEach (fun _ => .enforceEqual) _) fun _ => .bind .newWitness fun _ => ?_
  refine .bind .mul fun _ => .bind .enforceEqual fun _ => .bind permute_var_setsUp fun _ => ?_
  refine .bind permute_var_setsUp fun _ => .bind permute_var_setsUp fun _ => ?_
  exact .bind .enforceEqual fun _ => .bind permute_var_setsUp fun _ => .enforceEqual

variable (sha256)

end Exactness

section Openings

lemma permuteRound_bijective (round : ℕ) :
    Function.Bijective fun value => permuteRound sha256 value round := by
  have hcard : (Nat.card Fr - 1).Coprime 7 := by
    rw [Nat.card_zmod]
    decide +kernel
  have hround : (fun value => permuteRound sha256 value round) =
      (fun x : Fr => x ^ 7) ∘ fun value => value + round_constant sha256 round := by
    funext value
    simp only [permuteRound, Function.comp_apply]
    ring
  rw [hround]
  exact (pow_bijective (by decide) hcard).comp (Equiv.addRight _).bijective

lemma permute_bijective : Function.Bijective (permute sha256) := by
  have hfold (rounds : List ℕ) :
      Function.Bijective fun value => rounds.foldl (permuteRound sha256) value := by
    induction rounds with
    | nil => exact Function.bijective_id
    | cons round rounds ih => exact ih.comp (permuteRound_bijective sha256 round)
  exact hfold _

/-- A nullifier has one secret, and for each secret and amount every commitment has one recipient:
the public inputs of a payment settle its secret, and leave open which amount it is of. -/
theorem opening_unique (amount commitment nullifier : Fr) (h0 : amount ≠ 0)
    (h64 : amount.val < 2 ^ 64) :
    ∃! opening : Fr × Fr, Opens sha256 amount opening.1 opening.2 commitment nullifier := by
  obtain ⟨secret, hsecret⟩ := (permute_bijective sha256).surjective nullifier
  obtain ⟨state, hstate⟩ := (permute_bijective sha256).surjective commitment
  obtain ⟨sum, hsum⟩ := (permute_bijective sha256).surjective (state - (secret - NULLIFIER_DOMAIN))
  refine ⟨(sum - permute sha256 (amount + COMMITMENT_DOMAIN), secret - NULLIFIER_DOMAIN),
    ⟨h0, h64, ?_, ?_⟩, ?_⟩
  · rw [hash_payment, add_sub_cancel, hsum, sub_add_cancel, hstate]
  · rw [hash_nullifier, sub_add_cancel, hsecret]
  · rintro ⟨recipient, k⟩ h
    have hk : k + NULLIFIER_DOMAIN = secret :=
      (permute_bijective sha256).injective (h.nullifier.trans hsecret.symm)
    obtain rfl : k = secret - NULLIFIER_DOMAIN := eq_sub_of_add_eq hk
    have hlast := (permute_bijective sha256).injective (h.commitment.trans hstate.symm)
    have hsum' := (permute_bijective sha256).injective ((eq_sub_of_add_eq hlast).trans hsum.symm)
    exact Prod.ext (eq_sub_of_add_eq' hsum') rfl

theorem opening_unique_sample :
    ∃! opening : Fr × Fr, Opens Platform.sampleSha256 1 opening.1 opening.2 5 9 :=
  opening_unique Platform.sampleSha256 1 5 9 (by decide +kernel) (by decide +kernel)

end Openings

end StellarTags.ZeroKnowledge.Payments
