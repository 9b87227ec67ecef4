import StellarTags.ZeroKnowledge.Codec

/-! Verification of an encoded proof, over a verifier that is prepared elsewhere. -/

namespace StellarTags.ZeroKnowledge

open Platform

section Integers

def decimalInteger (s : JsString) : Option ℤ :=
  if isDecimal s then some (numeralValue 10 s) else none

/-- The base that a prefix stands for. -/
def prefixedBase (zero x : Fin 65536) : Option ℕ :=
  if zero ≠ unit '0' then none
  else if x = unit 'x' ∨ x = unit 'X' then some 16
  else if x = unit 'o' ∨ x = unit 'O' then some 8
  else if x = unit 'b' ∨ x = unit 'B' then some 2
  else none

def isDigitOf (b : ℕ) (u : Fin 65536) : Bool := (hexUnitValue u).any (· < b)

def basedInteger (b : ℕ) (digits : JsString) : Option ℤ :=
  if digits ≠ [] ∧ digits.all (isDigitOf b) then some (numeralValue b digits) else none

/-- A text as an integer: nothing but blanks is zero, and only a decimal may have a sign. -/
def stringToBigInt (s : JsString) : Option ℤ :=
  match trimUnits s with
  | [] => some 0
  | [u] => decimalInteger [u]
  | u :: v :: rest =>
    match prefixedBase u v with
    | some b => basedInteger b rest
    | none =>
      if u = unit '-' then (decimalInteger (v :: rest)).map fun n => -n
      else if u = unit '+' then decimalInteger (v :: rest)
      else decimalInteger (u :: v :: rest)

def toBigInt (value : Option JsString) : Except Fault ℤ :=
  match value with
  | none => .error (.typeError "Cannot convert undefined to a BigInt")
  | some s =>
    match stringToBigInt s with
    | some n => .ok n
    | none => .error (.syntaxError s)

end Integers

section Verifier

/-- The operations of the curve library; each of them may throw. -/
structure Curve (G₁ G₂ : Type) where
  add : G₁ → G₁ → Except Fault G₁
  timesScalar : Option G₁ → ℤ → Except Fault G₁
  neg : G₁ → Except Fault G₁
  fromObject₁ : Option (List Scalar) → Except Fault G₁
  fromObject₂ : Option (List (Option (List Scalar))) → Except Fault G₂
  isValid₁ : G₁ → Except Fault Bool
  isValid₂ : G₂ → Except Fault Bool
  pairingEq : List (G₁ × G₂) → Except Fault Bool
  unstringifyBigInts : Proof → Except Fault Proof

structure Prepared (G₁ G₂ : Type) where
  curve : Curve G₁ G₂
  order : ℕ
  ic0 : G₁
  ic : List G₁
  gamma2 : G₂
  delta2 : G₂
  alpha1 : G₁
  beta2 : G₂
  publicSignalCount : Scalar

variable {G₁ G₂ : Type}

def addSignal (prepared : Prepared G₁ G₂) (cpub : G₁) (signal : ℤ × ℕ) : Except Fault G₁ := do
  let term ← prepared.curve.timesScalar prepared.ic[signal.2]? signal.1
  prepared.curve.add cpub term

/-- The checks that follow one that fails are not made. -/
def allValid : List (Except Fault Bool) → Except Fault Bool
  | [] => .ok true
  | check :: checks => do
    let valid ← check
    if valid then allValid checks else .ok false

def checkPairing (prepared : Prepared G₁ G₂) (cpub : G₁) (proof : Proof) : Except Fault Bool := do
  let curve := prepared.curve
  let normalizedProof ← curve.unstringifyBigInts proof
  let piA ← curve.fromObject₁ normalizedProof.pi_a
  let piB ← curve.fromObject₂ normalizedProof.pi_b
  let piC ← curve.fromObject₁ normalizedProof.pi_c
  let valid ← allValid [curve.isValid₁ piA, curve.isValid₂ piB, curve.isValid₁ piC]
  if ¬ valid then .ok false
  else do
    let negA ← curve.neg piA
    curve.pairingEq [(negA, piB), (cpub, prepared.gamma2), (piC, prepared.delta2),
      (prepared.alpha1, prepared.beta2)]

def verifyWithPrepared (prepared : Prepared G₁ G₂) (proof : Proof)
    (publicSignals : List JsString) : Except Fault Bool :=
  if prepared.publicSignalCount ≠ .integer publicSignals.length then .ok false
  else do
    let signals ← publicSignals.mapM fun signal => toBigInt (some signal)
    if signals.any fun signal => signal < 0 ∨ (prepared.order : ℤ) ≤ signal then .ok false
    else do
      let cpub ← signals.zipIdx.foldlM (addSignal prepared) prepared.ic0
      checkPairing prepared cpub proof

end Verifier

section Verification

/-- An option that is not given is undefined. -/
structure Options where
  maxLimit : Scalar
  commitment : Scalar

def MAX_UINT64 : ℤ := 2 ^ 64 - 1

def DEFAULT_MAX_LIMIT : ℤ := 1000000000000

/-- The environment's own limit, where it has one. -/
def configuredMaxLimit (raw : Option JsString) : Except Fault ℤ :=
  match raw with
  | none | some [] => .ok DEFAULT_MAX_LIMIT
  | some raw =>
    match stringToBigInt raw with
    | none => .error (.error "ZK_MAX_PAYMENT_AMOUNT must be a base-10 integer")
    | some value =>
      if value ≤ 0 ∨ MAX_UINT64 < value then
        .error (.error "ZK_MAX_PAYMENT_AMOUNT must be between 1 and 2^64 - 1")
      else .ok value

def expectedMaxLimit (raw : Option JsString) (options : Options) : Except Fault ℤ :=
  if options.maxLimit = .undefined then configuredMaxLimit raw
  else toInteger options.maxLimit "maxLimit"

def matchesCommitment (options : Options) (publicSignals : List JsString) : Except Fault Bool :=
  if options.commitment = .undefined then .ok true
  else do
    let expectedCommitment ← toFieldElement options.commitment "commitment"
    let first ← toBigInt publicSignals[0]?
    return first = expectedCommitment

variable {G₁ G₂ : Type}

/-- A fault of the verifier is a refusal. -/
def caught : Except Fault Bool → Bool
  | .error _ => false
  | .ok verified => verified

/-- What is done with a proof that was read: only the verifier's own faults are caught. -/
def verifyDecoded (getVerifier : Except Fault (Prepared G₁ G₂)) (raw : Option JsString)
    (options : Options) (decoded : Decoded) : Except Fault Bool := do
  let expected ← expectedMaxLimit raw options
  let maxLimit ← toBigInt decoded.maxLimit
  if maxLimit ≠ expected then .ok false
  else do
    let isExpected ← matchesCommitment options decoded.publicSignals
    if ¬ isExpected then .ok false
    else do
      let prepared ← getVerifier
      return caught (verifyWithPrepared prepared decoded.proof decoded.publicSignals)

def verifyProof (getVerifier : Except Fault (Prepared G₁ G₂)) (raw : Option JsString)
    (encoded : Scalar) (options : Options) : Except Fault Bool :=
  match deserializeProof encoded with
  | .error _ => .ok false
  | .ok decoded => verifyDecoded getVerifier raw options decoded

end Verification

section Integers

lemma prefixedBase_digit {u v : Fin 65536} (hv : isDigitUnit v = true) : prefixedBase u v = none := by
  rw [prefixedBase]
  split_ifs with hzero hx ho hb
  · rfl
  · rcases hx with rfl | rfl <;> exact absurd hv (by decide)
  · rcases ho with rfl | rfl <;> exact absurd hv (by decide)
  · rcases hb with rfl | rfl <;> exact absurd hv (by decide)
  · rfl

lemma stringToBigInt_decimal {s : JsString} (h : isDecimal s = true) :
    stringToBigInt s = some (numeralValue 10 s : ℤ) := by
  obtain ⟨hne, hdigits⟩ := isDecimal_iff.mp h
  have hinteger : decimalInteger s = some (numeralValue 10 s : ℤ) := if_pos h
  rw [stringToBigInt, trimUnits_decimal h]
  match s with
  | [u] => exact hinteger
  | u :: v :: rest =>
    have hu := hdigits u List.mem_cons_self
    have hv := hdigits v (List.mem_cons_of_mem _ List.mem_cons_self)
    have hminus : u ≠ unit '-' := by
      rintro rfl
      exact absurd hu (by decide)
    have hplus : u ≠ unit '+' := by
      rintro rfl
      exact absurd hu (by decide)
    simp only [prefixedBase_digit hv, if_neg hminus, if_neg hplus]
    exact hinteger

lemma toBigInt_numeral (n : ℕ) : toBigInt (some (numeral 10 n)) = .ok (n : ℤ) := by
  rw [toBigInt, stringToBigInt_decimal (isDecimal_numeral n),
    numeralValue_numeral (by decide) (by decide)]

end Integers

section Answers

variable {G₁ G₂ : Type} {e : JsString} {decoded : Decoded} {l : Layout} {raw : Option JsString}
  {options : Options} {prepared : Prepared G₁ G₂} {b : Bool} {ns : List ℕ}

def Layout.Encodes (l : Layout) (e : JsString) : Prop :=
  isHex (hexOf e) = true ∧ (hexOf e).length % 2 = 0 ∧ l.bytes = bytesOfHex (hexOf e) ∧
    l.HasCommitment

lemma deserializeProof_ok : deserializeProof (.string e) = .ok decoded ↔
    ∃ l : Layout, l.Encodes e ∧ decodedOf l.values (l.signals.map (numeral 10)) = .ok decoded := by
  constructor
  · intro h
    obtain ⟨hhex, heven, l, hbytes, hdecoded⟩ := layout_of_deserializeProof h
    exact ⟨l, ⟨hhex, heven, hbytes, (decodedOf_layout l).mp ⟨decoded, hdecoded⟩⟩, hdecoded⟩
  · rintro ⟨l, ⟨hhex, heven, hbytes, -⟩, hdecoded⟩
    have hne := List.length_pos_iff.mpr (isHex_iff.mp hhex).1
    have hvalid : ¬ ((hexOf e).length = 0 ∨ (hexOf e).length % 2 ≠ 0 ∨ ¬ isHex (hexOf e)) := by
      push Not
      exact ⟨hne.ne', heven, hhex⟩
    rw [deserializeProof, if_neg hvalid, ← hbytes, decodeBuffer_bytes, hdecoded]

/-- What has to be so where a proof is found to be authentic. -/
def Layout.Expected (prepared : Prepared G₁ G₂) (raw : Option JsString) (options : Options)
    (l : Layout) : Prop :=
  prepared.publicSignalCount = .integer l.signals.length ∧ (∀ n ∈ l.signals, n < prepared.order) ∧
    (∃ limit : ℕ, l.signals[1]? = some limit ∧ expectedMaxLimit raw options = .ok (limit : ℤ)) ∧
    (options.commitment ≠ .undefined → ∃ first, l.signals[0]? = some first ∧
      toFieldElement options.commitment "commitment" = .ok first)

/-- A Boolean is answered, and true only where all is as expected. -/
def Answers (prepared : Prepared G₁ G₂) (raw : Option JsString) (options : Options) (e : JsString)
    (result : Except Fault Bool) : Prop :=
  ∃ b, result = .ok b ∧ ((¬ ∃ l : Layout, l.Encodes e) → b = false) ∧
    (b = true → ∃ l : Layout, l.Encodes e ∧ l.Expected prepared raw options)

/-- There is a second signal, and what it and the first are compared with is a number. -/
def Layout.Comparable (raw : Option JsString) (options : Options) (l : Layout) : Prop :=
  l.signals.length ≠ 1 ∧ ∃ expected, expectedMaxLimit raw options = .ok expected ∧
    ∀ limit : ℕ, l.signals[1]? = some limit → (limit : ℤ) = expected →
      options.commitment = .undefined ∨ ∃ n, toFieldElement options.commitment "commitment" = .ok n

lemma mapM_toBigInt (ns : List ℕ) :
    (ns.map (numeral 10)).mapM (fun signal => toBigInt (some signal)) =
      .ok (ns.map fun n : ℕ => (n : ℤ)) := by
  induction ns with
  | nil => rfl
  | cons n ns ih =>
    rw [List.map_cons, List.mapM_cons, toBigInt_numeral]
    change ((ns.map (numeral 10)).mapM (fun signal => toBigInt (some signal)) >>= _) = _
    rw [ih]
    rfl

lemma verifyWithPrepared_true {proof : Proof}
    (h : verifyWithPrepared prepared proof (ns.map (numeral 10)) = .ok true) :
    prepared.publicSignalCount = .integer ns.length ∧ ∀ n ∈ ns, n < prepared.order := by
  rw [verifyWithPrepared, mapM_toBigInt, List.length_map] at h
  split_ifs at h with hcount
  · cases h
  obtain ⟨signals, hsignals, h⟩ := bind_ok.mp h
  obtain rfl := Except.ok.inj hsignals
  split_ifs at h with hrange
  · cases h
  refine ⟨not_not.mp hcount, fun n hn => ?_⟩
  by_contra hle
  refine hrange (List.any_eq_true.mpr ⟨n, List.mem_map_of_mem hn, ?_⟩)
  simp
  omega

lemma caught_true {outcome : Except Fault Bool} (h : caught outcome = true) :
    outcome = .ok true := by
  cases outcome with
  | error fault => cases h
  | ok verified => exact congrArg Except.ok h

/-- A commitment that is given is compared with the first signal. -/
lemma matchesCommitment_ok {first : ℕ} {rest : List ℕ} :
    matchesCommitment options ((first :: rest).map (numeral 10)) = .ok b ↔
      (options.commitment = .undefined ∧ b = true) ∨
        (options.commitment ≠ .undefined ∧ ∃ n,
          toFieldElement options.commitment "commitment" = .ok n ∧ b = decide (first = n)) := by
  rw [matchesCommitment]
  split_ifs with hgiven
  · simp [hgiven, eq_comm]
  · rw [bind_ok]
    simp only [hgiven, false_and, false_or, ne_eq, not_false_eq_true, true_and]
    refine exists_congr fun n => and_congr_right fun _ => ?_
    change (toBigInt (some (numeral 10 first)) >>= _) = _ ↔ _
    rw [toBigInt_numeral]
    change Except.ok (decide ((first : ℤ) = (n : ℤ))) = Except.ok b ↔ _
    rw [Except.ok.injEq, eq_comm]
    simp

lemma exists_matchesCommitment (first : ℕ) (rest : List ℕ)
    (h : options.commitment = .undefined ∨
      ∃ n, toFieldElement options.commitment "commitment" = .ok n) :
    ∃ b, matchesCommitment options ((first :: rest).map (numeral 10)) = .ok b ∧
      (b = true → options.commitment ≠ .undefined →
        toFieldElement options.commitment "commitment" = .ok first) := by
  by_cases hgiven : options.commitment = .undefined
  · exact ⟨true, matchesCommitment_ok.mpr (Or.inl ⟨hgiven, rfl⟩),
      fun _ hnot => absurd hgiven hnot⟩
  · obtain ⟨n, hn⟩ := h.resolve_left hgiven
    refine ⟨decide (first = n), matchesCommitment_ok.mpr (Or.inr ⟨hgiven, n, hn, rfl⟩), ?_⟩
    intro hsame _
    rw [of_decide_eq_true hsame, hn]

lemma comparable_of_verifyDecoded
    (hdecoded : decodedOf l.values (l.signals.map (numeral 10)) = .ok decoded)
    (hb : verifyDecoded (.ok prepared) raw options decoded = .ok b) : l.Comparable raw options := by
  obtain ⟨first, rest, hsignals, -⟩ := (decodedOf_layout l).mp ⟨decoded, hdecoded⟩
  obtain ⟨commitment, -, rfl⟩ := decodedOf_ok.mp hdecoded
  rw [verifyDecoded, hsignals, bind_ok] at hb
  obtain ⟨expected, hexpected, hb⟩ := hb
  obtain ⟨maxLimit, hmaxLimit, hb⟩ := bind_ok.mp hb
  cases rest with
  | nil => cases hmaxLimit
  | cons second rest =>
    refine ⟨by simp [hsignals], expected, hexpected, fun limit hlimit heq => ?_⟩
    obtain rfl : second = limit := by simpa [hsignals] using hlimit
    change toBigInt (some (numeral 10 second)) = _ at hmaxLimit
    rw [toBigInt_numeral] at hmaxLimit
    obtain rfl := Except.ok.inj hmaxLimit
    rw [if_neg (not_not.mpr heq)] at hb
    obtain ⟨isExpected, hmatches, -⟩ := bind_ok.mp hb
    rcases matchesCommitment_ok.mp hmatches with ⟨hnone, -⟩ | ⟨-, n, hn, -⟩
    · exact Or.inl hnone
    · exact Or.inr ⟨n, hn⟩

lemma verifyDecoded_answers (hcomparable : l.Comparable raw options)
    (hdecoded : decodedOf l.values (l.signals.map (numeral 10)) = .ok decoded) :
    ∃ b, verifyDecoded (.ok prepared) raw options decoded = .ok b ∧
      (b = true → l.Expected prepared raw options) := by
  obtain ⟨hlength, expected, hexpected, hcommitment⟩ := hcomparable
  obtain ⟨first, rest, hsignals, -⟩ := (decodedOf_layout l).mp ⟨decoded, hdecoded⟩
  obtain ⟨commitment, -, rfl⟩ := decodedOf_ok.mp hdecoded
  obtain ⟨second, rest, rfl⟩ : ∃ second tail, rest = second :: tail := by
    refine List.exists_cons_of_ne_nil ?_
    rintro rfl
    exact hlength (by rw [hsignals]; rfl)
  have hlimit : l.signals[1]? = some second := by rw [hsignals]; rfl
  have hmaxLimit : toBigInt (l.signals.map (numeral 10))[1]? = .ok (second : ℤ) := by
    rw [List.getElem?_map, hlimit]
    exact toBigInt_numeral second
  by_cases heq : (second : ℤ) = expected
  · obtain ⟨isExpected, hmatches, hfirst⟩ :=
      exists_matchesCommitment first (second :: rest) (hcommitment second hlimit heq)
    rw [← hsignals] at hmatches
    have hcompared : ¬ (second : ℤ) ≠ expected := not_not.mpr heq
    refine ⟨isExpected && caught (verifyWithPrepared prepared (proofOf l.values)
      (l.signals.map (numeral 10))), ?_, ?_⟩
    · refine bind_ok.mpr ⟨expected, hexpected, bind_ok.mpr ⟨second, hmaxLimit, ?_⟩⟩
      refine (if_neg hcompared).trans (bind_ok.mpr ⟨isExpected, hmatches, ?_⟩)
      cases isExpected with
      | false => rfl
      | true => rfl
    · intro htrue
      obtain ⟨hsame, hverified⟩ := Bool.and_eq_true_iff.mp htrue
      obtain ⟨hcount, hrange⟩ := verifyWithPrepared_true (caught_true hverified)
      exact ⟨hcount, hrange, ⟨second, hlimit, by rw [hexpected, heq]⟩,
        fun hgiven => ⟨first, by rw [hsignals]; rfl, hfirst hsame hgiven⟩⟩
  · exact ⟨false, bind_ok.mpr ⟨expected, hexpected, bind_ok.mpr ⟨second, hmaxLimit, if_pos heq⟩⟩,
      fun h => nomatch h⟩

/-- A call is answered as long as the second signal is there and there is something to compare it
with; a text with one signal is not. -/
theorem verifyProof_answers (prepared : Prepared G₁ G₂) (raw : Option JsString) (options : Options)
    (e : JsString) :
    Answers prepared raw options e (verifyProof (.ok prepared) raw (.string e) options) ↔
      ∀ l : Layout, l.Encodes e → l.Comparable raw options := by
  constructor
  · rintro ⟨b, hb, -, -⟩ l hl
    obtain ⟨decoded, hdecoded⟩ := (decodedOf_layout l).mpr hl.2.2.2
    rw [verifyProof, deserializeProof_ok.mpr ⟨l, hl, hdecoded⟩] at hb
    exact comparable_of_verifyDecoded hdecoded hb
  · intro hcomparable
    cases hread : deserializeProof (.string e) with
    | error fault =>
      rw [verifyProof, hread]
      exact ⟨false, rfl, fun _ => rfl, fun h => nomatch h⟩
    | ok decoded =>
      obtain ⟨l, hl, hdecoded⟩ := deserializeProof_ok.mp hread
      obtain ⟨b, hb, hexpected⟩ := verifyDecoded_answers (hcomparable l hl) hdecoded
      rw [verifyProof, hread]
      exact ⟨b, hb, fun hnone => absurd ⟨l, hl⟩ hnone, fun htrue => ⟨l, hl, hexpected htrue⟩⟩

def unitPrepared : Prepared Unit Unit where
  curve :=
    { add := fun _ _ => .ok ()
      timesScalar := fun _ _ => .ok ()
      neg := fun _ => .ok ()
      fromObject₁ := fun _ => .ok ()
      fromObject₂ := fun _ => .ok ()
      isValid₁ := fun _ => .ok true
      isValid₂ := fun _ => .ok true
      pairingEq := fun _ => .ok true
      unstringifyBigInts := .ok }
  order := FIELD_ORDER
  ic0 := ()
  ic := [(), ()]
  gamma2 := ()
  delta2 := ()
  alpha1 := ()
  beta2 := ()
  publicSignalCount := .integer 2

/-- Eight coordinates and one signal. -/
def oneSignal : Layout :=
  ⟨[1, 2, 3, 4, 5, 6, 7, 8], [9], rfl, by decide, by decide, by decide⟩

theorem verifyProof_throws_on_one :
    verifyProof (.ok unitPrepared) none (.string (hexText oneSignal.bytes))
        ⟨.undefined, .undefined⟩ =
      .error (.typeError "Cannot convert undefined to a BigInt") ∧
    ¬ Answers unitPrepared none ⟨.undefined, .undefined⟩ (hexText oneSignal.bytes)
      (verifyProof (.ok unitPrepared) none (.string (hexText oneSignal.bytes))
        ⟨.undefined, .undefined⟩) := by
  have hthrows : verifyProof (.ok unitPrepared) none (.string (hexText oneSignal.bytes))
      ⟨.undefined, .undefined⟩ =
        .error (.typeError "Cannot convert undefined to a BigInt") := by
    obtain ⟨decoded, hdecoded⟩ := (decodedOf_layout oneSignal).mpr ⟨9, [], rfl, by decide⟩
    rw [verifyProof, deserializeProof_hexText, hdecoded]
    obtain ⟨commitment, -, rfl⟩ := decodedOf_ok.mp hdecoded
    rfl
  refine ⟨hthrows, ?_⟩
  rintro ⟨b, hb, -⟩
  rw [hthrows] at hb
  cases hb

end Answers

end StellarTags.ZeroKnowledge
