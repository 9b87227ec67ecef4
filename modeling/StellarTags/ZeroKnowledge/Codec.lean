import StellarTags.Platform.Numerals

/-! The compact text of a proof: field elements written, and read, at fixed offsets. -/

namespace StellarTags.ZeroKnowledge

open Library.BigEndian Platform

section Scalars

/-- What a coordinate or a signal is given as; a number may be no integer. -/
inductive Scalar : Type
  | integer (n : ℤ)
  | number
  | bigint (n : ℤ)
  | string (s : JsString)
  | undefined
  | other
  deriving DecidableEq

inductive Fault : Type
  | typeError (message : String)
  | rangeError (message : String)
  | syntaxError (text : JsString)
  | error (message : String)
  deriving DecidableEq

def FIELD_ORDER : ℕ :=
  21888242871839275222246405745257275088548364400416034343698204186575808495617

def FIELD_BYTES : ℕ := 32

def isSafeInteger (n : ℤ) : Bool := |n| ≤ 2 ^ 53 - 1

def isDecimal (s : JsString) : Bool := s ≠ [] ∧ s.all isDigitUnit

def isHex (s : JsString) : Bool := s ≠ [] ∧ s.all isHexUnit

def afterHexPrefix : JsString → Option JsString
  | zero :: x :: digits =>
    if zero = unit '0' ∧ (x = unit 'x' ∨ x = unit 'X') then some digits else none
  | _ => none

def toInteger (value : Scalar) (name : String) : Except Fault ℤ :=
  match value with
  | .bigint n => .ok n
  | .integer n =>
    if isSafeInteger n then .ok n else .error (.typeError (name ++ " must be a safe integer"))
  | .number => .error (.typeError (name ++ " must be a safe integer"))
  | .string s =>
    if isDecimal (trimUnits s) then .ok (numeralValue 10 (trimUnits s))
    else .error (.typeError (name ++ " must be an integer"))
  | .undefined | .other => .error (.typeError (name ++ " must be an integer"))

def parseScalar (value : Scalar) (name : String) : Except Fault ℤ :=
  match value with
  | .string s =>
    match (afterHexPrefix (trimUnits s)).filter isHex with
    | some digits => .ok (numeralValue 16 digits)
    | none => toInteger value name
  | _ => toInteger value name

def toFieldElement (value : Scalar) (name : String) : Except Fault ℕ := do
  let parsed ← parseScalar value name
  if parsed < 0 ∨ FIELD_ORDER ≤ parsed then
    .error (.rangeError (name ++ " must be a valid BN128 scalar"))
  else .ok parsed.toNat

def fieldToBuffer (value : Scalar) : Except Fault Bytes := do
  let parsed ← toFieldElement value "field element"
  return bytesOfHex (padStart (2 * FIELD_BYTES) (numeral 16 parsed))

/-- The buffer goes on for a field after the offset. -/
def bufferToField (buffer : Bytes) (offset : ℕ) : ℕ :=
  numeralValue 16 (hexText ((buffer.drop offset).take FIELD_BYTES))

def fieldToHex (value : Scalar) : Except Fault JsString := do
  let parsed ← toFieldElement value "field element"
  return unit '0' :: unit 'x' :: padStart (2 * FIELD_BYTES) (numeral 16 parsed)

end Scalars

section Serialization

/-- Its points, where they are arrays. -/
structure Proof where
  pi_a : Option (List Scalar)
  pi_b : Option (List (Option (List Scalar)))
  pi_c : Option (List Scalar)
  protocol : String
  curve : String
  deriving DecidableEq

def PROOF_MAGIC : Bytes := [0x5a, 0x4b, 0x50, 0x31]

def PROOF_VERSION : ℕ := 1

def isPoint (v : Option (List Scalar)) : Bool := v.any fun coordinates => 2 ≤ coordinates.length

def isPair (v : Option (List (Option (List Scalar)))) : Bool :=
  v.any fun rows =>
    match rows with
    | first :: second :: _ => isPoint first && isPoint second
    | _ => false

def assertProofShape (proof : Proof) (publicSignals : Option (List Scalar)) : Except Fault Unit :=
  let validA := isPoint proof.pi_a
  let validB := isPair proof.pi_b
  let validC := isPoint proof.pi_c
  if ¬ (validA && validB && validC) then
    .error (.typeError "proof must contain pi_a, pi_b and pi_c points")
  else
    match publicSignals with
    | none | some [] => .error (.typeError "publicSignals must be a non-empty array")
    | some signals =>
      if 255 < signals.length then
        .error (.rangeError "publicSignals cannot contain more than 255 values")
      else .ok ()

def entry (v : Option (List Scalar)) (i : ℕ) : Scalar := ((v.getD [])[i]?).getD .undefined

def Proof.row (proof : Proof) (i : ℕ) : Option (List Scalar) := ((proof.pi_b.getD [])[i]?).join

/-- The eight values that are written. -/
def Proof.coordinates (proof : Proof) : List Scalar :=
  [entry proof.pi_a 0, entry proof.pi_a 1, entry (proof.row 0) 0, entry (proof.row 0) 1,
    entry (proof.row 1) 0, entry (proof.row 1) 1, entry proof.pi_c 0, entry proof.pi_c 1]

structure Writer where
  buffer : Bytes
  offset : ℕ

/-- What does not fit in the target is left out. -/
def copy (source target : Bytes) (offset : ℕ) : Bytes :=
  (target.take offset ++ source ++ target.drop (offset + source.length)).take target.length

def Writer.writeUInt8 (w : Writer) (n : ℕ) : Writer :=
  ⟨w.buffer.set w.offset (Fin.ofNat 256 n), w.offset + 1⟩

def Writer.writeField (w : Writer) (value : Scalar) : Except Fault Writer := do
  let field ← fieldToBuffer value
  return ⟨copy field w.buffer w.offset, w.offset + FIELD_BYTES⟩

def serializeProof (proof : Proof) (publicSignals : Option (List Scalar)) :
    Except Fault JsString := do
  assertProofShape proof publicSignals
  let values := proof.coordinates
  let signals := publicSignals.getD []
  let buffer : Bytes := List.replicate
    (PROOF_MAGIC.length + 1 + values.length * FIELD_BYTES + 1 + signals.length * FIELD_BYTES) 0
  let w : Writer := ⟨copy PROOF_MAGIC buffer 0, PROOF_MAGIC.length⟩
  let w ← values.foldlM Writer.writeField (w.writeUInt8 PROOF_VERSION)
  let w ← signals.foldlM Writer.writeField (w.writeUInt8 signals.length)
  return hexText w.buffer

end Serialization

section Deserialization

structure Decoded where
  proof : Proof
  publicSignals : List JsString
  commitment : JsString
  maxLimit : Option JsString
  deriving DecidableEq

def readFields (buffer : Bytes) : ℕ → ℕ → List ℕ
  | _, 0 => []
  | offset, k + 1 => bufferToField buffer offset :: readFields buffer (offset + FIELD_BYTES) k

/-- The offset is inside the buffer. -/
def readUInt8 (buffer : Bytes) (offset : ℕ) : ℕ := (buffer.getD offset 0).val

def proofOf (values : List ℕ) : Proof :=
  let text (i : ℕ) : Scalar := .string (numeral 10 (values.getD i 0))
  let one : Scalar := .string (units "1")
  { pi_a := some [text 0, text 1, one]
    pi_b := some [some [text 2, text 3], some [text 4, text 5], some [one, .string (units "0")]]
    pi_c := some [text 6, text 7, one]
    protocol := "groth16"
    curve := "bn128" }

def decodedOf (values : List ℕ) (publicSignals : List JsString) : Except Fault Decoded := do
  let commitment ← fieldToHex ((publicSignals[0]?).elim .undefined .string)
  return ⟨proofOf values, publicSignals, commitment, publicSignals[1]?⟩

def decodeBuffer (buffer : Bytes) : Except Fault Decoded :=
  if buffer.length < PROOF_MAGIC.length + 1 + 8 * FIELD_BYTES + 1 then
    .error (.typeError "encoded proof is truncated")
  else if buffer.take PROOF_MAGIC.length ≠ PROOF_MAGIC then
    .error (.typeError "encoded proof has an unknown format")
  else
    let version := readUInt8 buffer PROOF_MAGIC.length
    if version ≠ PROOF_VERSION then
      .error (.typeError ("unsupported proof version: " ++ toString version))
    else
      let offset := PROOF_MAGIC.length + 1
      let values := readFields buffer offset 8
      let offset := offset + 8 * FIELD_BYTES
      let publicSignalCount := readUInt8 buffer offset
      let offset := offset + 1
      if buffer.length ≠ offset + publicSignalCount * FIELD_BYTES then
        .error (.typeError "encoded proof has an invalid length")
      else decodedOf values ((readFields buffer offset publicSignalCount).map (numeral 10))

/-- The text without blanks around it and a prefix. -/
def hexOf (encoded : JsString) : JsString :=
  (afterHexPrefix (trimUnits encoded)).getD (trimUnits encoded)

def deserializeProof (encoded : Scalar) : Except Fault Decoded :=
  match encoded with
  | .string encoded =>
    let hex := hexOf encoded
    if hex.length = 0 ∨ hex.length % 2 ≠ 0 ∨ ¬ isHex hex then
      .error (.typeError "encoded proof must be a valid hex string")
    else decodeBuffer (bytesOfHex hex)
  | _ => .error (.typeError "encoded proof must be a hex string")

end Deserialization

section Layouts

def fields (ns : List ℕ) : Bytes := ns.flatMap (toBytes FIELD_BYTES)

/-- The fields of a text, in the order in which they stand in it. -/
structure Layout where
  values : List ℕ
  signals : List ℕ
  eight : values.length = 8
  few : signals.length < 256
  values_lt : ∀ n ∈ values, n < 256 ^ FIELD_BYTES
  signals_lt : ∀ n ∈ signals, n < 256 ^ FIELD_BYTES

def Layout.head (l : Layout) : Bytes := PROOF_MAGIC ++ [1] ++ fields l.values

def Layout.bytes (l : Layout) : Bytes :=
  l.head ++ [Fin.ofNat 256 l.signals.length] ++ fields l.signals

variable {ns : List ℕ} {buffer done rest field : Bytes} {n k offset : ℕ}

lemma fields_cons (n : ℕ) (ns : List ℕ) : fields (n :: ns) = toBytes FIELD_BYTES n ++ fields ns :=
  List.flatMap_cons

@[simp] lemma length_fields (ns : List ℕ) : (fields ns).length = FIELD_BYTES * ns.length := by
  induction ns with
  | nil => rfl
  | cons n ns ih =>
    rw [fields_cons, List.length_append, ih, length_toBytes, List.length_cons, Nat.mul_succ,
      add_comm]

lemma Layout.length_head (l : Layout) : l.head.length = 261 := by
  simp [Layout.head, l.eight, PROOF_MAGIC, FIELD_BYTES]

lemma Layout.length_bytes (l : Layout) :
    l.bytes.length = 262 + FIELD_BYTES * l.signals.length := by
  simp [Layout.bytes, l.length_head]
  omega

lemma bufferToField_eq (hfield : field.length = FIELD_BYTES) :
    bufferToField (done ++ (field ++ rest)) done.length = ofBytes field := by
  rw [bufferToField, List.drop_left, ← hfield, List.take_left, numeralValue_hexText]

lemma readFields_fields (done rest : Bytes) (hns : ∀ n ∈ ns, n < 256 ^ FIELD_BYTES) :
    readFields (done ++ (fields ns ++ rest)) done.length ns.length = ns := by
  induction ns generalizing done with
  | nil => rfl
  | cons n ns ih =>
    have hlength : done.length + FIELD_BYTES = (done ++ toBytes FIELD_BYTES n).length := by simp
    have hrest := ih (done ++ toBytes FIELD_BYTES n)
      fun m hm => hns m (List.mem_cons_of_mem _ hm)
    rw [List.length_cons, readFields, fields_cons, List.append_assoc,
      bufferToField_eq (length_toBytes _ _), ofBytes_toBytes (hns n List.mem_cons_self), hlength,
      ← List.append_assoc, hrest]

lemma length_readFields (buffer : Bytes) (offset k : ℕ) :
    (readFields buffer offset k).length = k := by
  induction k generalizing offset with
  | zero => rfl
  | succ k ih => rw [readFields, List.length_cons, ih]

lemma length_slice (h : offset + FIELD_BYTES ≤ buffer.length) :
    ((buffer.drop offset).take FIELD_BYTES).length = FIELD_BYTES := by
  rw [List.length_take, List.length_drop]
  omega

lemma bufferToField_lt (h : offset + FIELD_BYTES ≤ buffer.length) :
    bufferToField buffer offset < 256 ^ FIELD_BYTES := by
  have hlt := ofBytes_lt ((buffer.drop offset).take FIELD_BYTES)
  rwa [length_slice h, ← numeralValue_hexText] at hlt

lemma readFields_lt (h : offset + FIELD_BYTES * k ≤ buffer.length) :
    ∀ n ∈ readFields buffer offset k, n < 256 ^ FIELD_BYTES := by
  induction k generalizing offset with
  | zero => simp [readFields]
  | succ k ih =>
    rw [Nat.mul_succ] at h
    intro n hn
    rcases List.mem_cons.mp hn with rfl | hn
    · exact bufferToField_lt (by omega)
    · exact ih (by omega) n hn

/-- What is read is all that stands there. -/
lemma fields_readFields (h : offset + FIELD_BYTES * k ≤ buffer.length) :
    fields (readFields buffer offset k) = (buffer.drop offset).take (FIELD_BYTES * k) := by
  induction k generalizing offset with
  | zero => rfl
  | succ k ih =>
    rw [Nat.mul_succ] at h
    have hfield : toBytes FIELD_BYTES (bufferToField buffer offset) =
        (buffer.drop offset).take FIELD_BYTES := by
      have hread := toBytes_ofBytes ((buffer.drop offset).take FIELD_BYTES)
      rwa [length_slice (by omega), ← numeralValue_hexText] at hread
    rw [readFields, fields_cons, hfield, ih (by omega), Nat.mul_succ, add_comm (FIELD_BYTES * k),
      List.take_add, List.drop_drop]

end Layouts

section Reading

variable {buffer : Bytes} {decoded : Decoded} {e : JsString}

lemma valuesOffset : PROOF_MAGIC.length + 1 = 5 := rfl

lemma countOffset : 5 + 8 * FIELD_BYTES = 261 := rfl

lemma cons_drop {offset : ℕ} (h : offset < buffer.length) :
    [buffer.getD offset 0] ++ buffer.drop (offset + 1) = buffer.drop offset := by
  rw [List.drop_eq_getElem_cons h, List.getD_eq_getElem?_getD, List.getElem?_eq_getElem h]
  rfl

lemma Layout.take_bytes (l : Layout) : l.bytes.take PROOF_MAGIC.length = PROOF_MAGIC := by
  simp only [Layout.bytes, Layout.head, List.append_assoc]
  exact List.take_left

lemma Layout.version_bytes (l : Layout) : readUInt8 l.bytes PROOF_MAGIC.length = PROOF_VERSION := by
  simp only [readUInt8, Layout.bytes, Layout.head, List.append_assoc]
  rfl

lemma Layout.count_bytes (l : Layout) : readUInt8 l.bytes 261 = l.signals.length := by
  have hget : l.bytes[261]? = some (Fin.ofNat 256 l.signals.length) := by
    rw [Layout.bytes, List.append_assoc, List.getElem?_append_right l.length_head.le,
      l.length_head]
    rfl
  rw [readUInt8, List.getD_eq_getElem?_getD, hget]
  exact Nat.mod_eq_of_lt l.few

lemma Layout.values_bytes (l : Layout) : readFields l.bytes 5 8 = l.values := by
  have hread := readFields_fields (PROOF_MAGIC ++ [1])
    ([Fin.ofNat 256 l.signals.length] ++ fields l.signals) l.values_lt
  rw [l.eight, List.length_append, List.length_singleton, valuesOffset] at hread
  rwa [Layout.bytes, Layout.head, List.append_assoc, List.append_assoc, List.append_assoc]

lemma Layout.signals_bytes (l : Layout) : readFields l.bytes 262 l.signals.length = l.signals := by
  have hread :=
    readFields_fields (l.head ++ [Fin.ofNat 256 l.signals.length]) [] l.signals_lt
  rwa [List.length_append, l.length_head, List.append_nil] at hread

lemma decodeBuffer_bytes (l : Layout) :
    decodeBuffer l.bytes = decodedOf l.values (l.signals.map (numeral 10)) := by
  have hlength := l.length_bytes
  simp only [decodeBuffer, valuesOffset, countOffset, l.take_bytes, l.version_bytes,
    l.count_bytes, l.values_bytes, l.signals_bytes, ne_eq, not_true_eq_false, if_false]
  rw [if_neg (by omega), if_neg (not_not.mpr (by rw [hlength, mul_comm]))]

/-- A buffer that is taken is the layout of what is read. -/
lemma layout_of_decodeBuffer (h : decodeBuffer buffer = .ok decoded) :
    ∃ l : Layout, l.bytes = buffer ∧
      decodedOf l.values (l.signals.map (numeral 10)) = .ok decoded := by
  simp only [decodeBuffer] at h
  split_ifs at h with hshort hmagic hversion hlength
  simp only [valuesOffset, countOffset, not_not] at hshort hmagic hversion hlength h
  have hcount : readUInt8 buffer 261 < 256 := (buffer.getD 261 0).isLt
  have hvalues : 5 + FIELD_BYTES * 8 ≤ buffer.length := by
    rw [mul_comm, countOffset]
    omega
  have hsignals : 262 + FIELD_BYTES * readUInt8 buffer 261 = buffer.length := by
    rw [mul_comm]
    omega
  let l : Layout := ⟨readFields buffer 5 8, readFields buffer 262 (readUInt8 buffer 261),
    length_readFields _ _ _, by rwa [length_readFields], readFields_lt hvalues,
    readFields_lt hsignals.le⟩
  refine ⟨l, ?_, h⟩
  have hvaluesRead : fields l.values = (buffer.drop 5).take 256 := fields_readFields hvalues
  have hsignalsRead : fields l.signals = buffer.drop 262 := by
    have hread := fields_readFields hsignals.le
    rwa [List.take_of_length_le (by rw [List.length_drop]; omega)] at hread
  have hcountRead : Fin.ofNat 256 l.signals.length = buffer.getD 261 0 := by
    rw [length_readFields]
    exact Fin.ofNat_val_eq_self _
  have hversionRead : (1 : Fin 256) = buffer.getD 4 0 := Fin.ext hversion.symm
  have hvaluesDrop : (buffer.drop 5).take 256 ++ buffer.drop 261 = buffer.drop 5 := by
    have hdrop : (buffer.drop 5).drop 256 = buffer.drop 261 := List.drop_drop
    rw [← hdrop, List.take_append_drop]
  calc l.bytes
      = PROOF_MAGIC ++ ([1] ++ (fields l.values ++
          ([Fin.ofNat 256 l.signals.length] ++ fields l.signals))) := by
        simp only [Layout.bytes, Layout.head, List.append_assoc]
    _ = PROOF_MAGIC ++ ([buffer.getD 4 0] ++ buffer.drop 5) := by
        rw [hcountRead, hsignalsRead, cons_drop (by omega), hvaluesRead, hvaluesDrop, hversionRead]
    _ = buffer.take 4 ++ buffer.drop 4 := by
        rw [cons_drop (by omega)]
        exact congrArg (· ++ buffer.drop 4) hmagic.symm
    _ = buffer := List.take_append_drop _ _

lemma isHexUnit_of_mem {u : Fin 65536} (h : u ∈ hexText buffer) :
    isHexUnit u = true ∧ isSpaceUnit u = false := by
  have hall : ∀ n < 16, isHexUnit (digitUnit n) = true ∧ isSpaceUnit (digitUnit n) = false := by
    decide
  obtain ⟨byte, -, hu⟩ := List.mem_flatMap.mp h
  have hbyte := byte.isLt
  rcases List.mem_cons.mp hu with rfl | hu
  · exact hall _ (by omega)
  · rw [List.mem_singleton.mp hu]
    exact hall _ (by omega)

lemma isHex_iff {s : JsString} : isHex s = true ↔ s ≠ [] ∧ ∀ u ∈ s, isHexUnit u = true := by
  simp [isHex]

/-- A text that was written has neither blanks nor a prefix. -/
lemma Layout.hexOf_bytes (l : Layout) : hexOf (hexText l.bytes) = hexText l.bytes := by
  have htrim : trimUnits (hexText l.bytes) = hexText l.bytes :=
    trimUnits_eq fun u hu => (isHexUnit_of_mem hu).2
  have hprefix : afterHexPrefix (hexText l.bytes) = none := by
    simp only [Layout.bytes, Layout.head, PROOF_MAGIC, List.append_assoc, List.cons_append]
    rfl
  rw [hexOf, htrim, hprefix]
  rfl

lemma Layout.isHex_bytes (l : Layout) : isHex (hexText l.bytes) = true := by
  refine isHex_iff.mpr ⟨?_, fun u hu => (isHexUnit_of_mem hu).1⟩
  have hlength := l.length_bytes
  rw [← List.length_pos_iff, length_hexText]
  omega

lemma deserializeProof_hexText (l : Layout) : deserializeProof (.string (hexText l.bytes)) =
    decodedOf l.values (l.signals.map (numeral 10)) := by
  have hlength := l.length_bytes
  simp only [deserializeProof, l.hexOf_bytes, l.isHex_bytes, length_hexText, bytesOfHex_hexText,
    not_true_eq_false, or_false]
  rw [if_neg (by omega), decodeBuffer_bytes]

/-- A text that is taken is the text of the layout it is read as. -/
lemma layout_of_deserializeProof (h : deserializeProof (.string e) = .ok decoded) :
    isHex (hexOf e) = true ∧ (hexOf e).length % 2 = 0 ∧
      ∃ l : Layout, l.bytes = bytesOfHex (hexOf e) ∧
        decodedOf l.values (l.signals.map (numeral 10)) = .ok decoded := by
  simp only [deserializeProof] at h
  split_ifs at h with hinvalid
  push Not at hinvalid
  exact ⟨hinvalid.2.2, hinvalid.2.1, layout_of_decodeBuffer h⟩

end Reading

section Writing

lemma bind_ok {α β : Type} {m : Except Fault α} {k : α → Except Fault β} {r : β} :
    m >>= k = .ok r ↔ ∃ a, m = .ok a ∧ k a = .ok r := by
  cases m with
  | error fault => simp [bind, Except.bind]
  | ok a => simp [bind, Except.bind]

def Scalar.given : Scalar → Option ℤ
  | .integer n | .bigint n => some n
  | .string s =>
    if isDecimal (trimUnits s) then some (numeralValue 10 (trimUnits s)) else none
  | _ => none

/-- A number has to be one that is exact. -/
def Scalar.isExact : Scalar → Bool
  | .integer n => isSafeInteger n
  | _ => true

/-- What is written so far, with room for what is still to come. -/
def Writer.after (done : Bytes) (room : ℕ) : Writer := ⟨done ++ List.replicate room 0, done.length⟩

variable {value : Scalar} {values signals : List Scalar} {ns : List ℕ} {n k : ℕ} {name : String}
  {done source : Bytes} {proof : Proof}

lemma toFieldElement_ok : toFieldElement value name = .ok n ↔
    parseScalar value name = .ok (n : ℤ) ∧ n < FIELD_ORDER := by
  rw [toFieldElement, bind_ok]
  constructor
  · rintro ⟨parsed, hparsed, h⟩
    split_ifs at h with hrange
    obtain rfl := Except.ok.inj h
    push Not at hrange
    rw [Int.toNat_of_nonneg hrange.1]
    exact ⟨hparsed, by omega⟩
  · rintro ⟨hparsed, hlt⟩
    refine ⟨n, hparsed, ?_⟩
    rw [if_neg (by omega), Int.toNat_natCast]

lemma FIELD_ORDER_lt : FIELD_ORDER < 256 ^ FIELD_BYTES := by decide

lemma isDecimal_iff {s : JsString} :
    isDecimal s = true ↔ s ≠ [] ∧ ∀ u ∈ s, isDigitUnit u = true := by
  simp [isDecimal]

lemma isDecimal_numeral (n : ℕ) : isDecimal (numeral 10 n) = true :=
  isDecimal_iff.mpr ⟨numeral_ne_nil (by decide) n, fun _ => isDigitUnit_of_mem⟩

lemma trimUnits_decimal {s : JsString} (h : isDecimal s = true) : trimUnits s = s := by
  refine trimUnits_eq fun u hu => ?_
  have hdigit := (isDecimal_iff.mp h).2 u hu
  simp only [isDigitUnit, decide_eq_true_eq] at hdigit
  exact isSpaceUnit_of_visible (by omega) (by omega)

/-- No digit is the letter of a prefix. -/
lemma afterHexPrefix_decimal {s : JsString} (h : isDecimal s = true) : afterHexPrefix s = none := by
  match s with
  | [] | [_] => rfl
  | zero :: x :: digits =>
    have hx := (isDecimal_iff.mp h).2 x (List.mem_cons_of_mem _ List.mem_cons_self)
    rw [afterHexPrefix, if_neg]
    rintro ⟨-, rfl | rfl⟩
    · exact absurd hx (by decide)
    · exact absurd hx (by decide)

lemma parseScalar_decimal {s : JsString} (h : isDecimal (trimUnits s) = true) :
    parseScalar (.string s) name = .ok (numeralValue 10 (trimUnits s)) := by
  rw [parseScalar, afterHexPrefix_decimal h]
  exact if_pos h

lemma toFieldElement_given (h : value.given = some (n : ℤ)) (hexact : value.isExact = true)
    (hn : n < FIELD_ORDER) : toFieldElement value name = .ok n := by
  have hparsed : parseScalar value name = .ok (n : ℤ) := by
    cases value with
    | integer m =>
      obtain rfl := Option.some.inj h
      simp only [parseScalar, toInteger]
      exact if_pos hexact
    | number => cases h
    | bigint m =>
      obtain rfl := Option.some.inj h
      rfl
    | string s =>
      simp only [Scalar.given] at h
      split_ifs at h with hdecimal
      rw [parseScalar_decimal hdecimal, Option.some.inj h]
    | undefined | other => cases h
  exact toFieldElement_ok.mpr ⟨hparsed, hn⟩

lemma fieldToBuffer_eq (h : toFieldElement value "field element" = .ok n) :
    fieldToBuffer value = .ok (toBytes FIELD_BYTES n) := by
  have hlt := (toFieldElement_ok.mp h).2.trans FIELD_ORDER_lt
  rw [fieldToBuffer, h]
  change Except.ok (bytesOfHex (padStart (2 * FIELD_BYTES) (numeral 16 n))) = _
  rw [padStart_numeral (by decide) hlt, bytesOfHex_hexText]

lemma copy_after (done source : Bytes) (k : ℕ) :
    copy source (done ++ List.replicate (source.length + k) 0) done.length =
      (done ++ source) ++ List.replicate k 0 := by
  rw [copy, List.take_left, List.drop_append, List.drop_of_length_le (by omega),
    Nat.add_sub_cancel_left, List.drop_replicate, Nat.add_sub_cancel_left, List.nil_append]
  exact List.take_of_length_le (by simp)

lemma start_after (source : Bytes) (k : ℕ) :
    (⟨copy source (List.replicate (source.length + k) 0) 0, source.length⟩ : Writer) =
      Writer.after source k :=
  congrArg (Writer.mk · source.length) (copy_after [] source k)

lemma writeUInt8_after (done : Bytes) (k n : ℕ) :
    (Writer.after done (k + 1)).writeUInt8 n = Writer.after (done ++ [Fin.ofNat 256 n]) k := by
  simp [Writer.after, Writer.writeUInt8, List.replicate_succ]

lemma writeField_after (h : toFieldElement value "field element" = .ok n) :
    (Writer.after done (FIELD_BYTES + k)).writeField value =
      .ok (Writer.after (done ++ toBytes FIELD_BYTES n) k) := by
  have hlength := length_toBytes FIELD_BYTES n
  have hcopy := copy_after done (toBytes FIELD_BYTES n) k
  rw [hlength] at hcopy
  rw [Writer.writeField, fieldToBuffer_eq h]
  change Except.ok _ = Except.ok _
  rw [Writer.after, hcopy, Writer.after, List.length_append, hlength]

/-- Each value takes the next room, in the order of the list. -/
lemma foldlM_writeField (done : Bytes) (k : ℕ)
    (h : values.map (toFieldElement · "field element") = ns.map .ok) :
    values.foldlM Writer.writeField (Writer.after done (FIELD_BYTES * ns.length + k)) =
      .ok (Writer.after (done ++ fields ns) k) := by
  induction values generalizing done ns with
  | nil =>
    obtain rfl := List.map_eq_nil_iff.mp h.symm
    change Except.ok _ = Except.ok _
    rw [List.length_nil, Nat.mul_zero, Nat.zero_add, fields, List.flatMap_nil, List.append_nil]
  | cons value values ih =>
    cases ns with
    | nil => cases h
    | cons n ns =>
      obtain ⟨hvalue, hvalues⟩ := List.cons.inj h
      have hroom : FIELD_BYTES * (n :: ns).length + k =
          FIELD_BYTES + (FIELD_BYTES * ns.length + k) := by
        rw [List.length_cons, Nat.mul_succ]
        omega
      rw [List.foldlM_cons, hroom, writeField_after hvalue]
      change values.foldlM Writer.writeField _ = _
      rw [ih _ hvalues, fields_cons, List.append_assoc]

lemma two_le_of_entry {v : Option (List Scalar)}
    (h : toFieldElement (entry v 1) name = .ok n) : isPoint v = true := by
  match v with
  | none | some [] | some [_] => cases h
  | some (_ :: _ :: _) => simp [isPoint]

lemma isPair_of_rows (hfirst : isPoint (proof.row 0) = true)
    (hsecond : isPoint (proof.row 1) = true) : isPair proof.pi_b = true := by
  rw [Proof.row] at hfirst hsecond
  match hrows : proof.pi_b with
  | none | some [] | some [_] =>
    rw [hrows] at hsecond
    cases hsecond
  | some (first :: second :: _) =>
    rw [hrows] at hfirst hsecond
    exact Bool.and_eq_true_iff.mpr ⟨hfirst, hsecond⟩

lemma assertProofShape_ok
    (hvalues : proof.coordinates.map (toFieldElement · "field element") = ns.map .ok)
    (hne : signals ≠ []) (hfew : signals.length < 256) :
    assertProofShape proof (some signals) = .ok () := by
  have hok : ∀ v ∈ proof.coordinates, ∃ n, toFieldElement v "field element" = .ok n := by
    intro v hv
    have hmem := List.mem_map_of_mem (f := (toFieldElement · "field element")) hv
    rw [hvalues] at hmem
    obtain ⟨n, -, hn⟩ := List.mem_map.mp hmem
    exact ⟨n, hn.symm⟩
  have hpoint : ∀ v, entry v 1 ∈ proof.coordinates → isPoint v = true :=
    fun v hv => two_le_of_entry (hok _ hv).choose_spec
  have ha := hpoint proof.pi_a (by simp [Proof.coordinates])
  have hfirst := hpoint (proof.row 0) (by simp [Proof.coordinates])
  have hsecond := hpoint (proof.row 1) (by simp [Proof.coordinates])
  have hb := isPair_of_rows hfirst hsecond
  have hc := hpoint proof.pi_c (by simp [Proof.coordinates])
  cases signals with
  | nil => exact absurd rfl hne
  | cons signal signals =>
    simp only [assertProofShape, ha, hb, hc]
    rw [if_neg (by decide)]
    exact if_neg (by omega)

/-- A proof is written as the layout of the numbers it is given by. -/
lemma serializeProof_eq (l : Layout)
    (hvalues : proof.coordinates.map (toFieldElement · "field element") = l.values.map .ok)
    (hsignals : signals.map (toFieldElement · "field element") = l.signals.map .ok)
    (hne : signals ≠ []) : serializeProof proof (some signals) = .ok (hexText l.bytes) := by
  have hlength : signals.length = l.signals.length := by
    simpa using congrArg List.length hsignals
  have hshape := assertProofShape_ok hvalues hne (hlength ▸ l.few)
  have hroom : PROOF_MAGIC.length + 1 + proof.coordinates.length * FIELD_BYTES + 1 +
      signals.length * FIELD_BYTES = PROOF_MAGIC.length + (FIELD_BYTES * l.values.length +
        (FIELD_BYTES * l.signals.length + 1) + 1) := by
    have hcoordinates : proof.coordinates.length = 8 := rfl
    rw [hcoordinates, l.eight, hlength, mul_comm l.signals.length]
    omega
  rw [serializeProof, hshape]
  change (proof.coordinates.foldlM Writer.writeField _ >>= _) = _
  rw [Option.getD_some, hroom, start_after, writeUInt8_after, foldlM_writeField _ _ hvalues]
  change (signals.foldlM Writer.writeField _ >>= _) = _
  have hlast (done : Bytes) := foldlM_writeField done 0 hsignals
  simp only [Nat.add_zero] at hlast
  rw [writeUInt8_after, hlast]
  change Except.ok (hexText _) = _
  rw [Writer.after, List.replicate_zero, List.append_nil, hlength]
  rfl

end Writing

section RoundTrips

variable {values signals : List Scalar} {ns : List ℕ} {name : String} {decoded : Decoded}
  {texts : List JsString}

lemma map_toFieldElement (hgiven : values.map Scalar.given = ns.map fun n : ℕ => some (n : ℤ))
    (hexact : ∀ v ∈ values, v.isExact = true) (hlt : ∀ n ∈ ns, n < FIELD_ORDER) :
    values.map (toFieldElement · name) = ns.map .ok := by
  induction values generalizing ns with
  | nil =>
    obtain rfl := List.map_eq_nil_iff.mp hgiven.symm
    rfl
  | cons value values ih =>
    cases ns with
    | nil => cases hgiven
    | cons n ns =>
      obtain ⟨hvalue, hvalues⟩ := List.cons.inj hgiven
      have hfirst : toFieldElement value name = .ok n := toFieldElement_given hvalue
        (hexact value List.mem_cons_self) (hlt n List.mem_cons_self)
      have hrest := ih hvalues (fun v hv => hexact v (List.mem_cons_of_mem _ hv))
        fun m hm => hlt m (List.mem_cons_of_mem _ hm)
      rw [List.map_cons, List.map_cons, hfirst, hrest]

/-- The text that a number is read back as. -/
def decimal (n : ℕ) : Scalar := .string (numeral 10 n)

lemma given_decimal (n : ℕ) : (decimal n).given = some (n : ℤ) := by
  have hdecimal := isDecimal_numeral n
  rw [decimal, Scalar.given, trimUnits_decimal hdecimal, if_pos hdecimal,
    numeralValue_numeral (by decide) (by decide)]

lemma coordinates_proofOf (h : ns.length = 8) :
    (proofOf ns).coordinates = ns.map decimal := by
  match ns with
  | [_, _, _, _, _, _, _, _] => rfl

lemma toFieldElement_decimal {n m : ℕ} :
    toFieldElement (decimal n) name = .ok m ↔ n = m ∧ n < FIELD_ORDER := by
  have hdecimal := isDecimal_numeral n
  have hparsed : parseScalar (decimal n) name = .ok (n : ℤ) := by
    rw [decimal, parseScalar_decimal (by rwa [trimUnits_decimal hdecimal]),
      trimUnits_decimal hdecimal, numeralValue_numeral (by decide) (by decide)]
  rw [toFieldElement_ok, hparsed]
  constructor
  · rintro ⟨hnm, hlt⟩
    obtain rfl := Int.ofNat.inj (Except.ok.inj hnm)
    exact ⟨rfl, hlt⟩
  · rintro ⟨rfl, hlt⟩
    exact ⟨rfl, hlt⟩

lemma map_decimal (name : String) (hlt : ∀ n ∈ ns, n < FIELD_ORDER) :
    (ns.map decimal).map (toFieldElement · name) = ns.map .ok := by
  rw [List.map_map]
  exact List.map_congr_left fun n hn => toFieldElement_decimal.mpr ⟨rfl, hlt n hn⟩

lemma decodedOf_ok : decodedOf ns texts = .ok decoded ↔ ∃ commitment,
    fieldToHex ((texts[0]?).elim .undefined .string) = .ok commitment ∧
      decoded = ⟨proofOf ns, texts, commitment, texts[1]?⟩ := by
  rw [decodedOf, bind_ok]
  refine exists_congr fun commitment => and_congr_right fun _ => ?_
  exact ⟨fun h => (Except.ok.inj h).symm, fun h => congrArg Except.ok h.symm⟩

lemma fieldToHex_ok {value : Scalar} {text : JsString} : fieldToHex value = .ok text ↔
    ∃ n, toFieldElement value "field element" = .ok n ∧
      text = unit '0' :: unit 'x' :: padStart (2 * FIELD_BYTES) (numeral 16 n) := by
  rw [fieldToHex, bind_ok]
  refine exists_congr fun n => and_congr_right fun _ => ?_
  exact ⟨fun h => (Except.ok.inj h).symm, fun h => congrArg Except.ok h.symm⟩

/-- The first signal is one that a commitment can be. -/
def Layout.HasCommitment (l : Layout) : Prop :=
  ∃ first rest, l.signals = first :: rest ∧ first < FIELD_ORDER

lemma decodedOf_layout (l : Layout) :
    (∃ decoded, decodedOf l.values (l.signals.map (numeral 10)) = .ok decoded) ↔
      l.HasCommitment := by
  constructor
  · rintro ⟨decoded, h⟩
    obtain ⟨commitment, hcommitment, -⟩ := decodedOf_ok.mp h
    obtain ⟨n, hn, -⟩ := fieldToHex_ok.mp hcommitment
    cases hsignals : l.signals with
    | nil =>
      rw [hsignals] at hn
      cases hn
    | cons first rest =>
      rw [hsignals] at hn
      exact ⟨first, rest, hsignals, (toFieldElement_decimal.mp hn).2⟩
  · rintro ⟨first, rest, hsignals, hlt⟩
    have hfirst := fieldToHex_ok.mpr ⟨first, toFieldElement_decimal.mpr ⟨rfl, hlt⟩, rfl⟩
    rw [hsignals]
    exact ⟨_, decodedOf_ok.mpr ⟨_, hfirst, rfl⟩⟩

/-- What a text is read as is written as that text, in lower case. -/
lemma serializeProof_decoded {e : JsString} (h : deserializeProof (.string e) = .ok decoded)
    (hfields : ∀ v ∈ decoded.proof.coordinates ++ decoded.publicSignals.map .string,
      ∃ n : ℕ, v.given = some (n : ℤ) ∧ n < FIELD_ORDER) :
    serializeProof decoded.proof (some (decoded.publicSignals.map .string)) =
      .ok ((hexOf e).map lowerUnit) := by
  obtain ⟨hhex, heven, l, hbytes, hdecoded⟩ := layout_of_deserializeProof h
  obtain ⟨first, rest, hfirst, -⟩ := (decodedOf_layout l).mp ⟨decoded, hdecoded⟩
  obtain ⟨commitment, -, rfl⟩ := decodedOf_ok.mp hdecoded
  have hcoordinates := coordinates_proofOf l.eight
  have hsignals : (l.signals.map (numeral 10)).map Scalar.string = l.signals.map decimal :=
    List.map_map
  rw [hcoordinates, hsignals, ← List.map_append] at hfields
  have hlt : ∀ n ∈ l.values ++ l.signals, n < FIELD_ORDER := by
    intro n hn
    obtain ⟨m, hm, hlt⟩ := hfields (decimal n) (List.mem_map_of_mem hn)
    have hmn := Option.some.inj ((given_decimal n).symm.trans hm)
    omega
  have hvaluesRead := map_decimal "field element"
    fun n hn => hlt n (List.mem_append_left _ hn)
  have hsignalsRead := map_decimal "field element"
    fun n hn => hlt n (List.mem_append_right _ hn)
  rw [← hcoordinates] at hvaluesRead
  rw [← hsignals] at hsignalsRead
  have hnil : (l.signals.map (numeral 10)).map Scalar.string ≠ [] := by
    rw [hfirst]
    exact List.cons_ne_nil _ _
  rw [serializeProof_eq l hvaluesRead hsignalsRead hnil, hbytes,
    hexText_bytesOfHex _ (isHex_iff.mp hhex).2 heven]

end RoundTrips

section Exactness

/-- A text that is not of a proof's length, begin or letters. -/
def Malformed (e : JsString) : Prop :=
  isHex (hexOf e) = false ∨ (bytesOfHex (hexOf e)).take 5 ≠ PROOF_MAGIC ++ [1] ∨
    ∀ count, (bytesOfHex (hexOf e))[261]? = some count →
      (hexOf e).length ≠ 2 * (262 + FIELD_BYTES * count.val)

lemma not_malformed {e : JsString} {decoded : Decoded}
    (h : deserializeProof (.string e) = .ok decoded) : ¬ Malformed e := by
  obtain ⟨hhex, heven, l, hbytes, -⟩ := layout_of_deserializeProof h
  have hlength := length_bytesOfHex (isHex_iff.mp hhex).2 heven
  rw [Malformed, ← hbytes]
  rintro (hletters | hheader | hcount)
  · rw [hhex] at hletters
    cases hletters
  · refine hheader ?_
    rw [Layout.bytes, Layout.head, List.append_assoc, List.append_assoc]
    change List.take (PROOF_MAGIC ++ [1]).length _ = _
    exact List.take_left
  · have hinside : 261 < l.bytes.length := by
      rw [l.length_bytes]
      omega
    refine hcount _ (List.getElem?_eq_getElem hinside) ?_
    have hread := l.count_bytes
    rw [readUInt8, List.getD_eq_getElem?_getD, List.getElem?_eq_getElem hinside,
      Option.getD_some] at hread
    rw [hread, ← hlength, ← hbytes, l.length_bytes]

/-- A proof is read back as it was written, a text that is read is written again in lower case,
and no other text is read. -/
theorem codec_exact :
    (∀ (proof : Proof) (signals : List Scalar) (values ns : List ℕ),
      (proof.coordinates.map Scalar.given = values.map fun n : ℕ => some (n : ℤ)) →
      (signals.map Scalar.given = ns.map fun n : ℕ => some (n : ℤ)) →
      (∀ v ∈ proof.coordinates ++ signals, v.isExact = true) →
      (∀ n ∈ values ++ ns, n < FIELD_ORDER) → 2 ≤ signals.length → signals.length ≤ 255 →
      ∃ text decoded, serializeProof proof (some signals) = .ok text ∧
        deserializeProof (.string text) = .ok decoded ∧
        decoded.proof.coordinates = values.map decimal ∧
        decoded.publicSignals = ns.map (numeral 10)) ∧
    (∀ e decoded, deserializeProof (.string e) = .ok decoded →
      (∀ v ∈ decoded.proof.coordinates ++ decoded.publicSignals.map .string,
        ∃ n : ℕ, v.given = some (n : ℤ) ∧ n < FIELD_ORDER) →
      serializeProof decoded.proof (some (decoded.publicSignals.map .string)) =
        .ok ((hexOf e).map lowerUnit)) ∧
    ∀ e, Malformed e → ∃ fault, deserializeProof (.string e) = .error fault := by
  refine ⟨?_, fun e decoded => serializeProof_decoded, ?_⟩
  · intro proof signals values ns hvalues hsignals hexact hlt htwo hfew
    have hcoordinates : proof.coordinates.length = 8 := rfl
    have height : values.length = 8 := by
      simpa [hcoordinates] using (congrArg List.length hvalues).symm
    have hlength : signals.length = ns.length := by simpa using congrArg List.length hsignals
    have hpos : 0 < ns.length := by omega
    have hvaluesLt := fun n hn => hlt n (List.mem_append_left ns hn)
    have hsignalsLt := fun n hn => hlt n (List.mem_append_right values hn)
    let l : Layout := ⟨values, ns, height, by omega,
      fun n hn => (hvaluesLt n hn).trans FIELD_ORDER_lt,
      fun n hn => (hsignalsLt n hn).trans FIELD_ORDER_lt⟩
    have hwritten := serializeProof_eq l
      (map_toFieldElement hvalues (fun v hv => hexact v (List.mem_append_left _ hv)) hvaluesLt)
      (map_toFieldElement hsignals (fun v hv => hexact v (List.mem_append_right _ hv)) hsignalsLt)
      (List.ne_nil_of_length_pos (by omega))
    obtain ⟨first, rest, hns⟩ := List.exists_cons_of_length_pos hpos
    obtain ⟨decoded, hdecoded⟩ := (decodedOf_layout l).mpr
      ⟨first, rest, hns, hsignalsLt first (hns ▸ List.mem_cons_self)⟩
    have hread := (deserializeProof_hexText l).trans hdecoded
    obtain ⟨commitment, -, rfl⟩ := decodedOf_ok.mp hdecoded
    exact ⟨_, _, hwritten, hread, coordinates_proofOf height, rfl⟩
  · intro e hmalformed
    cases hread : deserializeProof (.string e) with
    | error fault => exact ⟨fault, rfl⟩
    | ok decoded => exact absurd hmalformed (not_malformed hread)

def sampleProof : Proof :=
  { pi_a := some [.integer 1, .bigint 2, .undefined]
    pi_b := some [some [.string (units "3"), .integer 0], some [.integer 5, .integer 6]]
    pi_c := some [.integer 7, .string (units " 0008 ")]
    protocol := "groth16"
    curve := "bn128" }

theorem codec_exact_sample :
    (∃ text decoded, serializeProof sampleProof (some [.integer 9, .bigint 10]) = .ok text ∧
      deserializeProof (.string text) = .ok decoded ∧
      decoded.proof.coordinates = [1, 2, 3, 0, 5, 6, 7, 8].map decimal ∧
      decoded.publicSignals = [9, 10].map (numeral 10) ∧
      serializeProof decoded.proof (some (decoded.publicSignals.map .string)) =
        .ok ((hexOf text).map lowerUnit)) ∧
    ∃ fault, deserializeProof (.string (units "0x5a4b5031zz")) = .error fault := by
  obtain ⟨text, decoded, hwritten, hread, hproof, hpublic⟩ :=
    codec_exact.1 sampleProof [.integer 9, .bigint 10] [1, 2, 3, 0, 5, 6, 7, 8] [9, 10]
      (by decide) (by decide) (by decide) (by decide) (by decide) (by decide)
  refine ⟨⟨text, decoded, hwritten, hread, hproof, hpublic, ?_⟩,
    codec_exact.2.2 _ (Or.inl (by decide))⟩
  refine codec_exact.2.1 text decoded hread ?_
  rw [hproof, hpublic]
  have hsmall : ∀ n < 11, ∃ m : ℕ, (decimal n).given = some (m : ℤ) ∧ m < FIELD_ORDER :=
    fun n hn => ⟨n, given_decimal n, hn.trans (by decide)⟩
  intro v hv
  obtain ⟨n, hn, rfl⟩ := List.mem_map.mp
    (show v ∈ [1, 2, 3, 0, 5, 6, 7, 8, 9, 10].map decimal from hv)
  have hbound : ∀ n ∈ [1, 2, 3, 0, 5, 6, 7, 8, 9, 10], n < 11 := by decide
  exact hsmall n (hbound n hn)

/-- Its first coordinate is an integer that is not read. -/
def refusedProof (first : Scalar) : Proof :=
  { sampleProof with pi_a := some [first, .integer 1] }

theorem codec_refuses :
    (¬ ∀ (proof : Proof) (signals : List Scalar) (values ns : List ℤ),
      proof.coordinates.map Scalar.given = values.map some →
      signals.map Scalar.given = ns.map some →
      (∀ n ∈ values ++ ns, n < FIELD_ORDER) → 2 ≤ signals.length → signals.length ≤ 255 →
      ∃ text decoded, serializeProof proof (some signals) = .ok text ∧
        deserializeProof (.string text) = .ok decoded ∧
        decoded.proof.coordinates.map Scalar.given = values.map some ∧
        (decoded.publicSignals.map Scalar.string).map Scalar.given = ns.map some) ∧
    serializeProof (refusedProof (.integer (2 ^ 53))) (some [.integer 9, .integer 10]) =
      .error (.typeError "field element must be a safe integer") ∧
    serializeProof (refusedProof (.bigint (-1))) (some [.integer 9, .integer 10]) =
      .error (.rangeError "field element must be a valid BN128 scalar") := by
  have hwide : serializeProof (refusedProof (.integer (2 ^ 53))) (some [.integer 9, .integer 10]) =
      .error (.typeError "field element must be a safe integer") := by
    rfl
  refine ⟨?_, hwide, rfl⟩
  intro h
  obtain ⟨text, decoded, hwritten, -⟩ := h (refusedProof (.integer (2 ^ 53)))
    [.integer 9, .integer 10] [2 ^ 53, 1, 3, 0, 5, 6, 7, 8] [9, 10] (by decide) (by decide)
    (by decide) (by decide) (by decide)
  rw [hwide] at hwritten
  cases hwritten

end Exactness

end StellarTags.ZeroKnowledge
