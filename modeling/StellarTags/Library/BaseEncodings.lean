import StellarTags.Library.PositionalNumerals
import Mathlib.Data.List.TakeWhile
import Mathlib.Tactic.Common

/-! Byte strings in base 32: five bits a letter, the most significant first. -/

namespace StellarTags.Library.Base32

open BigEndian

def toQuintets : ℕ → ℕ → List (Fin 32)
  | 0, _ => []
  | k + 1, n => toQuintets k (n / 32) ++ [⟨n % 32, Nat.mod_lt n (by decide)⟩]

def ofQuintets (q : List (Fin 32)) : ℕ := q.foldl (fun n d => n * 32 + d) 0

/-- The letters from `A` to `Z`, then the digits from `2` to `7`. -/
def letter (d : Fin 32) : Fin 256 :=
  if d.val < 26 then ⟨65 + d.val, by omega⟩ else ⟨24 + d.val, by omega⟩

def encode (b : List (Fin 256)) : List (Fin 256) :=
  (toQuintets (b.length * 8 / 5) (ofBytes b)).map letter

variable {k n : ℕ} {q : List (Fin 32)}

@[simp] lemma length_toQuintets (k n : ℕ) : (toQuintets k n).length = k := by
  induction k generalizing n with
  | zero => rfl
  | succ k ih => simp [toQuintets, ih]

@[simp] lemma ofQuintets_nil : ofQuintets [] = 0 := rfl

@[simp] lemma ofQuintets_append (q : List (Fin 32)) (d : Fin 32) :
    ofQuintets (q ++ [d]) = ofQuintets q * 32 + d := by
  simp [ofQuintets]

lemma ofQuintets_toQuintets (h : n < 32 ^ k) : ofQuintets (toQuintets k n) = n := by
  induction k generalizing n with
  | zero =>
    have hn : n = 0 := by simpa using h
    simp [toQuintets, hn]
  | succ k ih =>
    have hn : n / 32 < 32 ^ k := by
      apply Nat.div_lt_of_lt_mul
      rwa [pow_succ, mul_comm] at h
    rw [toQuintets, ofQuintets_append, ih hn]
    exact Nat.div_add_mod' n 32

lemma toQuintets_ofQuintets (q : List (Fin 32)) : toQuintets q.length (ofQuintets q) = q := by
  induction q using List.reverseRecOn with
  | nil => rfl
  | append_singleton q d ih =>
    have hdiv : (ofQuintets q * 32 + d) / 32 = ofQuintets q := by omega
    have hmod : (ofQuintets q * 32 + d) % 32 = d := by omega
    simp only [List.length_append, List.length_singleton, toQuintets, ofQuintets_append, hdiv, hmod,
      ih]

lemma head?_toQuintets (k n : ℕ) :
    (toQuintets (k + 1) n).head? = some ⟨n / 32 ^ k % 32, Nat.mod_lt _ (by decide)⟩ := by
  induction k generalizing n with
  | zero => simp [toQuintets]
  | succ k ih =>
    rw [toQuintets, List.head?_append, ih]
    simp [Nat.div_div_eq_div_mul, pow_succ, mul_comm]

end StellarTags.Library.Base32

/-! Byte strings in base 64: three bytes are four letters, and the last letters are not padded. -/

namespace StellarTags.Library.Base64

def toSextets : List (Fin 256) → List (Fin 64)
  | a :: b :: c :: rest =>
    Fin.ofNat _ (a / 4) :: Fin.ofNat _ (a % 4 * 16 + b / 16) :: Fin.ofNat _ (b % 16 * 4 + c / 64) ::
      Fin.ofNat _ (c % 64) :: toSextets rest
  | [a, b] => [Fin.ofNat _ (a / 4), Fin.ofNat _ (a % 4 * 16 + b / 16), Fin.ofNat _ (b % 16 * 4)]
  | [a] => [Fin.ofNat _ (a / 4), Fin.ofNat _ (a % 4 * 16)]
  | [] => []

/-- A letter on its own at the end gives no byte. -/
def ofSextets : List (Fin 64) → List (Fin 256)
  | p :: q :: r :: s :: rest =>
    Fin.ofNat _ (p * 4 + q / 16) :: Fin.ofNat _ (q % 16 * 16 + r / 4) ::
      Fin.ofNat _ (r % 4 * 64 + s) :: ofSextets rest
  | [p, q, r] => [Fin.ofNat _ (p * 4 + q / 16), Fin.ofNat _ (q % 16 * 16 + r / 4)]
  | [p, q] => [Fin.ofNat _ (p * 4 + q / 16)]
  | _ => []

/-- The ASCII codes of the alphabet that is safe in a URL. -/
def letter (d : Fin 64) : ℕ :=
  if d.val < 26 then 65 + d.val
  else if d.val < 52 then 71 + d.val
  else if d.val < 62 then d.val - 4
  else if d.val = 62 then 45
  else 95

/-- The letters of either alphabet. -/
def sextet (code : ℕ) : Option (Fin 64) :=
  if 65 ≤ code ∧ code ≤ 90 then some (Fin.ofNat _ (code - 65))
  else if 97 ≤ code ∧ code ≤ 122 then some (Fin.ofNat _ (code - 71))
  else if 48 ≤ code ∧ code ≤ 57 then some (Fin.ofNat _ (code + 4))
  else if code = 45 ∨ code = 43 then some 62
  else if code = 95 ∨ code = 47 then some 63
  else none

def encode (bytes : List (Fin 256)) : List ℕ := (toSextets bytes).map letter

/-- Reading stops at the first sign of padding, and passes over what is no letter. -/
def decode (codes : List ℕ) : List (Fin 256) :=
  ofSextets ((codes.takeWhile (· ≠ 61)).filterMap sextet)

lemma sextet_letter (d : Fin 64) : sextet (letter d) = some d := by
  revert d
  decide

lemma letter_lt (d : Fin 64) : letter d < 128 ∧ letter d ≠ 61 ∧ 33 ≤ letter d := by
  revert d
  decide

lemma ofSextets_toSextets (bytes : List (Fin 256)) : ofSextets (toSextets bytes) = bytes := by
  fun_induction toSextets bytes with
  | case1 a b c rest ih =>
    rw [ofSextets, ih]
    refine congrArg₂ _ (Fin.ext ?_) (congrArg₂ _ (Fin.ext ?_) (congrArg₂ _ (Fin.ext ?_) rfl))
    · simp only [Fin.val_ofNat]
      omega
    · simp only [Fin.val_ofNat]
      omega
    · simp only [Fin.val_ofNat]
      omega
  | case2 a b =>
    refine congrArg₂ _ (Fin.ext ?_) (congrArg₂ _ (Fin.ext ?_) rfl)
    · simp only [Fin.val_ofNat]
      omega
    · simp only [Fin.val_ofNat]
      omega
  | case3 a =>
    refine congrArg₂ _ (Fin.ext ?_) rfl
    simp only [Fin.val_ofNat]
    omega
  | case4 => rfl

lemma mem_encode {bytes : List (Fin 256)} {code : ℕ} (h : code ∈ encode bytes) :
    code < 128 ∧ code ≠ 61 ∧ 33 ≤ code := by
  obtain ⟨d, -, rfl⟩ := List.mem_map.mp h
  exact letter_lt d

lemma decode_encode (bytes : List (Fin 256)) : decode (encode bytes) = bytes := by
  have hplain : ∀ code ∈ encode bytes, (decide (code ≠ 61)) = true := fun code h => by
    simpa using (mem_encode h).2.1
  have htake : (encode bytes).takeWhile (· ≠ 61) = encode bytes :=
    List.takeWhile_eq_self_iff.mpr hplain
  have hletters : (encode bytes).filterMap sextet = toSextets bytes := by
    rw [encode, List.filterMap_map]
    simp [Function.comp_def, sextet_letter]
  rw [decode, htake, hletters, ofSextets_toSextets]

end StellarTags.Library.Base64
