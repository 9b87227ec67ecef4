import StellarTags.Library.PositionalNumerals
import StellarTags.Library.Integers
import StellarTags.Library.PrefixCodes
import StellarTags.Platform.Encoding
import Mathlib.Tactic

/-! Soroban values and the parts of the host the contracts rely on. -/

namespace StellarTags.Soroban

structure Address where
  id : ℕ
  deriving DecidableEq, Repr

structure Hash where
  id : ℕ
  deriving DecidableEq, Repr

structure PublicKey where
  id : ℕ
  deriving DecidableEq, Repr

structure Signature where
  id : ℕ
  deriving DecidableEq, Repr

abbrev Bytes := List (Fin 256)

/-- The contract types that travel as maps; their field names are fixed by the type. -/
inductive Shape : Type
  | payment
  | swapPayment
  | splitRoute
  | quote
  | metaPayment
  | paymentIntent
  | domainSeparator
  | permitDomain
  | permitPayload
  deriving DecidableEq, Repr

/-- A struct lists its fields in the order of their names. -/
inductive Val : Type
  | u32 (n : ℕ)
  | u64 (n : ℕ)
  | i128 (n : ℤ)
  | address (a : Address)
  | bytes (b : Bytes)
  | text (s : String)
  | vec (vs : List Val)
  | struct (shape : Shape) (fields : List Val)

structure Host where
  /-- The contract's own address. -/
  self : Address
  networkId : Hash
  xdr : Val → Bytes
  sha256 : Bytes → Hash
  hashBytes : Hash → Bytes
  keyBytes : PublicKey → Bytes
  ed25519Verify : PublicKey → Bytes → Signature → Bool

/-- A host to run examples on: a signature verifies under the key of its own number. -/
def Host.sample : Host where
  self := ⟨0⟩
  networkId := ⟨0⟩
  xdr
    | .address a => List.replicate a.id 1
    | _ => []
  sha256 b := ⟨b.length⟩
  hashBytes _ := []
  keyBytes _ := []
  ed25519Verify key _ signature := decide (key.id = signature.id)

end StellarTags.Soroban

/-! An encoding of values that can be read back one way only. -/

namespace StellarTags.Soroban

def Shape.tag : Shape → ℕ
  | .payment => 0
  | .swapPayment => 1
  | .splitRoute => 2
  | .quote => 3
  | .metaPayment => 4
  | .paymentIntent => 5
  | .domainSeparator => 6
  | .permitDomain => 7
  | .permitPayload => 8

lemma Shape.tag_injective : Function.Injective Shape.tag := by
  intro s s' h
  cases s <;> cases s' <;> first | rfl | cases h

mutual

/-- A code without a length: where a value ends is read off its own words. -/
def Val.code : Val → List ℕ
  | .u32 n => [0, n]
  | .u64 n => [1, n]
  | .i128 n => [2, Encodable.encode n]
  | .address a => [3, a.id]
  | .bytes b => [4, Encodable.encode b]
  | .text s => [5, Encodable.encode (s.toList.map Char.toNat)]
  | .vec vs => 6 :: codes vs
  | .struct shape fields => 7 :: shape.tag :: codes fields

def codes : List Val → List ℕ
  | [] => [0]
  | v :: vs => 1 :: (v.code ++ codes vs)

end

mutual

lemma Val.code_append {v w : Val} {r r' : List ℕ} (h : v.code ++ r = w.code ++ r') :
    v = w ∧ r = r' := by
  cases v <;> cases w <;>
    simp only [Val.code, List.cons_append, List.nil_append, List.cons.injEq, Nat.reduceEqDiff,
      OfNat.ofNat_ne_zero, OfNat.zero_ne_ofNat, zero_ne_one, one_ne_zero, OfNat.one_ne_ofNat,
      OfNat.ofNat_ne_one, false_and, true_and] at h
  case u32 => simpa using h
  case u64 => simpa using h
  case i128 => simpa using h
  case address => exact ⟨congrArg _ (congrArg Address.mk h.1), h.2⟩
  case bytes => simpa using h
  case text s s' =>
    obtain ⟨hs, rfl⟩ := h
    have hchars := List.map_injective_iff.mpr (fun _ _ => Char.toNat_inj.mp)
      (Encodable.encode_injective hs)
    exact ⟨congrArg _ (String.toList_inj.mp hchars), rfl⟩
  case vec vs ws =>
    obtain ⟨rfl, rfl⟩ := codes_append h
    exact ⟨rfl, rfl⟩
  case struct shape vs shape' ws =>
    obtain ⟨hshape, hrest⟩ := h
    obtain rfl := Shape.tag_injective hshape
    obtain ⟨rfl, rfl⟩ := codes_append hrest
    exact ⟨rfl, rfl⟩

lemma codes_append {vs ws : List Val} {r r' : List ℕ} (h : codes vs ++ r = codes ws ++ r') :
    vs = ws ∧ r = r' := by
  cases vs <;> cases ws <;>
    simp only [codes, List.cons_append, List.nil_append, List.cons.injEq, zero_ne_one, one_ne_zero,
      false_and, true_and, List.append_assoc] at h
  case nil => exact ⟨rfl, h⟩
  case cons v vs w ws =>
    obtain ⟨rfl, hrest⟩ := Val.code_append h
    obtain ⟨rfl, rfl⟩ := codes_append hrest
    exact ⟨rfl, rfl⟩

end

lemma Val.code_injective : Function.Injective Val.code := by
  intro v w h
  have happ : v.code ++ [] = w.code ++ [] := by rw [h]
  exact (Val.code_append happ).1

/-- As many ones as the number of the code. -/
def Val.tally (v : Val) : Bytes := List.replicate (Encodable.encode v.code) 1

lemma Val.tally_injective : Function.Injective Val.tally := by
  intro v w h
  have hlength := congrArg List.length h
  rw [Val.tally, Val.tally, List.length_replicate, List.length_replicate] at hlength
  exact Val.code_injective (Encodable.encode_injective hlength)

end StellarTags.Soroban

/-! The XDR of the values that signed messages are made of. -/

namespace StellarTags.Soroban

open Library.Integers Library.BigEndian Library.PrefixCodes
open Platform (utf8 utf8_injective toList_loop)

abbrev U64 := {n : ℕ // n ≤ maxU64}

/-- Strings whose length in bytes fits their header. -/
abbrev Text := {s : String // (utf8 s).length ≤ maxU32}

/-- The number of the kind of value, in front of it. -/
def scVal (kind : Fin 256) (body : Bytes) : Bytes := [0, 0, 0, kind] ++ body

def scU64 (n : ℕ) : Bytes := scVal 5 (toBytes 8 n)

def scI128 (n : ℤ) : Bytes := scVal 10 (toBytesSigned 16 n)

/-- A length, then as many bytes, then zeros up to a multiple of four. -/
def counted (b : Bytes) : Bytes :=
  toBytes 4 b.length ++ (b ++ List.replicate ((4 - b.length % 4) % 4) 0)

def scString (s : String) : Bytes := scVal 14 (counted (utf8 s))

def scSymbol (s : String) : Bytes := scVal 15 (counted (utf8 s))

/-- A map that is there, its length, and each name with its value. -/
def scMap (entries : List (String × Bytes)) : Bytes :=
  scVal 17 ([0, 0, 0, 1] ++ toBytes 4 entries.length ++
    entries.flatMap fun entry => scSymbol entry.1 ++ entry.2)

@[simp] lemma length_scVal (kind : Fin 256) (body : Bytes) :
    (scVal kind body).length = 4 + body.length := by
  simp [scVal]
  omega

@[simp] lemma length_scU64 (n : ℕ) : (scU64 n).length = 12 := by simp [scU64]

@[simp] lemma length_scI128 (n : ℤ) : (scI128 n).length = 20 := by simp [scI128]

lemma length_utf8 (s : String) : (utf8 s).length = s.toByteArray.data.toList.length := by
  rw [utf8, List.length_map, ByteArray.toList, toList_loop]
  rfl

lemma le_length_counted (b : Bytes) : 4 + b.length ≤ (counted b).length := by
  simp [counted]

lemma le_length_scSymbol (s : String) : 8 + s.toByteArray.data.toList.length ≤ (scSymbol s).length := by
  have hcounted := le_length_counted (utf8 s)
  rw [scSymbol, length_scVal, ← length_utf8]
  omega

lemma scU64_code : PrefixFree fun n : U64 => scU64 n.val := by
  apply PrefixFree.of_length
  · intro n m h
    have hbytes := List.append_cancel_left h
    have hlt (k : U64) : k.val < 256 ^ 8 := Nat.lt_of_le_pred (by decide) k.property
    apply Subtype.ext
    rw [← ofBytes_toBytes (hlt n), ← ofBytes_toBytes (hlt m), hbytes]
  · intro n m
    rw [length_scU64, length_scU64]

lemma scI128_code : PrefixFree fun n : I128 => scI128 n.val := by
  apply PrefixFree.of_length
  · intro n m h
    have hbytes := List.append_cancel_left h
    have hbounds (k : I128) : -(256 ^ 16 : ℤ) ≤ 2 * k.val ∧ 2 * k.val < 256 ^ 16 := by
      obtain ⟨hlow, hhigh⟩ := k.property
      simp only [minI128, maxI128] at hlow hhigh
      omega
    apply Subtype.ext
    rw [← ofBytesSigned_toBytesSigned (hbounds n).1 (hbounds n).2,
      ← ofBytesSigned_toBytesSigned (hbounds m).1 (hbounds m).2, hbytes]
  · intro n m
    rw [length_scI128, length_scI128]

lemma counted_code : PrefixFree fun b : {b : Bytes // b.length ≤ maxU32} => counted b.val := by
  have hlength {b c : {b : Bytes // b.length ≤ maxU32}}
      (h : toBytes 4 b.val.length = toBytes 4 c.val.length) : b.val.length = c.val.length := by
    have hlt (d : {b : Bytes // b.length ≤ maxU32}) : d.val.length < 256 ^ 4 :=
      Nat.lt_of_le_pred (by decide) d.property
    rw [← ofBytes_toBytes (hlt b), ← ofBytes_toBytes (hlt c), h]
  apply PrefixFree.delimited
  · intro b c
    rw [length_toBytes, length_toBytes]
  · intro b c h
    rw [List.length_append, List.length_append, List.length_replicate, List.length_replicate,
      hlength h]
  · intro b c h hbody
    exact Subtype.ext (List.append_inj hbody (hlength h)).1

lemma scString_code : PrefixFree fun s : Text => scString s.val := by
  have hbytes : Function.Injective fun s : Text =>
      (⟨utf8 s.val, s.property⟩ : {b : Bytes // b.length ≤ maxU32}) := by
    intro s t h
    exact Subtype.ext (utf8_injective (congrArg Subtype.val h))
  exact (counted_code.comap hbytes).labelled [0, 0, 0, 14]

end StellarTags.Soroban
