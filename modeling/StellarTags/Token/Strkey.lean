import StellarTags.Library.BaseEncodings
import StellarTags.Soroban.Values

/-! The token's decoder of account addresses, and the strkeys it accepts. -/

namespace StellarTags.Token

open Library.BigEndian Library.Base32 Soroban

def strkeyLen : ℕ := 56

def accountIdVersion : Fin 256 := 48

def letterG : Fin 256 := 71

/-- What the letters read so far have left to decode, and the bytes they gave. -/
structure Decoder where
  accumulator : ℕ
  bits : ℕ
  decoded : Bytes
  deriving DecidableEq, Repr

def letterValue (c : Fin 256) : Option ℕ :=
  if 65 ≤ c.val ∧ c.val ≤ 90 then some (c.val - 65)
  else if 50 ≤ c.val ∧ c.val ≤ 55 then some (c.val - 50 + 26)
  else none

namespace Decoder

def start : Decoder := ⟨0, 0, []⟩

/-- One letter of five bits; the accumulator is a 32-bit word. -/
def feed (d : Decoder) (c : Fin 256) : Option Decoder := do
  let value ← letterValue c
  let accumulator := (d.accumulator <<< 5) % 2 ^ 32 ||| value
  let bits := d.bits + 5
  if 8 ≤ bits then
    if 35 ≤ d.decoded.length then none
    else
      some ⟨accumulator, bits - 8,
        d.decoded ++ [Fin.ofNat 256 (accumulator >>> (bits - 8) &&& 0xff)]⟩
  else some ⟨accumulator, bits, d.decoded⟩

end Decoder

/-- The key in the text of an address, if it is an account's. The checksum is not looked at. -/
def accountPublicKey (encoded : Bytes) : Option Bytes :=
  if encoded.length ≠ strkeyLen then none
  else if encoded.head? ≠ some letterG then none
  else do
    let decoder ← encoded.foldlM Decoder.feed .start
    if decoder.decoded.length ≠ 35 ∨ decoder.decoded.head? ≠ some accountIdVersion then none
    else some ((decoder.decoded.drop 1).take 32)

/-- The strkey of an account: its version, its key and a checksum of two bytes, in base 32. -/
def strkey (key checksum : Bytes) : Bytes := encode (accountIdVersion :: (key ++ checksum))

/-- The text is the strkey of the account with the key. -/
def IsStrkey (text key : Bytes) : Prop :=
  key.length = 32 ∧ ∃ checksum : Bytes, checksum.length = 2 ∧ text = strkey key checksum

lemma letterValue_letter (d : Fin 32) : letterValue (letter d) = some d.val := by
  revert d
  decide

lemma letterValue_eq_some {c : Fin 256} {n : ℕ} (h : letterValue c = some n) :
    ∃ d : Fin 32, n = d.val ∧ letter d = c := by
  rw [letterValue] at h
  split_ifs at h with hl hd
  · obtain rfl := Option.some.inj h
    refine ⟨⟨c.val - 65, by omega⟩, rfl, ?_⟩
    rw [letter, if_pos (by dsimp only; omega)]
    exact Fin.ext (by dsimp only; omega)
  · obtain rfl := Option.some.inj h
    refine ⟨⟨c.val - 50 + 26, by omega⟩, rfl, ?_⟩
    rw [letter, if_neg (by dsimp only; omega)]
    exact Fin.ext (by dsimp only; omega)

lemma shift_or (n : ℕ) (d : Fin 32) :
    (n <<< 5) % 2 ^ 32 ||| d.val = (n * 32 + d.val) % 2 ^ 32 := by
  have hn : (n <<< 5) % 2 ^ 32 = (n % 2 ^ 27) <<< 5 := by
    rw [Nat.shiftLeft_eq, Nat.shiftLeft_eq]
    omega
  rw [hn, ← Nat.shiftLeft_add_eq_or_of_lt d.isLt, Nat.shiftLeft_eq]
  omega

namespace Decoder

variable {d e : Decoder} {q : List (Fin 32)} {text : Bytes}

/-- The letters read are the quintets, and the bytes are all that they fill. -/
structure Reads (q : List (Fin 32)) (d : Decoder) : Prop where
  length : d.decoded.length = q.length * 5 / 8
  bits : d.bits = q.length * 5 % 8
  value : ofBytes d.decoded = ofQuintets q / 2 ^ d.bits
  accumulator : d.accumulator = ofQuintets q % 2 ^ 32

lemma Reads.start : Reads [] .start := ⟨rfl, rfl, rfl, rfl⟩

/-- The byte is cut out of the accumulator's last bits, which are those of the whole number. -/
lemma byte_eq {n m k : ℕ} (hk : k < 5) (hm : m = n % 2 ^ 32) :
    ((Fin.ofNat 256 (m >>> k &&& 0xff) : Fin 256) : ℕ) = n / 2 ^ k % 256 := by
  have hand : m >>> k &&& 0xff = m / 2 ^ k % 256 := by
    rw [Nat.shiftRight_eq_div_pow]
    exact Nat.and_two_pow_sub_one_eq_mod (m / 2 ^ k) 8
  rw [hand, hm, Fin.val_ofNat, Nat.mod_mod]
  interval_cases k <;> omega

lemma Reads.feed (h : Reads q d) (hq : q.length < 56) (x : Fin 32) :
    ∃ e, d.feed (letter x) = some e ∧ Reads (q ++ [x]) e := by
  have hlen : (q ++ [x]).length * 5 = q.length * 5 + 5 := by
    rw [List.length_append, List.length_singleton]
    ring
  have hbits := h.bits
  have hshort := h.length
  have hacc : (d.accumulator <<< 5) % 2 ^ 32 ||| x.val = ofQuintets (q ++ [x]) % 2 ^ 32 := by
    rw [shift_or, ofQuintets_append, h.accumulator]
    omega
  have hfeed : d.feed (letter x) = if 8 ≤ d.bits + 5 then
      if 35 ≤ d.decoded.length then none
      else some ⟨ofQuintets (q ++ [x]) % 2 ^ 32, d.bits + 5 - 8, d.decoded ++
        [Fin.ofNat 256 ((ofQuintets (q ++ [x]) % 2 ^ 32) >>> (d.bits + 5 - 8) &&& 0xff)]⟩
      else some ⟨ofQuintets (q ++ [x]) % 2 ^ 32, d.bits + 5, d.decoded⟩ := by
    simp only [Decoder.feed, letterValue_letter, hacc, Option.bind_eq_bind, Option.bind_some]
  by_cases hfull : 8 ≤ d.bits + 5
  · rw [if_pos hfull, if_neg (by omega)] at hfeed
    refine ⟨_, hfeed, ?_, ?_, ?_, rfl⟩
    · rw [List.length_append, List.length_singleton, hlen]
      omega
    · rw [hlen]
      dsimp only
      omega
    · -- What was left over and the new quintet make up the next byte.
      have hsplit : ofQuintets (q ++ [x]) / 2 ^ (d.bits + 5 - 8) / 256 =
          ofQuintets q / 2 ^ d.bits := by
        have hpow : 2 ^ (d.bits + 5 - 8) * 256 = 32 * 2 ^ d.bits := by
          have h256 : (256 : ℕ) = 2 ^ 8 := rfl
          have h32 : (32 : ℕ) = 2 ^ 5 := rfl
          rw [h256, h32, ← pow_add, ← pow_add]
          congr 1
          omega
        have hquotient : (ofQuintets q * 32 + x) / 32 = ofQuintets q := by omega
        rw [Nat.div_div_eq_div_mul, hpow, ← Nat.div_div_eq_div_mul, ofQuintets_append, hquotient]
      rw [ofBytes_append, h.value, byte_eq (by omega) rfl, ← hsplit]
      exact Nat.div_add_mod' _ 256
  · rw [if_neg hfull] at hfeed
    refine ⟨_, hfeed, ?_, ?_, ?_, rfl⟩
    · rw [hlen]
      dsimp only
      omega
    · rw [hlen]
      dsimp only
      omega
    · have hpow : 2 ^ (d.bits + 5) = 32 * 2 ^ d.bits := by
        rw [pow_add, mul_comm]
        rfl
      have hquotient : (ofQuintets q * 32 + x) / 32 = ofQuintets q := by omega
      dsimp only
      rw [hpow, ← Nat.div_div_eq_div_mul, ofQuintets_append, hquotient, h.value]

lemma Reads.run (h : Reads q d) (r : List (Fin 32)) (hr : q.length + r.length ≤ 56) :
    ∃ e, (r.map letter).foldlM Decoder.feed d = some e ∧ Reads (q ++ r) e := by
  induction r generalizing q d with
  | nil => exact ⟨d, rfl, by simpa using h⟩
  | cons x r ih =>
    rw [List.length_cons] at hr
    obtain ⟨e, he, hread⟩ := h.feed (by omega) x
    obtain ⟨f, hf, hall⟩ := ih hread (by rw [List.length_append, List.length_singleton]; omega)
    refine ⟨f, ?_, ?_⟩
    · simpa [he] using hf
    · simpa using hall

lemma quintets_of_run (h : text.foldlM Decoder.feed d = some e) :
    ∃ q : List (Fin 32), text = q.map letter := by
  induction text generalizing d with
  | nil => exact ⟨[], rfl⟩
  | cons c text ih =>
    rw [List.foldlM_cons, Option.bind_eq_bind, Option.bind_eq_some_iff] at h
    obtain ⟨f, hf, h⟩ := h
    obtain ⟨q, rfl⟩ := ih h
    rw [Decoder.feed, Option.bind_eq_bind, Option.bind_eq_some_iff] at hf
    obtain ⟨n, hn, -⟩ := hf
    obtain ⟨x, -, rfl⟩ := letterValue_eq_some hn
    exact ⟨x :: q, rfl⟩

lemma run_encode {b : Bytes} (hb : b.length = 35) :
    ∃ e, (encode b).foldlM Decoder.feed .start = some e ∧ e.decoded = b := by
  have hwidth : 256 ^ 35 = 32 ^ 56 := by norm_num
  have hlt := ofBytes_lt b
  rw [hb, hwidth] at hlt
  have hlen : b.length * 8 / 5 = 56 := by rw [hb]
  have hquintets := length_toQuintets 56 (ofBytes b)
  have hnumber := ofQuintets_toQuintets hlt
  rw [encode, hlen]
  generalize toQuintets 56 (ofBytes b) = q at hquintets hnumber
  obtain ⟨e, he, hread⟩ := Reads.start.run q (by simp [hquintets])
  refine ⟨e, he, ?_⟩
  rw [List.nil_append] at hread
  have hlength : e.decoded.length = b.length := by rw [hread.length, hquintets, hb]
  have hbits : e.bits = 0 := by rw [hread.bits, hquintets]
  have hvalue : ofBytes e.decoded = ofBytes b := by rw [hread.value, hbits, hnumber]; simp
  calc e.decoded = toBytes e.decoded.length (ofBytes e.decoded) := (toBytes_ofBytes _).symm
    _ = toBytes b.length (ofBytes b) := by rw [hlength, hvalue]
    _ = b := toBytes_ofBytes b

end Decoder

lemma head?_strkey {key checksum : Bytes} (hk : key.length = 32) (hc : checksum.length = 2) :
    (strkey key checksum).head? = some letterG := by
  have hlen : (accountIdVersion :: (key ++ checksum)).length * 8 / 5 = 55 + 1 := by
    simp [hk, hc]
  have hrest : ofBytes (key ++ checksum) < 256 ^ 34 := by
    have h := ofBytes_lt (key ++ checksum)
    rwa [List.length_append, hk, hc] at h
  have hvalue : ofBytes (accountIdVersion :: (key ++ checksum)) =
      48 * 256 ^ 34 + ofBytes (key ++ checksum) := by
    have h := ofBytes_cons accountIdVersion (key ++ checksum)
    rwa [List.length_append, hk, hc] at h
  rw [strkey, encode, hlen, List.head?_map, head?_toQuintets, hvalue, Option.map_some]
  have hsix : (48 * 256 ^ 34 + ofBytes (key ++ checksum)) / 32 ^ 55 % 32 = 6 := by omega
  have hdigit : (⟨(48 * 256 ^ 34 + ofBytes (key ++ checksum)) / 32 ^ 55 % 32,
      Nat.mod_lt _ (by decide)⟩ : Fin 32) = 6 := Fin.ext hsix
  rw [hdigit]
  rfl

/-- The decoder gives the key of every account's strkey, and of nothing else. -/
lemma accountPublicKey_eq_some {text key : Bytes} :
    accountPublicKey text = some key ↔ IsStrkey text key := by
  constructor
  · intro h
    rw [accountPublicKey] at h
    split_ifs at h with hlen hletter
    rw [Option.bind_eq_bind, Option.bind_eq_some_iff] at h
    obtain ⟨e, he, h⟩ := h
    split_ifs at h with hbad
    obtain ⟨hdecoded, hversion⟩ := not_or.mp hbad
    rw [not_not] at hlen hdecoded hversion
    obtain rfl := Option.some.inj h
    obtain ⟨q, rfl⟩ := Decoder.quintets_of_run he
    rw [List.length_map, strkeyLen] at hlen
    obtain ⟨f, hf, hread⟩ := Decoder.Reads.start.run q (by simp [hlen])
    obtain rfl : f = e := by
      rw [hf] at he
      exact Option.some.inj he
    obtain ⟨rest, hrest⟩ := List.head?_eq_some_iff.mp hversion
    have hlength : rest.length = 34 := by
      rw [hrest] at hdecoded
      simpa using hdecoded
    refine ⟨by simp [hdecoded], rest.drop 32, by simp [hlength], ?_⟩
    have hvalue := hread.value
    have hbits := hread.bits
    rw [List.nil_append, hlen] at hbits
    rw [hbits, List.nil_append] at hvalue
    have hall : (accountIdVersion :: ((f.decoded.drop 1).take 32 ++ rest.drop 32)) = f.decoded := by
      rw [hrest]
      simp
    have hnumber : ofBytes f.decoded = ofQuintets q := by simpa using hvalue
    have hletters : f.decoded.length * 8 / 5 = q.length := by rw [hdecoded, hlen]
    rw [strkey, hall, encode, hletters, hnumber, toQuintets_ofQuintets]
  · rintro ⟨hk, checksum, hc, rfl⟩
    have hlength : (accountIdVersion :: (key ++ checksum)).length = 35 := by simp [hk, hc]
    obtain ⟨e, he, hdecoded⟩ := Decoder.run_encode hlength
    have htext : (strkey key checksum).length = strkeyLen := by
      simp [strkey, encode, hk, hc, strkeyLen]
    rw [← strkey] at he
    simp [accountPublicKey, htext, head?_strkey hk hc, he, hdecoded, hk, hc]

section Addresses

def crcPolynomial : ℕ := 0x1021

/-- One bit of the division, in a register of 16 bits. -/
def crcRound (crc : ℕ) : ℕ :=
  if crc.testBit 15 then (crc <<< 1) % 2 ^ 16 ^^^ crcPolynomial else (crc <<< 1) % 2 ^ 16

def crc16 (bytes : Bytes) : ℕ :=
  bytes.foldl (fun crc byte => crcRound^[8] (crc ^^^ byte.val <<< 8)) 0

/-- The address of an account as it is written: the checksum ends it, its low byte first. -/
def accountStrkey (key : Bytes) : Bytes :=
  strkey key (toBytes 2 (crc16 (accountIdVersion :: key))).reverse

lemma isStrkey_accountStrkey {key : Bytes} (hk : key.length = 32) :
    IsStrkey (accountStrkey key) key :=
  ⟨hk, (toBytes 2 (crc16 (accountIdVersion :: key))).reverse, by simp, rfl⟩

lemma accountPublicKey_eq_none {text : Bytes}
    (h : text.length ≠ strkeyLen ∨ text.head? ≠ some letterG) : accountPublicKey text = none := by
  rw [accountPublicKey]
  rcases h with hlen | hletter
  · rw [if_pos hlen]
  · rw [if_pos hletter, ite_self]

/-- An account's address gives back the account's key, and no other length or first letter gives
any key. -/
theorem accountPublicKey_exact :
    (∀ key : Bytes, key.length = 32 → accountPublicKey (accountStrkey key) = some key) ∧
      ∀ text : Bytes, text.length ≠ strkeyLen ∨ text.head? ≠ some letterG →
        accountPublicKey text = none :=
  ⟨fun _ hk => accountPublicKey_eq_some.mpr (isStrkey_accountStrkey hk),
    fun _ h => accountPublicKey_eq_none h⟩

theorem accountPublicKey_exact_zero :
    accountPublicKey (accountStrkey (List.replicate 32 0)) = some (List.replicate 32 0) ∧
      accountPublicKey [] = none :=
  ⟨accountPublicKey_exact.1 _ rfl, accountPublicKey_exact.2 [] (.inl (by decide))⟩

/-- The address whose key is zero ends in `WHF`, after its last `A`. -/
example : (accountStrkey (List.replicate 32 0)).drop 52 = [65, 87, 72, 70] := by decide +kernel

end Addresses

end StellarTags.Token
