import StellarTags.Library.PositionalNumerals
import StellarTags.Token.Strkey

/-! The cross-chain payment payload: the bridge's encoder, the router's decoder, and what of a
payment gets from one to the other. -/

namespace StellarTags.Bridge

open Library.BigEndian Soroban

abbrev U128 := {n : ℕ // n < 2 ^ 128}

section Encoder

def byteOf (n : ℕ) : Fin 256 := Fin.ofNat 256 n

def write (payload : Bytes) (offset : ℕ) : Bytes → Bytes
  | [] => payload
  | b :: bytes => write (payload.set offset b) (offset + 1) bytes

def writeAmount (payload : Bytes) (offset amount : ℕ) : Bytes :=
  (List.range 16).foldl
    (fun payload i => payload.set (offset + 15 - i) (byteOf (amount >>> (i * 8)))) payload

def writeLength (payload : Bytes) (offset length : ℕ) : Bytes :=
  (payload.set offset (byteOf (length >>> 8))).set (offset + 1) (byteOf length)

def encodePayload (recipient token : Bytes) (amount : ℕ) (sender chain memo : Bytes) : Bytes :=
  let totalSize := 32 + 32 + 16 + 2 + sender.length + 2 + chain.length + memo.length
  let payload := List.replicate totalSize 0
  let offset := 0
  let payload := write payload offset (recipient.take 32)
  let offset := offset + 32
  let payload := write payload offset (token.take 32)
  let offset := offset + 32
  let payload := writeAmount payload offset amount
  let offset := offset + 16
  let payload := writeLength payload offset sender.length
  let offset := offset + 2
  let payload := write payload offset sender
  let offset := offset + sender.length
  let payload := writeLength payload offset chain.length
  let offset := offset + 2
  let payload := write payload offset chain
  let offset := offset + chain.length
  write payload offset memo

end Encoder

section Decoder

structure CrossChainPayment where
  sourceAddress : Bytes
  sourceChain : Bytes
  recipient : Address
  tokenAddress : Address
  amount : ℤ
  memo : Bytes
  deriving DecidableEq, Repr

/-- A slice whose bounds are out of place traps, as does an index. -/
def slice (payload : Bytes) (first last : ℕ) : Option Bytes :=
  if first ≤ last ∧ last ≤ payload.length then some ((payload.drop first).take (last - first))
  else none

def lengthAt (payload : Bytes) (offset : ℕ) : Option ℕ := do
  let high ← payload[offset]?
  let low ← payload[offset + 1]?
  pure (ofBytes [high, low])

/-- `addressFromString` is the host's parser of addresses; it traps on what is not one. -/
def decodePaymentPayload (addressFromString : Bytes → Option Address) (payload : Bytes) :
    Option CrossChainPayment := do
  let recipientBytes ← slice payload 0 32
  let recipient ← addressFromString recipientBytes
  let tokenBytes ← slice payload 32 64
  let tokenAddress ← addressFromString tokenBytes
  let amountBytes ← slice payload 64 80
  let amount := ofBytesSigned 16 amountBytes
  let senderLen ← lengthAt payload 80
  let senderEnd := 82 + senderLen
  let sourceAddress ← slice payload 82 senderEnd
  let chainLen ← lengthAt payload senderEnd
  let chainEnd := senderEnd + 2 + chainLen
  let sourceChain ← slice payload (senderEnd + 2) chainEnd
  let memo := if chainEnd < payload.length then payload.drop chainEnd else []
  pure ⟨sourceAddress, sourceChain, recipient, tokenAddress, amount, memo⟩

end Decoder

section Layout

variable {front back bytes : Bytes} {offset n v : ℕ}

def pad (n : ℕ) (bytes : Bytes) : Bytes := bytes ++ List.replicate (n - bytes.length) 0

lemma length_pad (h : bytes.length ≤ n) : (pad n bytes).length = n := by
  simp [pad, h]

lemma set_after (middle : Bytes) (old b : Fin 256) (h : front.length + middle.length = offset) :
    (front ++ (middle ++ old :: back)).set offset b = front ++ (middle ++ b :: back) := by
  rw [← List.append_assoc, ← List.append_assoc, List.set_append_right _ _ (by simp [h])]
  simp [h]

lemma write_replicate (hfront : front.length = offset) :
    write (front ++ (List.replicate bytes.length 0 ++ back)) offset bytes =
      front ++ (bytes ++ back) := by
  induction bytes generalizing front offset with
  | nil => rfl
  | cons b bytes ih =>
    have hset : (front ++ 0 :: (List.replicate bytes.length 0 ++ back)).set offset b =
        front ++ b :: (List.replicate bytes.length 0 ++ back) := set_after [] 0 b hfront
    rw [List.length_cons, List.replicate_succ, List.cons_append, write, hset,
      List.append_cons, ih (by simp [hfront])]
    simp

lemma write_pad (hfront : front.length = offset) (h : bytes.length ≤ n) :
    write (front ++ (List.replicate n 0 ++ back)) offset bytes = front ++ (pad n bytes ++ back) := by
  obtain ⟨k, rfl⟩ := Nat.exists_eq_add_of_le h
  rw [List.replicate_add, List.append_assoc, write_replicate hfront, pad, Nat.add_sub_cancel_left,
    List.append_assoc]

lemma byteOf_shift (v i : ℕ) : byteOf (v >>> ((i + 1) * 8)) = byteOf ((v / 256) >>> (i * 8)) := by
  rw [Nat.shiftRight_eq_div_pow, Nat.shiftRight_eq_div_pow, Nat.div_div_eq_div_mul, add_mul, pow_add,
    mul_comm]
  rfl

/-- The last byte is written first, then the one before it, and so on. -/
lemma set_descending (hfront : front.length = offset) :
    (List.range n).foldl (fun payload i => payload.set (offset + n - 1 - i) (byteOf (v >>> (i * 8))))
      (front ++ (List.replicate n 0 ++ back)) = front ++ (toBytes n v ++ back) := by
  induction n generalizing v back with
  | zero => rfl
  | succ n ih =>
    have hrest : (fun (payload : Bytes) i => payload.set (offset + (n + 1) - 1 - (i + 1))
        (byteOf (v >>> ((i + 1) * 8)))) = fun payload i =>
          payload.set (offset + n - 1 - i) (byteOf ((v / 256) >>> (i * 8))) := by
      funext payload i
      rw [byteOf_shift, Nat.add_succ_sub_one, Nat.sub_sub, Nat.add_comm 1 i]
    have hlast : (front ++ (List.replicate n 0 ++ 0 :: back)).set (offset + n) (byteOf v) =
        front ++ (List.replicate n 0 ++ byteOf v :: back) := set_after _ 0 _ (by simp [hfront])
    rw [List.range_succ_eq_map, List.foldl_cons, List.foldl_map, hrest, List.replicate_succ',
      List.append_assoc, List.singleton_append, Nat.add_succ_sub_one, Nat.sub_zero, zero_mul,
      Nat.shiftRight_zero, hlast, ih, toBytes, List.append_assoc, List.singleton_append]
    rfl

lemma writeAmount_replicate (hfront : front.length = offset) :
    writeAmount (front ++ (List.replicate 16 0 ++ back)) offset v =
      front ++ (toBytes 16 v ++ back) := by
  rw [writeAmount]
  exact set_descending (n := 16) hfront

lemma writeLength_replicate (hfront : front.length = offset) :
    writeLength (front ++ (List.replicate 2 0 ++ back)) offset v = front ++ (toBytes 2 v ++ back) := by
  have hhigh : (front ++ 0 :: 0 :: back).set offset (byteOf (v >>> 8)) =
      front ++ byteOf (v >>> 8) :: 0 :: back := set_after [] 0 _ hfront
  have hlow : (front ++ byteOf (v >>> 8) :: 0 :: back).set (offset + 1) (byteOf v) =
      front ++ byteOf (v >>> 8) :: byteOf v :: back := set_after [_] 0 _ (by simp [hfront])
  have hbyte : byteOf (v >>> 8) = byteOf (v / 256) := by rw [Nat.shiftRight_eq_div_pow]
  rw [writeLength, List.replicate_succ, List.replicate_succ, List.replicate_zero]
  rw [List.cons_append, List.cons_append, List.nil_append, hhigh, hlow, hbyte]
  rfl

def heading (recipient token : Bytes) (amount : ℕ) : Bytes :=
  pad 32 (recipient.take 32) ++ (pad 32 (token.take 32) ++ toBytes 16 amount)

def field (bytes : Bytes) : Bytes := toBytes 2 bytes.length ++ bytes

lemma length_heading (recipient token : Bytes) (amount : ℕ) :
    (heading recipient token amount).length = 80 := by
  simp [heading, length_pad]

lemma write_heading (recipient token : Bytes) (amount : ℕ) :
    writeAmount (write (write
        (List.replicate 32 0 ++ (List.replicate 32 0 ++ (List.replicate 16 0 ++ back)))
          0 (recipient.take 32)) 32 (token.take 32)) 64 amount =
      heading recipient token amount ++ back := by
  have htake (b : Bytes) : (b.take 32).length ≤ 32 := List.length_take_le 32 b
  have hlength (b : Bytes) := length_pad (htake b)
  have hrecipient : write
      ([] ++ (List.replicate 32 0 ++ (List.replicate 32 0 ++ (List.replicate 16 0 ++ back)))) 0
        (recipient.take 32) = [] ++ (pad 32 (recipient.take 32) ++
          (List.replicate 32 0 ++ (List.replicate 16 0 ++ back))) := write_pad rfl (htake recipient)
  have hamount : writeAmount ((pad 32 (recipient.take 32) ++ pad 32 (token.take 32)) ++
      (List.replicate 16 0 ++ back)) 64 amount = (pad 32 (recipient.take 32) ++
        pad 32 (token.take 32)) ++ (toBytes 16 amount ++ back) :=
    writeAmount_replicate (by rw [List.length_append, hlength, hlength])
  rw [List.nil_append, List.nil_append] at hrecipient
  rw [hrecipient, write_pad (hlength recipient) (htake token), ← List.append_assoc, hamount, heading,
    List.append_assoc, List.append_assoc, List.append_assoc]

lemma write_field (hfront : front.length = offset) :
    write (writeLength (front ++ (List.replicate 2 0 ++ (List.replicate bytes.length 0 ++ back)))
      offset bytes.length) (offset + 2) bytes = front ++ (field bytes ++ back) := by
  have hbytes : write ((front ++ toBytes 2 bytes.length) ++
      (List.replicate bytes.length 0 ++ back)) (offset + 2) bytes =
        (front ++ toBytes 2 bytes.length) ++ (bytes ++ back) :=
    write_replicate (by rw [List.length_append, length_toBytes, hfront])
  rw [writeLength_replicate hfront, ← List.append_assoc, hbytes, field, List.append_assoc,
    List.append_assoc]

lemma encodePayload_eq (recipient token : Bytes) (amount : ℕ) (sender chain memo : Bytes) :
    encodePayload recipient token amount sender chain memo =
      heading recipient token amount ++ (field sender ++ (field chain ++ memo)) := by
  have hzeros : List.replicate (32 + 32 + 16 + 2 + sender.length + 2 + chain.length + memo.length)
      (0 : Fin 256) = List.replicate 32 0 ++ (List.replicate 32 0 ++ (List.replicate 16 0 ++
        (List.replicate 2 0 ++ (List.replicate sender.length 0 ++ (List.replicate 2 0 ++
          (List.replicate chain.length 0 ++ List.replicate memo.length 0)))))) := by
    simp only [List.replicate_add, List.append_assoc]
  have hheading := length_heading recipient token amount
  have hsender : (heading recipient token amount ++ field sender).length = 82 + sender.length := by
    rw [List.length_append, hheading, field, List.length_append, length_toBytes]
    omega
  have hchain : ((heading recipient token amount ++ field sender) ++ field chain).length =
      82 + sender.length + 2 + chain.length := by
    rw [List.length_append, hsender, field, List.length_append, length_toBytes]
    omega
  have hmemo : write (((heading recipient token amount ++ field sender) ++ field chain) ++
      (List.replicate memo.length 0 ++ [])) (82 + sender.length + 2 + chain.length) memo =
        ((heading recipient token amount ++ field sender) ++ field chain) ++ (memo ++ []) :=
    write_replicate hchain
  rw [List.append_nil, List.append_nil] at hmemo
  change write (write (writeLength (write (writeLength (writeAmount (write (write
    (List.replicate (32 + 32 + 16 + 2 + sender.length + 2 + chain.length + memo.length) 0)
      0 (recipient.take 32)) 32 (token.take 32)) 64 amount) 80 sender.length) 82 sender)
        (82 + sender.length) chain.length) (82 + sender.length + 2) chain)
          (82 + sender.length + 2 + chain.length) memo = _
  rw [hzeros, write_heading, write_field hheading, ← List.append_assoc, write_field hsender,
    ← List.append_assoc, hmemo, List.append_assoc, List.append_assoc]

end Layout

section Fields

variable {front back bytes : Bytes} {offset last n : ℕ}

lemma slice_append (hfront : front.length = offset) (hlast : offset + bytes.length = last) :
    slice (front ++ (bytes ++ back)) offset last = some bytes := by
  subst hfront hlast
  rw [slice, if_pos (by simp), Nat.add_sub_cancel_left, List.drop_left, List.take_left]

lemma lengthAt_append (hfront : front.length = offset) (hn : n < 256 ^ 2) :
    lengthAt (front ++ (toBytes 2 n ++ back)) offset = some n := by
  subst hfront
  obtain ⟨high, low, hbytes⟩ : ∃ high low, toBytes 2 n = [high, low] := ⟨_, _, rfl⟩
  have hhigh : (front ++ (toBytes 2 n ++ back))[front.length]? = some high := by
    rw [List.getElem?_append_right le_rfl, hbytes, Nat.sub_self]
    rfl
  have hlow : (front ++ (toBytes 2 n ++ back))[front.length + 1]? = some low := by
    rw [List.getElem?_append_right (Nat.le_add_right _ 1), hbytes, Nat.add_sub_cancel_left]
    rfl
  rw [lengthAt, hhigh, hlow]
  change some (ofBytes [high, low]) = some n
  rw [← hbytes, ofBytes_toBytes hn]

/-- All but the addresses arrives as it was sent, if the lengths fit their fields; an amount from
`2 ^ 127` on arrives negative. -/
theorem decode_encodePayload {addressFromString : Bytes → Option Address}
    {recipient token sender chain memo : Bytes} {amount : ℕ} {a b : Address}
    (hrecipient : addressFromString (pad 32 (recipient.take 32)) = some a)
    (htoken : addressFromString (pad 32 (token.take 32)) = some b)
    (hsender : sender.length < 256 ^ 2) (hchain : chain.length < 256 ^ 2) :
    decodePaymentPayload addressFromString (encodePayload recipient token amount sender chain memo) =
      some ⟨sender, chain, a, b, ofBytesSigned 16 (toBytes 16 amount), memo⟩ := by
  have hlength (b : Bytes) : (pad 32 (b.take 32)).length = 32 := length_pad (List.length_take_le 32 b)
  have hheading := length_heading recipient token amount
  have hsenders : (heading recipient token amount ++ field sender).length = 82 + sender.length := by
    rw [List.length_append, hheading, field, List.length_append, length_toBytes]
    omega
  have hchains : ((heading recipient token amount ++ field sender) ++ field chain).length =
      82 + sender.length + 2 + chain.length := by
    rw [List.length_append, hsenders, field, List.length_append, length_toBytes]
    omega
  have hpayload := encodePayload_eq recipient token amount sender chain memo
  generalize encodePayload recipient token amount sender chain memo = payload at hpayload ⊢
  have hfirst : slice payload 0 32 = some (pad 32 (recipient.take 32)) := by
    rw [hpayload, heading, List.append_assoc]
    change slice ([] ++ (pad 32 (recipient.take 32) ++ _)) 0 32 = _
    exact slice_append rfl (by rw [hlength])
  have hsecond : slice payload 32 64 = some (pad 32 (token.take 32)) := by
    rw [hpayload, heading, List.append_assoc, List.append_assoc]
    exact slice_append (hlength recipient) (by rw [hlength])
  have hamount : slice payload 64 80 = some (toBytes 16 amount) := by
    have h : payload = (pad 32 (recipient.take 32) ++ pad 32 (token.take 32)) ++
        (toBytes 16 amount ++ (field sender ++ (field chain ++ memo))) := by
      rw [hpayload, heading, List.append_assoc, List.append_assoc, List.append_assoc]
    rw [h]
    exact slice_append (by rw [List.length_append, hlength, hlength]) (by rw [length_toBytes])
  have hsenderLen : lengthAt payload 80 = some sender.length := by
    rw [hpayload, field, List.append_assoc]
    exact lengthAt_append hheading hsender
  have hsource : slice payload 82 (82 + sender.length) = some sender := by
    have h : payload = (heading recipient token amount ++ toBytes 2 sender.length) ++
        (sender ++ (field chain ++ memo)) := by
      rw [hpayload, field, List.append_assoc, List.append_assoc]
    rw [h]
    exact slice_append (by rw [List.length_append, hheading, length_toBytes]) rfl
  have hchainLen : lengthAt payload (82 + sender.length) = some chain.length := by
    have h : payload = (heading recipient token amount ++ field sender) ++
        (toBytes 2 chain.length ++ (chain ++ memo)) := by
      rw [hpayload, List.append_assoc (heading _ _ _)]
      rw [field.eq_1 chain, List.append_assoc]
    rw [h]
    exact lengthAt_append hsenders hchain
  have hsourceChain : slice payload (82 + sender.length + 2)
      (82 + sender.length + 2 + chain.length) = some chain := by
    have h : payload = ((heading recipient token amount ++ field sender) ++ toBytes 2 chain.length) ++
        (chain ++ memo) := by
      rw [hpayload, List.append_assoc, List.append_assoc (heading _ _ _)]
      rw [field.eq_1 chain, List.append_assoc]
    rw [h]
    exact slice_append (by rw [List.length_append, hsenders, length_toBytes]) rfl
  have hmemo : (if 82 + sender.length + 2 + chain.length < payload.length then
      payload.drop (82 + sender.length + 2 + chain.length) else []) = memo := by
    have h : payload = ((heading recipient token amount ++ field sender) ++ field chain) ++ memo := by
      rw [hpayload, List.append_assoc, List.append_assoc]
    rw [h, List.length_append, hchains, ← hchains, List.drop_left]
    split_ifs with hempty
    · rfl
    · exact (List.eq_nil_of_length_eq_zero (by omega)).symm
  simp only [decodePaymentPayload, Option.bind_eq_bind, hfirst, Option.bind_some, hrecipient,
    hsecond, htoken, hamount, hsenderLen, hsource, hchainLen, hsourceChain, hmemo]
  rfl

end Fields

section RoundTrip

variable {addressFromString : Bytes → Option Address} {recipient token sender chain memo : Bytes}
  {amount : U128}

/-- The decoder gives back what the encoder was given. -/
def RoundTrips (addressFromString : Bytes → Option Address) (recipient token : Bytes) (amount : U128)
    (sender chain memo : Bytes) : Prop :=
  ∃ a b, addressFromString recipient = some a ∧ addressFromString token = some b ∧
    decodePaymentPayload addressFromString
      (encodePayload recipient token amount sender chain memo) =
        some ⟨sender, chain, a, b, amount, memo⟩

lemma length_of_slice {payload bytes : Bytes} {first last : ℕ}
    (h : slice payload first last = some bytes) : bytes.length = last - first := by
  rw [slice] at h
  split_ifs at h with hbounds
  obtain rfl := Option.some.inj h
  rw [List.length_take, List.length_drop]
  omega

/-- No slice of 32 bytes is an address's text, so no payload decodes at all. -/
lemma decodePaymentPayload_eq_none (h : ∀ text a, addressFromString text = some a → text.length = 56)
    (payload : Bytes) : decodePaymentPayload addressFromString payload = none := by
  rw [decodePaymentPayload]
  cases hslice : slice payload 0 32 with
  | none => rfl
  | some recipientBytes =>
    have hlength := length_of_slice hslice
    cases haddress : addressFromString recipientBytes with
    | none => simp [haddress]
    | some a =>
      have hfull := h _ _ haddress
      omega

lemma not_roundTrips (h : ∀ text a, addressFromString text = some a → text.length = 56) :
    ¬ RoundTrips addressFromString recipient token amount sender chain memo := by
  rintro ⟨a, b, -, -, hdecoded⟩
  rw [decodePaymentPayload_eq_none h] at hdecoded
  cases hdecoded

/-- The encoder cuts the 56 characters of an address to 32 bytes, and the decoder takes the 32 for
the whole text: every payload traps, whatever was sent. -/
theorem payload_never_decodes (addressFromString : Bytes → Option Address)
    (h : ∀ text a, addressFromString text = some a → text.length = 56)
    (recipient token : Bytes) (amount : U128) (sender chain memo : Bytes) :
    decodePaymentPayload addressFromString
        (encodePayload recipient token amount sender chain memo) = none ∧
      ¬ RoundTrips addressFromString recipient token amount sender chain memo :=
  ⟨decodePaymentPayload_eq_none h _, not_roundTrips h⟩

def accountFromString (text : Bytes) : Option Address :=
  (Token.accountPublicKey text).map fun key => ⟨ofBytes key⟩

lemma length_of_accountFromString {text : Bytes} {a : Address}
    (h : accountFromString text = some a) : text.length = 56 := by
  obtain ⟨key, hkey, -⟩ := Option.map_eq_some_iff.mp h
  rw [Token.accountPublicKey] at hkey
  split_ifs at hkey with hlength
  exact not_not.mp hlength

def recipientText : Bytes := Token.strkey (List.replicate 32 1) [0, 0]

def tokenText : Bytes := Token.strkey (List.replicate 32 2) [0, 0]

def amountSent : U128 := ⟨100, by norm_num⟩

theorem payload_never_decodes_accounts :
    decodePaymentPayload accountFromString
        (encodePayload recipientText tokenText amountSent [48, 120] [101, 116, 104] []) = none ∧
      ¬ RoundTrips accountFromString recipientText tokenText amountSent [48, 120] [101, 116, 104] [] :=
  payload_never_decodes accountFromString (fun _ _ => length_of_accountFromString) _ _ _ _ _ _

/-- Both texts are accounts' addresses, and yet a payment from one to the other is lost. -/
theorem payload_of_accounts_lost :
    accountFromString recipientText = some ⟨ofBytes (List.replicate 32 1)⟩ ∧
      accountFromString tokenText = some ⟨ofBytes (List.replicate 32 2)⟩ ∧
        ¬ RoundTrips accountFromString recipientText tokenText amountSent [48, 120] [101, 116, 104]
          [] := by
  have haccount (b : Fin 256) : accountFromString (Token.strkey (List.replicate 32 b) [0, 0]) =
      some ⟨ofBytes (List.replicate 32 b)⟩ := by
    rw [accountFromString, Token.accountPublicKey_eq_some.mpr ⟨rfl, _, rfl, rfl⟩, Option.map_some]
  exact ⟨haccount 1, haccount 2, not_roundTrips fun _ _ => length_of_accountFromString⟩

end RoundTrip

end StellarTags.Bridge
