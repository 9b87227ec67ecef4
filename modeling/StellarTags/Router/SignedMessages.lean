import StellarTags.Router.Payments
import StellarTags.Soroban.Values

/-! What is signed for a meta payment and for a maker's quote, byte by byte. -/

namespace StellarTags.Router

open Library.Integers Library.PrefixCodes Soroban

/-- `BytesN<32>`. -/
abbrev Key (h : Host) := {k : PublicKey // (h.keyBytes k).length = 32}

/-- All that a meta payment's message is built from. -/
@[ext] structure MetaFields (h : Host) where
  contract : Address
  sender : Address
  signerPubkey : Key h
  recipient : Address
  tokenAddress : Address
  amount : I128
  nonce : U64
  deadline : U64

/-- All that a quote's message is built from. -/
@[ext] structure QuoteFields (h : Host) where
  contract : Address
  sender : Address
  recipient : Address
  quoteId : Text
  maker : Address
  tokenIn : Address
  tokenOut : Address
  amountIn : I128
  amountOut : I128
  expiresAt : U64
  makerPubkey : Key h

variable {h : Host}

def QuoteFields.quote (q : QuoteFields h) : Quote :=
  ⟨q.quoteId, q.maker, q.tokenIn, q.tokenOut, q.amountIn, q.amountOut, q.expiresAt⟩

def MetaFields.message (m : MetaFields h) : Bytes :=
  buildMetaMessage { h with self := m.contract } m.sender m.signerPubkey m.recipient m.tokenAddress
    m.amount m.nonce m.deadline

def QuoteFields.message (q : QuoteFields h) : Bytes :=
  buildQuoteMessage { h with self := q.contract } q.sender q.recipient q.quote q.makerPubkey

def MetaFields.payload (m : MetaFields h) : Bytes :=
  h.xdr (.address m.contract) ++ h.xdr (.address m.sender) ++ h.keyBytes m.signerPubkey ++
    h.xdr (.address m.recipient) ++ h.xdr (.address m.tokenAddress) ++ h.xdr (.i128 m.amount) ++
    h.xdr (.u64 m.nonce) ++ h.xdr (.u64 m.deadline)

def QuoteFields.payload (q : QuoteFields h) : Bytes :=
  h.xdr (.address q.contract) ++ h.xdr (.address q.sender) ++ h.xdr (.address q.recipient) ++
    h.xdr q.quote.toVal ++ h.keyBytes q.makerPubkey

def signed (h : Host) (payload : Bytes) : Bytes := h.hashBytes (h.sha256 payload)

lemma MetaFields.message_eq (m : MetaFields h) : m.message = signed h m.payload := rfl

lemma QuoteFields.message_eq (q : QuoteFields h) : q.message = signed h q.payload := rfl

/-- What the XDR is documented to be, but for the addresses, whose words do not begin each other. -/
structure WritesXdr (h : Host) : Prop where
  address : PrefixFree fun a => h.xdr (.address a)
  u64 : ∀ n : U64, h.xdr (.u64 n) = scU64 n
  i128 : ∀ n : I128, h.xdr (.i128 n) = scI128 n
  text : ∀ s : Text, h.xdr (.text s) = scString s
  quote : ∀ q : Quote, h.xdr q.toVal = scMap
    [("amount_in", h.xdr (.i128 q.amountIn)), ("amount_out", h.xdr (.i128 q.amountOut)),
      ("expires_at", h.xdr (.u64 q.expiresAt)), ("maker", h.xdr (.address q.maker)),
      ("quote_id", h.xdr (.text q.quoteId)), ("token_in", h.xdr (.address q.tokenIn)),
      ("token_out", h.xdr (.address q.tokenOut))]
  key : Function.Injective h.keyBytes

/-- An account takes 44 bytes, a contract 40. -/
def AddressSized (h : Host) (a : Address) : Prop := (h.xdr (.address a)).length ≤ 44

/-- Two payloads that have one hash. -/
def Collision (h : Host) (x y : Bytes) : Prop := x ≠ y ∧ signed h x = signed h y

namespace WritesXdr

lemma keys (hx : WritesXdr h) : PrefixFree fun k : Key h => h.keyBytes k := by
  apply PrefixFree.of_length
  · intro k l hkeys
    exact Subtype.ext (hx.key hkeys)
  · intro k l
    rw [k.property, l.property]

lemma amounts (hx : WritesXdr h) : PrefixFree fun n : I128 => h.xdr (.i128 n) := by
  simp only [hx.i128]
  exact scI128_code

lemma numbers (hx : WritesXdr h) : PrefixFree fun n : U64 => h.xdr (.u64 n) := by
  simp only [hx.u64]
  exact scU64_code

lemma texts (hx : WritesXdr h) : PrefixFree fun s : Text => h.xdr (.text s) := by
  simp only [hx.text]
  exact scString_code

/-- The fields of a payment are read off its payload from the front. -/
lemma meta_injective (hx : WritesXdr h) : Function.Injective (MetaFields.payload (h := h)) := by
  intro m n hmn
  simp only [MetaFields.payload, List.append_assoc] at hmn
  obtain ⟨hcontract, hmn⟩ := hx.address.append_inj hmn
  obtain ⟨hsender, hmn⟩ := hx.address.append_inj hmn
  obtain ⟨hkey, hmn⟩ := hx.keys.append_inj hmn
  obtain ⟨hrecipient, hmn⟩ := hx.address.append_inj hmn
  obtain ⟨htoken, hmn⟩ := hx.address.append_inj hmn
  obtain ⟨hamount, hmn⟩ := hx.amounts.append_inj hmn
  obtain ⟨hnonce, hmn⟩ := hx.numbers.append_inj hmn
  have hdeadline := hx.numbers.injective hmn
  exact MetaFields.ext hcontract hsender hkey hrecipient htoken hamount hnonce hdeadline

lemma quote_injective (hx : WritesXdr h) : Function.Injective (QuoteFields.payload (h := h)) := by
  intro p q hpq
  simp only [QuoteFields.payload, hx.quote, scMap, scVal, List.flatMap_cons, List.flatMap_nil,
    List.length_cons, List.length_nil, List.append_assoc, List.append_nil] at hpq
  obtain ⟨hcontract, hpq⟩ := hx.address.append_inj hpq
  obtain ⟨hsender, hpq⟩ := hx.address.append_inj hpq
  obtain ⟨hrecipient, hpq⟩ := hx.address.append_inj hpq
  replace hpq := List.append_cancel_left hpq
  replace hpq := List.append_cancel_left hpq
  replace hpq := List.append_cancel_left hpq
  obtain ⟨hamountIn, hpq⟩ := hx.amounts.append_inj (List.append_cancel_left hpq)
  obtain ⟨hamountOut, hpq⟩ := hx.amounts.append_inj (List.append_cancel_left hpq)
  obtain ⟨hexpiresAt, hpq⟩ := hx.numbers.append_inj (List.append_cancel_left hpq)
  obtain ⟨hmaker, hpq⟩ := hx.address.append_inj (List.append_cancel_left hpq)
  obtain ⟨hquoteId, hpq⟩ := hx.texts.append_inj (List.append_cancel_left hpq)
  obtain ⟨htokenIn, hpq⟩ := hx.address.append_inj (List.append_cancel_left hpq)
  obtain ⟨htokenOut, hpq⟩ := hx.address.append_inj (List.append_cancel_left hpq)
  have hkey := hx.keys.injective hpq
  exact QuoteFields.ext hcontract hsender hrecipient hquoteId hmaker htokenIn htokenOut hamountIn
    hamountOut hexpiresAt hkey

/-- A quote alone is longer than all that follows a payment's sender. -/
lemma length_quote (hx : WritesXdr h) (q : QuoteFields h) : 187 ≤ (h.xdr q.quote.toVal).length := by
  have hin : 17 ≤ (scSymbol "amount_in").length := le_length_scSymbol "amount_in"
  have hout : 18 ≤ (scSymbol "amount_out").length := le_length_scSymbol "amount_out"
  have hexpires : 18 ≤ (scSymbol "expires_at").length := le_length_scSymbol "expires_at"
  have hmaker : 13 ≤ (scSymbol "maker").length := le_length_scSymbol "maker"
  have hid : 16 ≤ (scSymbol "quote_id").length := le_length_scSymbol "quote_id"
  have htokenIn : 16 ≤ (scSymbol "token_in").length := le_length_scSymbol "token_in"
  have htokenOut : 17 ≤ (scSymbol "token_out").length := le_length_scSymbol "token_out"
  have htext : 8 ≤ (scString q.quoteId.val).length := by
    have hcounted := le_length_counted (Platform.utf8 q.quoteId.val)
    rw [scString, length_scVal]
    omega
  rw [hx.quote, scMap, length_scVal]
  simp only [QuoteFields.quote, hx.i128, hx.u64, hx.text, List.flatMap_cons, List.flatMap_nil,
    List.length_append, List.length_cons, List.length_nil, length_scI128, length_scU64,
    Library.BigEndian.length_toBytes]
  omega

lemma separate (hx : WritesXdr h) (m : MetaFields h) (q : QuoteFields h)
    (hrecipient : AddressSized h m.recipient) (htoken : AddressSized h m.tokenAddress) :
    m.payload ≠ q.payload := by
  intro hmq
  simp only [MetaFields.payload, QuoteFields.payload, List.append_assoc] at hmq
  obtain ⟨-, hmq⟩ := hx.address.append_inj hmq
  obtain ⟨-, hmq⟩ := hx.address.append_inj hmq
  have hlength := congrArg List.length hmq
  have hquote := hx.length_quote q
  have hkey := m.signerPubkey.property
  have hkey' := q.makerPubkey.property
  unfold AddressSized at hrecipient htoken
  simp only [List.length_append, hx.i128, hx.u64, length_scI128, length_scU64] at hlength
  omega

end WritesXdr

/-- Where the XDR is what it is documented to be, payloads are read back one way only and no payment's
payload is a quote's; two messages are alike only for the same fields or where the hash collides. -/
theorem signed_messages_separate (h : Host) (hx : WritesXdr h) :
    (Function.Injective fun m : MetaFields h => m.payload) ∧
    (Function.Injective fun q : QuoteFields h => q.payload) ∧
    (∀ (m : MetaFields h) (q : QuoteFields h), AddressSized h m.recipient →
      AddressSized h m.tokenAddress → m.payload ≠ q.payload) ∧
    (∀ m n : MetaFields h, m.message = n.message → m = n ∨ Collision h m.payload n.payload) ∧
    (∀ p q : QuoteFields h, p.message = q.message → p = q ∨ Collision h p.payload q.payload) ∧
    ∀ (m : MetaFields h) (q : QuoteFields h), AddressSized h m.recipient →
      AddressSized h m.tokenAddress → m.message = q.message → Collision h m.payload q.payload := by
  refine ⟨hx.meta_injective, hx.quote_injective, hx.separate, ?_, ?_, ?_⟩
  · intro m n hmessage
    exact or_iff_not_imp_left.mpr fun hne => ⟨hx.meta_injective.ne hne, hmessage⟩
  · intro p q hmessage
    exact or_iff_not_imp_left.mpr fun hne => ⟨hx.quote_injective.ne hne, hmessage⟩
  · intro m q hrecipient htoken hmessage
    exact ⟨hx.separate m q hrecipient htoken, hmessage⟩

section Examples

open Library.BigEndian

def wide : ℕ := 256 ^ 32

/-- A number below `wide` is the hash of a contract; a larger one is marked in front. -/
def xdrAddress (a : Address) : Bytes :=
  [0, 0, 0, 18] ++ ((List.replicate (a.id / wide) 255 ++ [0]) ++ ([0, 0, 1] ++ toBytes 32 (a.id % wide)))

def writeXdr : Val → Bytes
  | .address a => xdrAddress a
  | .u64 n => scU64 n
  | .i128 n => scI128 n
  | .text s => scString s
  | _ => []

def xdrHost : Host :=
  { Host.sample with
    xdr := fun v =>
      match v with
      | .struct _ fields => scMap (["amount_in", "amount_out", "expires_at", "maker", "quote_id",
          "token_in", "token_out"].zip (fields.map writeXdr))
      | v => writeXdr v
    keyBytes := fun k => List.replicate (k.id / wide) 0 ++ toBytes 32 (k.id % wide) }

lemma wide_code : PrefixFree fun n : Fin wide => toBytes 32 n.val := by
  apply PrefixFree.of_length
  · intro m n h
    have hlt (k : Fin wide) : k.val < 256 ^ 32 := k.isLt
    have hbytes : toBytes 32 m.val = toBytes 32 n.val := h
    apply Fin.ext
    rw [← ofBytes_toBytes (hlt m), ← ofBytes_toBytes (hlt n), hbytes]
  · intro m n
    rw [length_toBytes, length_toBytes]

def low (n : ℕ) : Fin wide := ⟨n % wide, Nat.mod_lt n (Nat.pow_pos (Nat.succ_pos 255))⟩

lemma eq_of_parts {m n : ℕ} (hdiv : m / wide = n / wide) (hlow : low m = low n) : m = n := by
  have hmod : m % wide = n % wide := congrArg Fin.val hlow
  rw [← Nat.div_add_mod m wide, ← Nat.div_add_mod n wide, hdiv, hmod]

lemma xdrAddress_code : PrefixFree xdrAddress := by
  have hmarks : PrefixFree fun n : ℕ => List.replicate n (255 : Fin 256) ++ [0] :=
    PrefixFree.unary (by decide)
  have hparts : Function.Injective fun a : Address => (a.id / wide, low a.id) := by
    rintro ⟨m⟩ ⟨n⟩ h
    obtain ⟨hdiv, hlow⟩ := Prod.mk.inj h
    exact congrArg Address.mk (eq_of_parts hdiv hlow)
  exact ((hmarks.append (wide_code.labelled [0, 0, 1])).labelled [0, 0, 0, 18]).comap hparts

lemma xdrHost_writes : WritesXdr xdrHost where
  address := xdrAddress_code
  u64 _ := rfl
  i128 _ := rfl
  text _ := rfl
  quote _ := rfl
  key := by
    rintro ⟨m⟩ ⟨n⟩ h
    have hlength := congrArg List.length h
    simp only [xdrHost, List.length_append, List.length_replicate, length_toBytes,
      Nat.add_right_cancel_iff] at hlength
    have hkeys : List.replicate (m / wide) (0 : Fin 256) ++ toBytes 32 (low m) =
        List.replicate (n / wide) 0 ++ toBytes 32 (low n) := h
    rw [hlength] at hkeys
    have hlow := wide_code.injective (List.append_cancel_left hkeys)
    exact congrArg PublicKey.mk (eq_of_parts hlength hlow)

lemma xdrHost_sized {n : ℕ} (hn : n < wide) : AddressSized xdrHost ⟨n⟩ := by
  have hword : xdrHost.xdr (.address ⟨n⟩) = xdrAddress ⟨n⟩ := rfl
  rw [AddressSized, hword, xdrAddress, Nat.div_eq_of_lt hn]
  simp

def sampleSigner : Key xdrHost := ⟨⟨2⟩, rfl⟩

def signedFive : MetaFields xdrHost :=
  ⟨⟨0⟩, ⟨2⟩, sampleSigner, ⟨4⟩, ⟨20⟩, ⟨5, fitsI128_five⟩, ⟨0, Nat.zero_le _⟩, ⟨0, Nat.zero_le _⟩⟩

lemma length_noText : (Platform.utf8 "").length ≤ maxU32 := by
  rw [length_utf8]
  exact Nat.zero_le _

def quotedFive : QuoteFields xdrHost :=
  ⟨⟨0⟩, ⟨2⟩, ⟨4⟩, ⟨"", length_noText⟩, ⟨3⟩, ⟨20⟩, ⟨21⟩, ⟨5, fitsI128_five⟩, ⟨5, fitsI128_five⟩,
    ⟨0, Nat.zero_le _⟩, sampleSigner⟩

theorem signed_messages_separate_five :
    (Function.Injective fun m : MetaFields xdrHost => m.payload) ∧
      signedFive.payload ≠ quotedFive.payload := by
  have hseparate := signed_messages_separate xdrHost xdrHost_writes
  refine ⟨hseparate.1, hseparate.2.2.1 signedFive quotedFive ?_ ?_⟩
  · exact xdrHost_sized (by decide)
  · exact xdrHost_sized (by decide)

end Examples

end StellarTags.Router
