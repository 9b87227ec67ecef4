import Mathlib.Data.List.Forall2
import StellarTags.Platform.Encoding

/-! The transaction that is built from a batch of payments. -/

namespace StellarTags.Batching

open Platform

inductive Asset
  | native
  | issued (code issuer : String)
  deriving DecidableEq, Repr

/-- What a property of a payment holds; an asset is an instance of the SDK's class. -/
inductive Field
  | undefined
  | json (value : Json)
  | asset (asset : Asset)

structure Payment where
  fromAddress : Field := .undefined
  toAddress : Field := .undefined
  assetCode : Field := .undefined
  asset : Field := .undefined
  assetIssuer : Field := .undefined
  issuer : Field := .undefined
  amount : Field := .undefined

/-- An item of the queue has a payment; others are one. -/
structure BatchItem extends Payment where
  paymentData : Option Payment := none

def BatchItem.raw (item : BatchItem) : Payment := item.paymentData.getD item.toPayment

structure PaymentOperation where
  destination : String
  asset : Asset
  amount : String
  source : Option String
  deriving DecidableEq, Repr

structure Transaction where
  source : String
  fee : String
  networkPassphrase : String
  timeout : ℕ
  operations : List PaymentOperation
  deriving DecidableEq, Repr

/-- The SDK, with the key pairs that it draws, and how the language reads numbers and shows values. -/
structure Sdk where
  isValidEd25519PublicKey : String → Bool
  keypair : ℕ → {key : String // isValidEd25519PublicKey key = true}
  newAsset : Field → Field → Except String Asset
  checkOperation : PaymentOperation → Except String Unit
  checkTransaction : Transaction → Except String Unit
  isZero : String → Bool
  /-- The amount of an operation; there is none where `Number` does not read a positive one. -/
  readAmount : Field → Option String
  text : Field → String

structure BuildOptions (sdk : Sdk) where
  sourceAccount : Option String := none
  sourceKeypair : Option {key : String // sdk.isValidEd25519PublicKey key = true} := none
  networkPassphrase : Option String := none
  baseFee : Option ℕ := none
  timeout : Option ℕ := none

section Build

variable (sdk : Sdk)

def truthy (field : Field) : Bool :=
  match field with
  | .undefined | .json .null => false
  | .json (.bool b) => b
  | .json (.number text) => !sdk.isZero text
  | .json (.string s) => decide (s ≠ "")
  | .json (.array _) | .json (.object _) | .asset _ => true

def orElse (a b : Field) : Field := if truthy sdk a then a else b

def property (name : String) (fields : List (String × Json)) : Field :=
  match fields.find? fun field => field.1 = name with
  | some (_, value) => .json value
  | none => .undefined

def publicKey (field : Field) : Option String :=
  match field with
  | .json (.string s) => if sdk.isValidEd25519PublicKey s then some s else none
  | _ => none

def namesNative (identifier : Field) : Bool :=
  match identifier with
  | .json (.string s) => decide (s = "" ∨ s = "XLM" ∨ s = "native")
  | identifier => !truthy sdk identifier

def codeAndIssuer (identifier : Field) : Option (Field × Field) :=
  match identifier with
  | .json (.object fields) =>
    if truthy sdk (property "code" fields) ∧ truthy sdk (property "issuer" fields) then
      some (property "code" fields, property "issuer" fields)
    else none
  | _ => none

def toStellarAsset (assetCode assetIssuer : Field) : Except String Asset :=
  if namesNative sdk assetCode then .ok .native
  else
    match assetCode with
    | .asset asset => .ok asset
    | assetCode =>
      match codeAndIssuer sdk assetCode with
      | some (code, issuer) => sdk.newAsset code issuer
      | none =>
        match publicKey sdk assetIssuer with
        | some _ => sdk.newAsset assetCode assetIssuer
        | none => .ok .native

def firstSource (batch : List BatchItem) : Option String := do
  let first ← batch.head?
  (first.paymentData.bind fun data => publicKey sdk data.fromAddress).or
    (publicKey sdk first.fromAddress)

/-- The account of the transaction, and how many key pairs were drawn for it. -/
def sourceAccount (batch : List BatchItem) (options : BuildOptions sdk) : String × ℕ :=
  match options.sourceAccount, options.sourceKeypair, firstSource sdk batch with
  | some account, _, _ => (account, 0)
  | none, some keypair, _ => (keypair.val, 0)
  | none, none, some account => (account, 0)
  | none, none, none => ((sdk.keypair 0).val, 1)

def operationSource (txSourceId : String) (fromAddress : Field) : Option String :=
  match publicKey sdk fromAddress with
  | some source => if source = txSourceId then none else some source
  | none => none

/-- The operations of the items, with the number of key pairs drawn and the index of the first. -/
def paymentOperations (txSourceId : String) :
    ℕ → ℕ → List BatchItem → Except String (List PaymentOperation)
  | _, _, [] => .ok []
  | drawn, i, item :: rest => do
    if ¬ truthy sdk item.raw.toAddress then
      throw ("toAddress is required at batch index " ++ toString i)
    let destination := (publicKey sdk item.raw.toAddress).getD (sdk.keypair drawn).val
    let asset ← toStellarAsset sdk (orElse sdk item.raw.assetCode item.raw.asset)
      (orElse sdk item.raw.assetIssuer item.raw.issuer)
    let amount ←
      match sdk.readAmount item.raw.amount with
      | some amount => pure amount
      | none =>
        throw ("Invalid amount at batch index " ++ toString i ++ ": " ++ sdk.text item.raw.amount)
    let operation : PaymentOperation :=
      ⟨destination, asset, amount, operationSource sdk txSourceId item.raw.fromAddress⟩
    sdk.checkOperation operation
    let drawn := if (publicKey sdk item.raw.toAddress).isSome then drawn else drawn + 1
    let operations ← paymentOperations txSourceId drawn (i + 1) rest
    return operation :: operations

/-- `NETWORK_PASSPHRASE` is what the environment has under that name. -/
def buildBatchTransaction (NETWORK_PASSPHRASE : Option String) (batch : List BatchItem)
    (options : BuildOptions sdk) : Except String Transaction :=
  if batch = [] then .error "Cannot build transaction from empty payment batch"
  else do
    let (source, drawn) := sourceAccount sdk batch options
    let operations ← paymentOperations sdk source drawn 0 batch
    let baseFee := match options.baseFee with
      | none | some 0 => 100
      | some baseFee => baseFee
    let named := [options.networkPassphrase, NETWORK_PASSPHRASE].filterMap id
    let transaction : Transaction := {
      source := source
      fee := toString (baseFee * batch.length)
      networkPassphrase := (named.find? (· ≠ "")).getD "Test SDF Network ; September 2015"
      timeout := options.timeout.getD 30
      operations := operations }
    sdk.checkTransaction transaction
    return transaction

end Build

section Fidelity

variable (sdk : Sdk)

/-- The asset that an identifier and an issuer name: the native one, an instance of the SDK's class,
the one of an object's code and issuer, or that of a code and a valid issuer. -/
inductive Names (identifier issuer : Field) : Asset → Prop
  | native (h : namesNative sdk identifier = true) : Names identifier issuer .native
  | sdk (asset : Asset) (h : identifier = .asset asset) : Names identifier issuer asset
  | object (code codeIssuer : Field) (asset : Asset)
      (h : codeAndIssuer sdk identifier = some (code, codeIssuer))
      (hasset : sdk.newAsset code codeIssuer = .ok asset) : Names identifier issuer asset
  | issued (key : String) (asset : Asset) (hnative : namesNative sdk identifier = false)
      (hobject : codeAndIssuer sdk identifier = none) (hkey : publicKey sdk issuer = some key)
      (hasset : sdk.newAsset identifier issuer = .ok asset) : Names identifier issuer asset

/-- The operation does what its item asks for, in a transaction of the account. -/
structure Pays (source : String) (item : BatchItem) (operation : PaymentOperation) : Prop where
  debits : item.raw.fromAddress = .json (.string (operation.source.getD source))
  pays : item.raw.toAddress = .json (.string operation.destination)
  asset : Names sdk (orElse sdk item.raw.assetCode item.raw.asset)
    (orElse sdk item.raw.assetIssuer item.raw.issuer) operation.asset

def Identified (identifier issuer : Field) : Prop :=
  namesNative sdk identifier = true ∨ (∃ asset, identifier = .asset asset) ∨
    (codeAndIssuer sdk identifier).isSome = true ∨ (publicKey sdk issuer).isSome = true

/-- Both addresses are public keys, or the payment is from the account that the caller gave; and the
asset is named with its issuer. -/
structure Representable (options : BuildOptions sdk) (item : BatchItem) : Prop where
  source : (publicKey sdk item.raw.fromAddress).isSome = true ∨
    ∃ account, options.sourceAccount = some account ∧ item.raw.fromAddress = .json (.string account)
  destination : (publicKey sdk item.raw.toAddress).isSome = true
  asset : Identified sdk (orElse sdk item.raw.assetCode item.raw.asset)
    (orElse sdk item.raw.assetIssuer item.raw.issuer)

variable {sdk} {identifier issuer field : Field} {asset : Asset} {key account : String}
  {batch : List BatchItem} {options : BuildOptions sdk} {operations : List PaymentOperation}

lemma publicKey_eq_some : publicKey sdk field = some key ↔
    field = .json (.string key) ∧ sdk.isValidEd25519PublicKey key = true := by
  unfold publicKey
  split
  · rename_i s
    by_cases hvalid : sdk.isValidEd25519PublicKey s = true
    · simp only [hvalid, if_true, Option.some.injEq, Field.json.injEq, Json.string.injEq]
      constructor
      · rintro rfl
        exact ⟨rfl, hvalid⟩
      · exact fun h => h.1
    · simp only [hvalid, Bool.false_eq_true, if_false, reduceCtorEq, Field.json.injEq,
        Json.string.injEq, false_iff, not_and]
      rintro rfl
      exact hvalid
  · rename_i hother
    simp only [reduceCtorEq, false_iff, not_and]
    rintro rfl
    exact absurd rfl (hother key)

/-- Where nothing is named, the asset is the native one all the same. -/
lemma names_iff (h : toStellarAsset sdk identifier issuer = .ok asset) :
    Names sdk identifier issuer asset ↔ Identified sdk identifier issuer := by
  constructor
  · intro hnames
    cases hnames with
    | native hnative => exact .inl hnative
    | sdk _ hasset => exact .inr (.inl ⟨_, hasset⟩)
    | object code codeIssuer _ hobject => exact .inr (.inr (.inl (by rw [hobject]; rfl)))
    | issued key _ _ _ hkey => exact .inr (.inr (.inr (by rw [hkey]; rfl)))
  · intro hidentified
    unfold toStellarAsset at h
    split_ifs at h with hnative
    · obtain rfl := Except.ok.inj h
      exact .native hnative
    · split at h
      · obtain rfl := Except.ok.inj h
        exact .sdk _ rfl
      · rename_i hinstance
        split at h
        · rename_i code codeIssuer hobject
          exact .object code codeIssuer asset hobject h
        · rename_i hobject
          split at h
          · rename_i key hkey
            exact .issued key asset ((Bool.not_eq_true _).mp hnative) hobject hkey h
          · rename_i hkey
            rcases hidentified with h | ⟨asset, h⟩ | h | h
            · exact absurd h hnative
            · exact absurd h (hinstance asset)
            · rw [hobject] at h
              cases h
            · rw [hkey] at h
              cases h

lemma destination_iff (n : ℕ) :
    field = .json (.string ((publicKey sdk field).getD (sdk.keypair n).val)) ↔
      (publicKey sdk field).isSome = true := by
  cases hkey : publicKey sdk field with
  | some key => simp [(publicKey_eq_some.mp hkey).1]
  | none =>
    simp only [Option.getD_none, Option.isSome_none, Bool.false_eq_true, iff_false]
    rintro rfl
    have hsome := publicKey_eq_some.mpr ⟨rfl, (sdk.keypair n).property⟩
    rw [hkey] at hsome
    cases hsome

lemma sourceAccount_valid (h : options.sourceAccount = none) :
    sdk.isValidEd25519PublicKey (sourceAccount sdk batch options).1 = true := by
  unfold sourceAccount
  rw [h]
  cases hkeypair : options.sourceKeypair with
  | some keypair => exact keypair.property
  | none =>
    cases hfirst : firstSource sdk batch with
    | none => exact (sdk.keypair 0).property
    | some account =>
      obtain ⟨first, -, hfirst⟩ := Option.bind_eq_some_iff.mp hfirst
      rw [Option.or_eq_some_iff] at hfirst
      rcases hfirst with hfirst | ⟨-, hfirst⟩
      · obtain ⟨data, -, hdata⟩ := Option.bind_eq_some_iff.mp hfirst
        exact (publicKey_eq_some.mp hdata).2
      · exact (publicKey_eq_some.mp hfirst).2

lemma sourceAccount_given (h : options.sourceAccount = some account) :
    (sourceAccount sdk batch options).1 = account := by
  unfold sourceAccount
  rw [h]

lemma debits_iff : field = .json (.string ((operationSource sdk
      (sourceAccount sdk batch options).1 field).getD (sourceAccount sdk batch options).1)) ↔
    (publicKey sdk field).isSome = true ∨
      ∃ account, options.sourceAccount = some account ∧ field = .json (.string account) := by
  unfold operationSource
  cases hkey : publicKey sdk field with
  | some key =>
    have hfield := (publicKey_eq_some.mp hkey).1
    by_cases hsame : key = (sourceAccount sdk batch options).1
    · simp [hfield, hsame]
    · simp [hfield, hsame]
  | none =>
    simp only [Option.getD_none, Option.isSome_none, Bool.false_eq_true, false_or]
    constructor
    · intro hfield
      cases hgiven : options.sourceAccount with
      | some account =>
        rw [sourceAccount_given hgiven] at hfield
        exact ⟨account, rfl, hfield⟩
      | none =>
        have hsome := publicKey_eq_some.mpr ⟨hfield, sourceAccount_valid hgiven⟩
        rw [hkey] at hsome
        cases hsome
    · rintro ⟨account, hgiven, hfield⟩
      rw [sourceAccount_given hgiven]
      exact hfield

lemma paymentOperations_faithful {drawn i : ℕ} {items : List BatchItem}
    (h : paymentOperations sdk (sourceAccount sdk batch options).1 drawn i items = .ok operations) :
    operations.length = items.length ∧
      (List.Forall₂ (Pays sdk (sourceAccount sdk batch options).1) items operations ↔
        ∀ item ∈ items, Representable sdk options item) := by
  induction items generalizing drawn i operations with
  | nil =>
    obtain rfl := Except.ok.inj h
    simp
  | cons item rest ih =>
    unfold paymentOperations at h
    cases htruthy : truthy sdk item.raw.toAddress with
    | false => simp [htruthy, bind, Except.bind, throw, throwThe, MonadExceptOf.throw] at h
    | true =>
      cases hasset : toStellarAsset sdk (orElse sdk item.raw.assetCode item.raw.asset)
          (orElse sdk item.raw.assetIssuer item.raw.issuer) with
      | error => simp [htruthy, hasset, bind, Except.bind] at h
      | ok asset =>
        cases hamount : sdk.readAmount item.raw.amount with
        | none =>
          simp [htruthy, hasset, hamount, bind, Except.bind, throw, throwThe,
            MonadExceptOf.throw] at h
        | some amount =>
          simp only [htruthy, hasset, hamount, bind, Except.bind, pure, Except.pure, not_true,
            if_false] at h
          split at h
          · cases h
          · split at h
            · cases h
            · rename_i hrest
              obtain rfl := Except.ok.inj h
              obtain ⟨hlength, hfaithful⟩ := ih hrest
              refine ⟨by simp [hlength], ?_⟩
              rw [List.forall₂_cons, hfaithful, List.forall_mem_cons]
              refine and_congr_left fun _ => ?_
              constructor
              · rintro ⟨hdebits, hpays, hnames⟩
                exact ⟨debits_iff.mp hdebits, (destination_iff drawn).mp hpays,
                  (names_iff hasset).mp hnames⟩
              · rintro ⟨hsource, hdestination, hidentified⟩
                exact ⟨debits_iff.mpr hsource, (destination_iff drawn).mpr hdestination,
                  (names_iff hasset).mpr hidentified⟩

end Fidelity

/-- Each item has one operation; they do what their items ask for if and only if every item can be
represented, and others are not refused. -/
theorem buildBatchTransaction_faithful (sdk : Sdk) (NETWORK_PASSPHRASE : Option String)
    (batch : List BatchItem) (options : BuildOptions sdk) (transaction : Transaction)
    (h : buildBatchTransaction sdk NETWORK_PASSPHRASE batch options = .ok transaction) :
    transaction.operations.length = batch.length ∧
      (List.Forall₂ (Pays sdk transaction.source) batch transaction.operations ↔
        ∀ item ∈ batch, Representable sdk options item) := by
  unfold buildBatchTransaction at h
  split_ifs at h
  cases hoperations : paymentOperations sdk (sourceAccount sdk batch options).1
      (sourceAccount sdk batch options).2 0 batch with
  | error => simp [hoperations, bind, Except.bind] at h
  | ok operations =>
    simp only [hoperations, bind, Except.bind, pure, Except.pure] at h
    split at h
    · cases h
    · obtain rfl := Except.ok.inj h
      exact paymentOperations_faithful hoperations

section Examples

def sampleSdk : Sdk where
  isValidEd25519PublicKey key := key.toList.head? = some 'G'
  keypair _ := ⟨"GRANDOM", by decide⟩
  newAsset code issuer :=
    match code, issuer with
    | .json (.string code), .json (.string issuer) =>
      if issuer.toList.head? = some 'G' then .ok (.issued code issuer) else .error "Issuer is invalid"
    | _, _ => .error "Asset code is invalid"
  checkOperation _ := .ok ()
  checkTransaction _ := .ok ()
  isZero text := text = "0"
  readAmount field :=
    match field with
    | .json (.number text) => if text = "0" then none else some text
    | _ => none
  text _ := ""

def pay (fromAddress toAddress assetCode : String) (assetIssuer : Field) : BatchItem where
  paymentData := some {
    fromAddress := .json (.string fromAddress)
    toAddress := .json (.string toAddress)
    assetCode := .json (.string assetCode)
    assetIssuer := assetIssuer
    amount := .json (.number "5") }

theorem buildBatchTransaction_faithful_sample :
    List.Forall₂ (Pays sampleSdk "GALICE")
      [pay "GALICE" "GBOB" "XLM" .undefined,
        pay "GCAROL" "GBOB" "USDC" (.json (.string "GISSUER"))]
      [⟨"GBOB", .native, "5", none⟩, ⟨"GBOB", .issued "USDC" "GISSUER", "5", some "GCAROL"⟩] := by
  have h := buildBatchTransaction_faithful sampleSdk none
    [pay "GALICE" "GBOB" "XLM" .undefined, pay "GCAROL" "GBOB" "USDC" (.json (.string "GISSUER"))] {}
    _ rfl
  refine h.2.mpr fun item hitem => ?_
  simp only [List.mem_cons, List.not_mem_nil, or_false] at hitem
  rcases hitem with rfl | rfl
  · exact ⟨.inl rfl, rfl, .inl rfl⟩
  · exact ⟨.inl rfl, rfl, .inr (.inr (.inr rfl))⟩

/-- A name is no public key, a sender that is none is left to the first account, and a code without
an issuer is left out. -/
def strays : List BatchItem :=
  [pay "GALICE" "bob" "XLM" .undefined, pay "carol" "GBOB" "XLM" .undefined,
    pay "GALICE" "GBOB" "USDC" .undefined]

/-- A random key is paid, another account is debited, and another asset is sent. -/
theorem strays_paid :
    buildBatchTransaction sampleSdk none strays {} =
      .ok ⟨"GALICE", "300", "Test SDF Network ; September 2015", 30,
        [⟨"GRANDOM", .native, "5", none⟩, ⟨"GBOB", .native, "5", none⟩,
          ⟨"GBOB", .native, "5", none⟩]⟩ ∧
    ¬ Pays sampleSdk "GALICE" (pay "GALICE" "bob" "XLM" .undefined) ⟨"GRANDOM", .native, "5", none⟩ ∧
    ¬ Pays sampleSdk "GALICE" (pay "carol" "GBOB" "XLM" .undefined) ⟨"GBOB", .native, "5", none⟩ ∧
    ¬ Pays sampleSdk "GALICE" (pay "GALICE" "GBOB" "USDC" .undefined) ⟨"GBOB", .native, "5", none⟩ := by
  refine ⟨rfl, fun h => ?_, fun h => ?_, fun h => ?_⟩
  · simpa [pay, BatchItem.raw] using h.pays
  · simpa [pay, BatchItem.raw] using h.debits
  · have hunnamed : ¬ Identified sampleSdk (.json (.string "USDC")) .undefined := by
      rintro (h | ⟨asset, h⟩ | h | h)
      · exact absurd h (by decide)
      · cases h
      · cases h
      · cases h
    have hnative : toStellarAsset sampleSdk (.json (.string "USDC")) .undefined = .ok .native := rfl
    exact hunnamed ((names_iff hnative).mp h.asset)

end Examples

end StellarTags.Batching
