import StellarTags.Library.Sequences
import StellarTags.Soroban.Values
import StellarTags.Token.Allowances

/-! Permits take effect once each, in the order of nonces, and only as their owners signed them. -/

namespace StellarTags.Token

open Library.Transactions Library.Integers Library.Runs Library.Counters Soroban

/-- A permit that took effect, with the token's name and the nonce it met. -/
structure PermitUse where
  name : String
  owner : Address
  spender : Address
  value : ℤ
  nonce : ℕ
  deadline : ℕ
  signature : Bytes
  deriving DecidableEq, Repr

variable (d : Deployment)

/-- The message the owner signs. -/
def PermitUse.digest (p : PermitUse) : Bytes :=
  permitDigestInternal d p.name p.owner p.spender p.value p.nonce p.deadline

def Call.permits (s : State) (call : Call) : List PermitUse :=
  match call.op with
  | .permit owner spender value deadline signature =>
    if Tx.succeeds (call.op.invoke d call.env) s = true then
      [⟨s.getName, owner, spender, value, s.getPermitNonce owner, deadline, signature⟩]
    else []
  | _ => []

def permitsOf (calls : List Call) : List PermitUse := trace (step d) (Call.permits d) {} calls

/-- What SHA-256 and XDR are documented to be: hashes do not collide, and encodings are read back
one way only. -/
structure Deployment.Separating : Prop where
  sha256 : Function.Injective d.sha256
  hashBytes : Function.Injective d.hashBytes
  xdr : Function.Injective d.xdr

/-- No signature verifies but for a message that the key's holder has signed. -/
def Deployment.Unforgeable (signed : (key message : Bytes) → Prop) : Prop :=
  ∀ key message signature, d.ed25519Verify (publicKey key) message (signatureOf signature) = true →
    signed key message

/-- The signature is one over this message and no other. -/
def SignatureOver (key message signature : Bytes) : Prop :=
  ∀ other, d.ed25519Verify (publicKey key) other (signatureOf signature) = true → other = message

variable {d} {env : Env} {s t v : State} {a : Address}

section Digests

lemma permitPayload_toVal_injective : Function.Injective PermitPayload.toVal := by
  rintro ⟨domain, owner, spender, value, nonce, deadline⟩ ⟨domain', _, _, _, _, _⟩ h
  simp only [PermitPayload.toVal, Val.struct.injEq, List.cons.injEq, Val.u64.injEq,
    Val.bytes.injEq, Val.address.injEq, Val.i128.injEq, and_true, true_and] at h
  obtain ⟨rfl, rfl, rfl, rfl, rfl, rfl⟩ := h
  rfl

lemma permitDomain_toVal_injective : Function.Injective PermitDomain.toVal := by
  rintro ⟨name, version, networkId, contract⟩ ⟨_, _, _, _⟩ h
  simp only [PermitDomain.toVal, Val.struct.injEq, List.cons.injEq, Val.address.injEq,
    Val.text.injEq, Val.bytes.injEq, Val.u32.injEq, and_true, true_and] at h
  obtain ⟨rfl, rfl, rfl, rfl⟩ := h
  rfl

lemma Deployment.Separating.digest (hd : d.Separating) {p q : PermitUse}
    (h : p.digest d = q.digest d) : p.name = q.name ∧ p.owner = q.owner ∧ p.spender = q.spender ∧
      p.value = q.value ∧ p.nonce = q.nonce ∧ p.deadline = q.deadline := by
  have hpayload := permitPayload_toVal_injective (hd.xdr (hd.sha256 (hd.hashBytes h)))
  simp only [PermitPayload.mk.injEq] at hpayload
  obtain ⟨hdomain, howner, hspender, hvalue, hnonce, hdeadline⟩ := hpayload
  have hname := permitDomain_toVal_injective (hd.xdr (hd.sha256 (hd.hashBytes hdomain)))
  simp only [PermitDomain.mk.injEq, and_true] at hname
  exact ⟨hname, howner, hspender, hvalue, hnonce, hdeadline⟩

/-- Tokens on one host that differ in their address or their network have no digest in common. -/
lemma Deployment.Separating.domain (hd : d.Separating) {self : Address} {networkId : Hash}
    {name other : String}
    (h : permitDomainSeparator d name =
      permitDomainSeparator { d with self := self, networkId := networkId } other) :
    self = d.self ∧ networkId = d.networkId ∧ other = name := by
  have hdomain := permitDomain_toVal_injective (hd.xdr (hd.sha256 (hd.hashBytes h)))
  simp only [PermitDomain.mk.injEq, true_and] at hdomain
  exact ⟨hdomain.2.2.symm, (hd.hashBytes hdomain.2.1).symm, hdomain.1.symm⟩

end Digests

section Nonces

def SameNonces (s t : State) : Prop := t.permitNonce = s.permitNonce

namespace SameNonces

lemma putAllowance (s : State) (key : Address × Address) (value : Allowance) :
    SameNonces s (s.putAllowance key value) := by
  rw [State.putAllowance]
  split_ifs <;> rfl

lemma pruned (s : State) (env : Env) (key : Address × Address) : SameNonces s (s.pruned env key) := by
  rw [State.pruned]
  split_ifs <;> rfl

lemma charged (s : State) (env : Env) (key : Address × Address) (n : ℤ) :
    SameNonces s (s.charged env key n) :=
  (putAllowance _ key _).trans (pruned s env key)

lemma transfer (h : SameNonces s v) (b c : Address) (n : ℤ) (event : Event) :
    SameNonces s (((v.debited b n).credited c n).publish event) := h

lemma burn (h : SameNonces s v) (b : Address) (n supply : ℤ) (event : Event) :
    SameNonces s (((v.debited b n).setTotalSupply supply).publish event) := h

end SameNonces

lemma Op.invoke_nonces {op : Op}
    (hop : ∀ owner spender value deadline signature,
      op ≠ .permit owner spender value deadline signature)
    (h : op.invoke d env s = .ok ((), t)) : SameNonces s t := by
  by_cases hadmin : op.IsAdministration
  · exact (op.invoke_administered hadmin h).permitNonce
  cases op with
  | initialise admin name symbol decimals =>
    obtain ⟨-, rfl⟩ := initializeToken_ok h
    rfl
  | transferChecked source target amount =>
    obtain ⟨-, -, -, -, -, -, rfl⟩ := transferChecked_ok.mp h
    exact SameNonces.transfer rfl _ _ _ _
  | transfer source target amount =>
    obtain ⟨-, -, -, -, -, -, rfl⟩ := transferChecked_ok.mp h
    exact SameNonces.transfer rfl _ _ _ _
  | transferFromChecked spender source target amount =>
    obtain ⟨-, -, -, -, -, -, -, -, -, rfl⟩ := transferFromChecked_ok.mp h
    exact (SameNonces.charged s env (source, spender) amount).transfer _ _ _ _
  | transferFrom spender source target amount =>
    obtain ⟨-, -, -, -, -, -, -, -, -, rfl⟩ := transferFromChecked_ok.mp h
    exact (SameNonces.charged s env (source, spender) amount).transfer _ _ _ _
  | approve owner spender amount expirationLedger =>
    obtain ⟨-, -, -, -, -, rfl⟩ := approve_ok.mp h
    exact SameNonces.putAllowance s (owner, spender) ⟨amount, expirationLedger⟩
  | allowance owner spender =>
    obtain ⟨_, h⟩ := Tx.void_ok.mp h
    obtain ⟨-, rfl⟩ := allowance_ok.mp h
    exact .pruned s env (owner, spender)
  | permit owner spender value deadline signature => exact absurd rfl (hop _ _ _ _ _)
  | mint target amount =>
    obtain ⟨admin, -, -, -, -, -, -, rfl⟩ := mint_ok.mp h
    rfl
  | batchMint recipients amounts =>
    obtain ⟨admin, -, -, -, -, ht⟩ := batchMint_ok h
    rw [SameNonces, ht]
  | burn owner amount =>
    obtain ⟨-, -, -, -, -, -, rfl⟩ := burn_ok.mp h
    exact SameNonces.burn rfl _ _ _ _
  | burnFrom spender owner amount =>
    obtain ⟨-, -, -, -, -, -, -, -, -, -, rfl⟩ := burnFrom_ok.mp h
    exact (SameNonces.charged s env (owner, spender) amount).burn _ _ _ _
  | _ => exact absurd trivial hadmin

lemma getPermitNonce_permitted (owner spender : Address) (value : ℤ) :
    (s.permitted owner spender value).getPermitNonce =
      Function.update s.getPermitNonce owner (s.getPermitNonce owner + 1) := by
  funext x
  have hsame := SameNonces.putAllowance s (owner, spender) ⟨value, maxU32⟩
  rw [SameNonces] at hsame
  by_cases hx : x = owner
  · subst hx
    simp [State.permitted, State.getPermitNonce, State.setPermitNonce, State.publish]
  · simp [State.permitted, State.getPermitNonce, State.setPermitNonce, State.publish, hx, hsame]

end Nonces

/-- The permits used so far spent the nonces before the next ones, and were signed. -/
structure UsedInOrder (d : Deployment) (log : List PermitUse) (s : State) : Prop where
  nonces : Consecutive PermitUse.owner PermitUse.nonce s.getPermitNonce log.reverse
  signed : ∀ p ∈ log, ∃ key, accountPublicKey (d.addressString p.owner) = some key ∧
    d.ed25519Verify (publicKey key) (p.digest d) (signatureOf p.signature) = true

lemma step_used {log : List PermitUse} (call : Call) (h : UsedInOrder d log s) :
    UsedInOrder d (log ++ call.permits d s) (step d call s) := by
  obtain ⟨env, op⟩ := call
  cases hs : Tx.succeeds (op.invoke d env) s with
  | false =>
    have hnone : Call.permits d s ⟨env, op⟩ = [] := by
      cases op <;> simp [Call.permits, hs]
    rw [hnone, List.append_nil, step, Tx.commit_of_fails hs]
    exact h
  | true =>
    obtain ⟨_, hok⟩ := Tx.succeeds_iff.mp hs
    change UsedInOrder d _ (Tx.commit (op.invoke d env) s)
    generalize Tx.commit (op.invoke d env) s = t at hok
    by_cases hop : ∀ owner spender value deadline signature,
        op ≠ .permit owner spender value deadline signature
    · have hnone : Call.permits d s ⟨env, op⟩ = [] := by
        cases op with
        | permit => exact absurd rfl (hop _ _ _ _ _)
        | _ => rfl
      have hnonces : t.getPermitNonce = s.getPermitNonce := by
        funext x
        rw [State.getPermitNonce, State.getPermitNonce, op.invoke_nonces hop hok]
      rw [hnone, List.append_nil]
      exact ⟨hnonces ▸ h.nonces, h.signed⟩
    · push Not at hop
      obtain ⟨owner, spender, value, deadline, signature, rfl⟩ := hop
      obtain ⟨hshown, rfl⟩ := permit_ok hok
      rw [Call.permits]
      dsimp only
      rw [if_pos hs]
      refine ⟨?_, fun p hp => ?_⟩
      · rw [getPermitNonce_permitted, List.reverse_append, List.reverse_singleton]
        exact h.nonces.use (x := ⟨s.getName, owner, spender, value, s.getPermitNonce owner,
          deadline, signature⟩) rfl
      · rcases List.mem_append.mp hp with hp | hp
        · exact h.signed p hp
        · rw [List.mem_singleton.mp hp]
          exact hshown.signed

lemma run_used (d : Deployment) (calls : List Call) :
    UsedInOrder d (permitsOf d calls) (after d calls) := by
  have hstart : UsedInOrder d [] {} := ⟨.start, by simp⟩
  have h := trace_invariant (I := UsedInOrder d) (fun _ _ call hs => step_used call hs) hstart calls
  rwa [List.nil_append] at h

/-- A permit that takes effect was signed, for exactly what it does, by the key in its owner's
address; it sets the one allowance and uses up the one nonce. -/
structure PermitEffect (d : Deployment) (signed : (key message : Bytes) → Prop) (env : Env)
    (s t : State) (p : PermitUse) : Prop where
  owner : ∃ key, IsStrkey (d.addressString p.owner) key ∧ signed key (p.digest d)
  timely : env.timestamp ≤ p.deadline
  allowance : t.allowance (p.owner, p.spender) =
    if p.value = 0 then none else some (packAllowance p.value maxU32)
  others : ∀ key, key ≠ (p.owner, p.spender) → t.allowance key = s.allowance key
  nonces : t.getPermitNonce = Function.update s.getPermitNonce p.owner (p.nonce + 1)

lemma permit_effect {signed : (key message : Bytes) → Prop} (hu : d.Unforgeable signed)
    {owner spender : Address} {value : ℤ} {deadline : ℕ} {signature : Bytes}
    (h : permit d env owner spender value deadline signature s = .ok ((), t)) :
    PermitEffect d signed env s t
      ⟨s.getName, owner, spender, value, s.getPermitNonce owner, deadline, signature⟩ := by
  obtain ⟨hshown, rfl⟩ := permit_ok h
  obtain ⟨key, hkey, hverify⟩ := hshown.signed
  exact
    { owner := ⟨key, accountPublicKey_eq_some.mp hkey, hu key _ _ hverify⟩
      timely := hshown.timely
      allowance := allowance_putAllowance _
      others := fun _ hne => allowance_putAllowance_ne _ hne
      nonces := getPermitNonce_permitted owner spender value }

/-- Two permits that took effect were not one message, nor one signature of one message. -/
lemma UsedInOrder.distinct {log : List PermitUse} (h : UsedInOrder d log s) (hd : d.Separating) :
    log.Pairwise fun p q => p.digest d ≠ q.digest d ∧
      (p.owner = q.owner → p.signature = q.signature → ∀ key message,
        IsStrkey (d.addressString p.owner) key → ¬ SignatureOver d key message p.signature) := by
  have hnodup := List.nodup_reverse.mp (by simpa using h.nonces.nodup_tickets)
  have hpairs : log.Pairwise fun p q => (p.owner, p.nonce) ≠ (q.owner, q.nonce) :=
    List.pairwise_map.mp hnodup
  refine hpairs.imp_of_mem fun {p q} hp hq hne => ?_
  have hdigest : p.digest d ≠ q.digest d := by
    intro he
    obtain ⟨-, howner, -, -, hnonce, -⟩ := hd.digest he
    exact hne (Prod.ext howner hnonce)
  refine ⟨hdigest, fun howner hsignature key message hkey hover => hdigest ?_⟩
  obtain ⟨k, hk, hvp⟩ := h.signed p hp
  obtain ⟨k', hk', hvq⟩ := h.signed q hq
  have hkp : k = key := by
    rw [accountPublicKey_eq_some.mpr hkey] at hk
    exact (Option.some.inj hk).symm
  have hkq : k' = key := by
    rw [← howner, accountPublicKey_eq_some.mpr hkey] at hk'
    exact (Option.some.inj hk').symm
  rw [hkp] at hvp
  rw [hkq, ← hsignature] at hvq
  rw [hover _ hvp, hover _ hvq]

/-- Whatever calls are made, permits are as their owners signed them, each owner's nonces are used
one after the other, and a permit that fails leaves everything as it was. -/
structure PermitsSound (d : Deployment) (signed : (key message : Bytes) → Prop)
    (calls : List Call) : Prop where
  effect : ∀ env owner spender value deadline signature t,
    permit d env owner spender value deadline signature (after d calls) = .ok ((), t) →
      PermitEffect d signed env (after d calls) t ⟨(after d calls).getName, owner, spender, value,
        (after d calls).getPermitNonce owner, deadline, signature⟩
  binding : ∀ p q : PermitUse, p.digest d = q.digest d → p.name = q.name ∧ p.owner = q.owner ∧
    p.spender = q.spender ∧ p.value = q.value ∧ p.nonce = q.nonce ∧ p.deadline = q.deadline
  domain : ∀ self networkId name other, permitDomainSeparator d name =
    permitDomainSeparator { d with self := self, networkId := networkId } other →
      self = d.self ∧ networkId = d.networkId ∧ other = name
  inOrder : ∀ owner, ((permitsOf d calls).filter (·.owner = owner)).map PermitUse.nonce =
    List.range ((after d calls).getPermitNonce owner)
  once : (permitsOf d calls).Pairwise fun p q => p.digest d ≠ q.digest d ∧
    (p.owner = q.owner → p.signature = q.signature → ∀ key message,
      IsStrkey (d.addressString p.owner) key → ¬ SignatureOver d key message p.signature)
  failed : ∀ call : Call, Tx.succeeds (call.op.invoke d call.env) (after d calls) = false →
    step d call (after d calls) = after d calls

/-- Permits need the owner's signature, once for each. -/
theorem permits_sound (d : Deployment) (signed : (key message : Bytes) → Prop) (hd : d.Separating)
    (hu : d.Unforgeable signed) (calls : List Call) : PermitsSound d signed calls where
  effect _ _ _ _ _ _ _ h := permit_effect hu h
  binding _ _ h := hd.digest h
  domain _ _ _ _ h := hd.domain h
  inOrder owner := (run_used d calls).nonces.in_order owner
  once := (run_used d calls).distinct hd
  failed _ h := Tx.commit_of_fails h

section Examples

def keyOf (a : Address) : Bytes := List.replicate 32 (Fin.ofNat 256 a.id)

def signatureBy (a : Address) : Bytes := List.replicate 32 0 ++ keyOf a

def keyedDeployment : Deployment :=
  { Host.sample with addressString := fun a => strkey (keyOf a) [0, 0] }

/-- `⟨2⟩` permits `⟨3⟩` five, then nothing; the second permit is shown once more, late and under
`⟨3⟩`'s signature. -/
def permitted : List Call :=
  [⟨{ auth := fun _ => true }, .initialise ⟨1⟩ "Tag" "TAG" 7⟩,
    ⟨{}, .permit ⟨2⟩ ⟨3⟩ ⟨5, fitsI128_five⟩ 60 (signatureBy ⟨2⟩)⟩,
    ⟨{ timestamp := 60 }, .permit ⟨2⟩ ⟨3⟩ ⟨0, fitsI128_zero⟩ 60 (signatureBy ⟨2⟩)⟩,
    ⟨{ timestamp := 61 }, .permit ⟨2⟩ ⟨3⟩ ⟨0, fitsI128_zero⟩ 60 (signatureBy ⟨2⟩)⟩,
    ⟨{}, .permit ⟨2⟩ ⟨3⟩ ⟨0, fitsI128_zero⟩ 60 (signatureBy ⟨3⟩)⟩]

example : (permitsOf keyedDeployment permitted).map PermitUse.nonce = [0, 1] := by decide +kernel

/-- A token whose digests tell everything apart, and the one message that `⟨2⟩` has signed. -/
def distinctDeployment : Deployment :=
  { keyedDeployment with
    xdr := Val.tally
    sha256 := fun b => ⟨Encodable.encode b⟩
    hashBytes := fun hash => List.replicate hash.id 1 }

def signedMessage : Bytes := permitDigestInternal distinctDeployment "Tag" ⟨2⟩ ⟨3⟩ 5 0 60

def signedDeployment : Deployment :=
  { distinctDeployment with
    ed25519Verify := fun key message signature =>
      decide (key = publicKey (keyOf ⟨2⟩) ∧ message = signedMessage ∧
        signature = signatureOf (signatureBy ⟨2⟩)) }

def SignedByOwner (key message : Bytes) : Prop :=
  publicKey key = publicKey (keyOf ⟨2⟩) ∧ message = signedMessage

lemma signed_separating : signedDeployment.Separating where
  sha256 _ _ h := Encodable.encode_injective (Hash.mk.inj h)
  hashBytes a b h := by
    have hlength := congrArg List.length h
    cases a
    cases b
    simpa [signedDeployment, distinctDeployment] using hlength
  xdr := Val.tally_injective

lemma signed_unforgeable : signedDeployment.Unforgeable SignedByOwner := by
  intro key message signature h
  obtain ⟨hkey, hmessage, -⟩ := of_decide_eq_true h
  exact ⟨hkey, hmessage⟩

theorem permits_sound_signed : PermitsSound signedDeployment SignedByOwner permitted :=
  permits_sound signedDeployment SignedByOwner signed_separating signed_unforgeable permitted

end Examples

end StellarTags.Token
