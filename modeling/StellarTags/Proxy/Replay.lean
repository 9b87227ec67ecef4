import StellarTags.Library.Sequences
import StellarTags.Proxy.Calls

/-! Every account's signed payments and intents take effect once each, in the order of nonces. -/

namespace StellarTags.Proxy

open Library.Transactions Library.Runs Library.Tokens Library.Counters Soroban

/-- What took effect so far spent the nonces before the next ones, each once and in order. -/
structure State.SpentInOrder (s : State) : Prop where
  payments : Consecutive MetaPayment.sender MetaPayment.nonce s.getMetaNonce s.payments
  intents : Consecutive PaymentIntent.fromAddress PaymentIntent.nonce s.getNonce s.intents

namespace State.SpentInOrder

variable {s t : State} {d : Deployment} {env : Env}

lemma fresh (tokens : Ledger Address Address) : (State.fresh tokens).SpentInOrder :=
  ⟨.start, .start⟩

lemma idle (hs : s.SpentInOrder) (hi : Idle s t) : t.SpentInOrder := by
  refine ⟨?_, ?_⟩
  · rw [hi.getMetaNonce, hi.payments]
    exact hs.payments
  · rw [hi.getNonce, hi.intents]
    exact hs.intents

lemma settleIntent (hs : s.SpentInOrder) {c : MetaTxCall} (hc : c.Verified d env s.getNonce) :
    (s.settleIntent c.intent).SpentInOrder := by
  refine ⟨hs.payments, ?_⟩
  rw [getNonce_settleIntent]
  exact hs.intents.use hc.nonce

lemma settlePayment (hs : s.SpentInOrder) {m : MetaCall} (hm : m.Verified d env s.getMetaNonce)
    (tokens : Ledger Address Address) : (s.settlePayment m.payload tokens).SpentInOrder := by
  refine ⟨?_, hs.intents⟩
  rw [getMetaNonce_settlePayment]
  exact hs.payments.use hm.nonce

end State.SpentInOrder

section Batches

variable {d : Deployment} {env : Env} {s t : State} {calls : List MetaTxCall}
  {results after : List Bool}

def executed (calls : List MetaTxCall) (results : List Bool) : List PaymentIntent :=
  (((calls.zip results).filter (·.2)).map (·.1.intent)).reverse

lemma fold_executed
    (hr : Tx.fold (executeTolerant d env) results calls s = .ok (after, t)) :
    ∃ outcomes, after = results ++ outcomes ∧ outcomes.length = calls.length ∧
      t.intents = executed calls outcomes ++ s.intents ∧ t.payments = s.payments := by
  induction calls generalizing results s with
  | nil =>
    obtain ⟨rfl, rfl⟩ := Tx.fold_nil.mp hr
    exact ⟨[], by simp [executed]⟩
  | cons c calls ih =>
    obtain ⟨_, v, hv, hr⟩ := Tx.fold_cons.mp hr
    obtain ⟨outcomes, rfl, hl, hi, hp⟩ := ih hr
    rcases executeTolerant_ok hv with ⟨rfl, -, rfl⟩ | ⟨error, rfl, -, rfl⟩
    · refine ⟨true :: outcomes, by simp, by simp [hl], ?_, by simp [hp]⟩
      simp [hi, executed]
    · refine ⟨false :: outcomes, by simp, by simp [hl], ?_, by simp [hp]⟩
      simp [hi, executed]

lemma executeTolerant_spentInOrder (c : MetaTxCall) :
    Tx.Ensures State.SpentInOrder (executeTolerant d env results c) fun _ => State.SpentInOrder := by
  intro s after t hs hr
  rcases executeTolerant_ok hr with ⟨-, hc, rfl⟩ | ⟨error, -, -, rfl⟩
  · exact hs.settleIntent hc
  · exact ⟨hs.payments, hs.intents⟩

end Batches

variable {d : Deployment} {s : State}

lemma step_spentInOrder (call : Call) (hs : s.SpentInOrder) : (step d call s).SpentInOrder := by
  obtain ⟨env, op⟩ := call
  rcases step_cases d ⟨env, op⟩ s with he | hr
  · rwa [he]
  · cases Op.invoke_effect hr with
    | idle _ _ ht => exact hs.idle ht
    | payment m _ _ hm tokens ht =>
      rw [ht]
      exact hs.settlePayment hm tokens
    | intent c _ _ hc ht => exact (hs.settleIntent hc).idle ht
    | batch calls results hr =>
      exact Tx.Ensures.fold (I := fun _ => State.SpentInOrder)
        (fun _ c _ => executeTolerant_spentInOrder c) _ _ _ hs hr

/-- What SHA-256 and XDR are documented to be: hashes do not collide, and the encoding of an
address starts with the zero byte of its type. -/
structure Deployment.Separating (d : Deployment) : Prop where
  sha256 : Function.Injective d.sha256
  hashBytes : Function.Injective d.hashBytes
  addressTag : ∀ a, (d.xdr (.address a)).head? = some 0

lemma messages_differ (hd : d.Separating) (payload : MetaPayment) (key : PublicKey)
    (intent : PaymentIntent) : buildMetaMessage d payload key ≠ intentDigest d intent := by
  intro he
  have hb := hd.sha256 (hd.hashBytes he)
  obtain ⟨rest, ha⟩ := List.head?_eq_some_iff.mp (hd.addressTag d.self)
  simp [ha] at hb

def SignatureOver (d : Deployment) (key : PublicKey) (message : Bytes) (signature : Signature) :
    Prop :=
  ∀ other, d.ed25519Verify key other signature = true → other = message

/-- Nothing signed takes effect twice, and what fails spends nothing. -/
structure State.ReplayFree (s : State) (d : Deployment) : Prop where
  spent : s.SpentInOrder
  paymentsOnce : s.payments.Nodup
  intentsOnce : s.intents.Nodup
  failed : ∀ call : Call, Tx.succeeds (call.op.invoke d call.env) s = false → step d call s = s
  batch : ∀ env calls results t, executeBatchTolerant d env calls s = .ok (results, t) →
    results.length = calls.length ∧ t.intents = executed calls results ++ s.intents ∧
      t.payments = s.payments

/-- A signature over a meta payment executes no intent, and the other way round. -/
structure Deployment.KeepsApart (d : Deployment) : Prop where
  intent : ∀ key signature payload signer,
    SignatureOver d key (buildMetaMessage d payload signer) signature →
      ∀ env intent s, Tx.succeeds (executePaymentIntent d env key intent signature) s = false
  payment : ∀ key signature intent, SignatureOver d key (intentDigest d intent) signature →
    ∀ env payload s, Tx.succeeds (executeMetaPayment d env payload key signature) s = false

lemma Deployment.Separating.keepsApart (hd : d.Separating) : d.KeepsApart := by
  refine ⟨fun key signature payload signer ho env intent s => ?_,
    fun key signature intent ho env payload s => ?_⟩
  · refine Bool.eq_false_iff.mpr fun hok => ?_
    obtain ⟨_, hr⟩ := Tx.succeeds_iff.mp hok
    have hv := (executePaymentIntent_ok.mp hr).1.signature
    exact messages_differ hd payload signer intent (ho _ hv).symm
  · refine Bool.eq_false_iff.mpr fun hok => ?_
    obtain ⟨_, hr⟩ := Tx.succeeds_iff.mp hok
    have hv := (executeMetaPayment_ok (m := ⟨payload, key, signature⟩) hr).1.signature
    exact messages_differ hd payload key intent (ho _ hv)

section Examples

/-- A deployment whose hashes tell all byte strings apart. -/
def distinctDeployment : Deployment :=
  { Host.sample with
    xdr := fun
      | .address a => 0 :: List.replicate a.id 1
      | _ => []
    sha256 := fun b => ⟨Encodable.encode b⟩
    hashBytes := fun hash => List.replicate hash.id 1 }

lemma distinct_separating : distinctDeployment.Separating := by
  refine ⟨fun a b he => ?_, fun a b he => ?_, fun a => rfl⟩
  · exact Encodable.encode_injective (Hash.mk.inj he)
  · have hl := congrArg List.length he
    cases a
    cases b
    simpa [distinctDeployment] using hl

def sampleIntent (nonce : ℕ) : MetaTxCall := ⟨⟨2⟩, ⟨⟨2⟩, ⟨3⟩, 1, nonce, 0, 0⟩, ⟨2⟩⟩

/-- The first comes twice, alone and then in a batch with the second. -/
def repeated : List Call :=
  [⟨{}, .executeSingleMetaTx (sampleIntent 0)⟩,
    ⟨{}, .executeBatchTolerant [sampleIntent 0, sampleIntent 1]⟩]

end Examples

end StellarTags.Proxy
