import StellarTags.Library.Runs
import StellarTags.Proxy.Operations

/-! The proxy's runs, and what each signed call does when it is accepted. -/

namespace StellarTags.Proxy

open Library.Transactions Library.Integers Library.Runs Library.Tokens Soroban

inductive Op : Type
  | initializeProxy (admin logicContract : Address)
  | upgradeLogic (admin newLogicContract : Address)
  | transferAdmin (admin newAdmin : Address)
  | authorizeSessionKey (sessionKey : Address) (spendingLimit : ℤ) (validUntil : ℕ)
  | forward (func : Func) (args : List Val)
  | verifyPaymentIntent (signerPubkey : PublicKey) (intent : PaymentIntent) (signature : Signature)
  | executePaymentIntent (signerPubkey : PublicKey) (intent : PaymentIntent)
      (signature : Signature)
  | forwardWithMeta (signerPubkey : PublicKey) (intent : PaymentIntent) (signature : Signature)
      (func : Func) (args : List Val)
  | executeMetaPayment (payload : MetaPayment) (signerPubkey : PublicKey) (signature : Signature)
  | routePaymentMeta (payload : MetaPayment) (signerPubkey : PublicKey) (signature : Signature)
  | executeSingleMetaTx (call : MetaTxCall)
  | executeBatchTolerant (calls : List MetaTxCall)
  /-- A call somebody else makes to a token contract. -/
  | outside (call : TokenCall Address Address)

def Op.invoke (d : Deployment) (env : Env) : Op → Tx State Error Unit
  | .initializeProxy admin logicContract => Proxy.initializeProxy d env admin logicContract
  | .upgradeLogic admin newLogicContract => Proxy.upgradeLogic d env admin newLogicContract
  | .transferAdmin admin newAdmin => Proxy.transferAdmin d env admin newAdmin
  | .authorizeSessionKey sessionKey spendingLimit validUntil =>
    Proxy.authorizeSessionKey d env sessionKey spendingLimit validUntil
  | .forward func args => Proxy.forward d env func args
  | .verifyPaymentIntent signerPubkey intent signature =>
    verifyPaymentIntentInternal d env signerPubkey intent signature
  | .executePaymentIntent signerPubkey intent signature =>
    Proxy.executePaymentIntent d env signerPubkey intent signature
  | .forwardWithMeta signerPubkey intent signature func args =>
    Proxy.forwardWithMeta d env signerPubkey intent signature func args
  | .executeMetaPayment payload signerPubkey signature =>
    Proxy.executeMetaPayment d env payload signerPubkey signature
  | .routePaymentMeta payload signerPubkey signature =>
    Proxy.routePaymentMeta d env payload signerPubkey signature
  | .executeSingleMetaTx call => Proxy.executeSingleMetaTx d env call
  | .executeBatchTolerant calls => Tx.void (Proxy.executeBatchTolerant d env calls)
  | .outside call => Tx.update fun s => { s with tokens := s.tokens.others d.self [call] }

/-- One transaction: an entry point, with the ledger and the authorisations it runs under. -/
structure Call where
  env : Env
  op : Op

def step (d : Deployment) (call : Call) : State → State := Tx.commit (call.op.invoke d call.env)

lemma step_cases (d : Deployment) (call : Call) (s : State) :
    step d call s = s ∨ call.op.invoke d call.env s = .ok ((), step d call s) :=
  (Tx.commit_cases (call.op.invoke d call.env) s).imp id fun ⟨_, hr⟩ => hr

def after (d : Deployment) (tokens : Ledger Address Address) (calls : List Call) : State :=
  run (step d) (State.fresh tokens) calls

section Settled

def Event.settledPayment : Event → Option MetaPayment
  | .metaPayment payload => some payload
  | .paymentIntentExecuted _ | .metaTxFailed _ _ => none

def Event.executedIntent : Event → Option PaymentIntent
  | .paymentIntentExecuted intent => some intent
  | .metaPayment _ | .metaTxFailed _ _ => none

namespace State

def payments (s : State) : List MetaPayment := s.history.filterMap Event.settledPayment

def intents (s : State) : List PaymentIntent := s.history.filterMap Event.executedIntent

def settleIntent (s : State) (intent : PaymentIntent) : State :=
  { s with
    nonce := Function.update s.nonce intent.fromAddress (some (intent.nonce + 1))
    history := .paymentIntentExecuted intent :: s.history }

def settlePayment (s : State) (payload : MetaPayment) (tokens : Ledger Address Address) : State :=
  { s with
    metaNonce := Function.update s.metaNonce payload.sender (some (payload.nonce + 1))
    tokens := tokens
    history := .metaPayment payload :: s.history }

variable (s : State) (intent : PaymentIntent) (payload : MetaPayment)
  (tokens : Ledger Address Address) (account : Address) (error : Error)

lemma getNonce_settleIntent : (s.settleIntent intent).getNonce =
    Function.update s.getNonce intent.fromAddress (intent.nonce + 1) := by
  funext a
  by_cases ha : a = intent.fromAddress
  · simp [getNonce, settleIntent, ha]
  · simp [getNonce, settleIntent, ha]

lemma getMetaNonce_settlePayment : (s.settlePayment payload tokens).getMetaNonce =
    Function.update s.getMetaNonce payload.sender (payload.nonce + 1) := by
  funext a
  by_cases ha : a = payload.sender
  · simp [getMetaNonce, settlePayment, ha]
  · simp [getMetaNonce, settlePayment, ha]

@[simp] lemma getMetaNonce_settleIntent :
    (s.settleIntent intent).getMetaNonce = s.getMetaNonce := rfl

@[simp] lemma getNonce_settlePayment :
    (s.settlePayment payload tokens).getNonce = s.getNonce := rfl

@[simp] lemma intents_settleIntent :
    (s.settleIntent intent).intents = intent :: s.intents := rfl

@[simp] lemma payments_settleIntent : (s.settleIntent intent).payments = s.payments := rfl

@[simp] lemma payments_settlePayment :
    (s.settlePayment payload tokens).payments = payload :: s.payments := rfl

@[simp] lemma intents_settlePayment :
    (s.settlePayment payload tokens).intents = s.intents := rfl

@[simp] lemma intents_publish_failed :
    (s.publish (.metaTxFailed account error)).intents = s.intents := rfl

@[simp] lemma payments_publish_failed :
    (s.publish (.metaTxFailed account error)).payments = s.payments := rfl

end State

end Settled

/-- No nonce is spent, and nothing is published. -/
structure Idle (s t : State) : Prop where
  metaNonce : t.metaNonce = s.metaNonce
  nonce : t.nonce = s.nonce
  history : t.history = s.history

instance : IsPreorder State Idle where
  refl _ := ⟨rfl, rfl, rfl⟩
  trans _ _ _ hst htv := ⟨htv.1.trans hst.1, htv.2.trans hst.2, htv.3.trans hst.3⟩

namespace Idle

variable {d : Deployment} {env : Env} {s t : State} {func : Func} {args : List Val}

lemma getNonce (hi : Idle s t) : t.getNonce = s.getNonce := by
  unfold State.getNonce
  rw [hi.nonce]

lemma getMetaNonce (hi : Idle s t) : t.getMetaNonce = s.getMetaNonce := by
  unfold State.getMetaNonce
  rw [hi.metaNonce]

lemma payments (hi : Idle s t) : t.payments = s.payments := by rw [State.payments, hi.history]; rfl

lemma intents (hi : Idle s t) : t.intents = s.intents := by rw [State.intents, hi.history]; rfl

lemma loadLogicContract : Tx.Respects Idle loadLogicContract :=
  .bind (.read _) fun _ => .unwrap _ _

lemma assertAdmin {caller : Address} : Tx.Respects Idle (assertAdmin d env caller) :=
  .bind (.read _) fun _ => .bind (.unwrap _ _) fun _ => .bind (.reject _ _) fun _ => .demand _

lemma chargeIfSession (spend : Address × ℤ) : Tx.Respects Idle (chargeIfSession env spend) := by
  refine .bind (.read _) fun stored => ?_
  cases stored with
  | none => exact .pure ()
  | some allowance =>
    exact .bind (.reject _ _) fun _ => .bind (.reject _ _) fun _ => .update fun _ => ⟨rfl, rfl, rfl⟩

lemma invokeLogic {logic : Address} : Tx.Respects Idle (invokeLogic d env logic func args) := by
  refine .bind (.demand _) fun _ => .bind (.read _) fun tokens => ?_
  cases env.logic logic func args tokens with
  | none => exact .trap
  | some tokens => exact .update fun _ => ⟨rfl, rfl, rfl⟩

lemma forward : Tx.Respects Idle (forward d env func args) := by
  refine .bind loadLogicContract fun logic => ?_
  refine .bind (.bind (.unwrap _ _) fun spends => ?_) fun _ => ?_
  · exact .forEach fun spend _ => chargeIfSession spend
  · exact invokeLogic

end Idle

/-- An intent that is in time, carries its account's next nonce and a signature that verifies. -/
structure MetaTxCall.Verified (c : MetaTxCall) (d : Deployment) (env : Env) (next : Address → ℕ) :
    Prop where
  inTime : env.timestamp ≤ c.intent.deadline
  nonce : c.intent.nonce = next c.intent.fromAddress
  signature : d.ed25519Verify c.signerPubkey (intentDigest d c.intent) c.signature = true
  left : c.intent.nonce + 1 ≤ maxU64

structure MetaCall where
  payload : MetaPayment
  signerPubkey : PublicKey
  signature : Signature

/-- A meta payment that passes its checks up to its signature. -/
structure MetaCall.Verified (m : MetaCall) (d : Deployment) (env : Env) (next : Address → ℕ) :
    Prop where
  inTime : 0 < m.payload.deadline → env.timestamp ≤ m.payload.deadline
  amount : 0 < m.payload.amount
  fee : 0 ≤ m.payload.fee
  fits : FitsI128 (m.payload.amount + m.payload.fee)
  nonce : m.payload.nonce = next m.payload.sender
  signature : d.ed25519Verify m.signerPubkey (buildMetaMessage d m.payload m.signerPubkey)
    m.signature = true

section Inversion

variable {d : Deployment} {env : Env} {s t : State} {u : Unit} {c : MetaTxCall} {m : MetaCall}
  {results after : List Bool}

@[simp] lemma checkSignature_ok {key : PublicKey} {message : Bytes} {signature : Signature} :
    checkSignature d key message signature s = .ok (u, t) ↔
      d.ed25519Verify key message signature = true ∧ t = s := by
  unfold checkSignature
  split_ifs <;> simp

lemma executePaymentIntent_ok {key : PublicKey} {intent : PaymentIntent} {signature : Signature} :
    executePaymentIntent d env key intent signature s = .ok (u, t) ↔
      MetaTxCall.Verified ⟨key, intent, signature⟩ d env s.getNonce ∧ t = s.settleIntent intent := by
  simp [executePaymentIntent, verifyPaymentIntentInternal]
  constructor
  · rintro ⟨⟨hd, hn, hs⟩, hl, rfl⟩
    exact ⟨⟨hd, hn, hs, hl⟩, rfl⟩
  · rintro ⟨⟨hd, hn, hs, hl⟩, rfl⟩
    exact ⟨⟨hd, hn, hs⟩, hl, rfl⟩

lemma executeSingleMetaTx_ok : executeSingleMetaTx d env c s = .ok (u, t) ↔
    c.Verified d env s.getNonce ∧ t = s.settleIntent c.intent := executePaymentIntent_ok

lemma executeTolerant_ok (hr : executeTolerant d env results c s = .ok (after, t)) :
    (after = results ++ [true] ∧ c.Verified d env s.getNonce ∧ t = s.settleIntent c.intent) ∨
      ∃ error, after = results ++ [false] ∧ ¬ c.Verified d env s.getNonce ∧
        t = s.publish (.metaTxFailed c.intent.fromAddress error) := by
  obtain ⟨outcome, v, hv, hk⟩ := Tx.bind_ok.mp hr
  rcases Tx.attempt_ok.mp hv with ⟨_, rfl, hs⟩ | ⟨error, rfl, he, rfl⟩
  · obtain ⟨hc, rfl⟩ := executeSingleMetaTx_ok.mp hs
    obtain ⟨rfl, rfl⟩ := Tx.pure_ok.mp hk
    exact Or.inl ⟨rfl, hc, rfl⟩
  · obtain ⟨rfl, rfl⟩ := Tx.pure_ok.mp hk
    refine Or.inr ⟨error, rfl, fun hc => ?_, rfl⟩
    rw [(executeSingleMetaTx_ok (u := ())).mpr ⟨hc, rfl⟩] at he
    cases he

lemma transferFrom_ok {index : ℕ} {token source target : Address} {amount : ℤ}
    (hr : transferFrom d env index token source target amount s = .ok (u, t)) :
    ∃ tokens, s.tokens.apply (.transferFrom token d.self source target amount) = some tokens ∧
      t = { s with tokens := tokens } := by
  simp only [transferFrom, Tx.read_bind] at hr
  cases ht : s.tokens.apply (.transferFrom token d.self source target amount) with
  | none => simp [ht] at hr
  | some tokens =>
    simp only [ht] at hr
    obtain ⟨-, hr⟩ := Tx.demand_bind_ok.mp hr
    exact ⟨tokens, rfl, Tx.update_ok.mp hr⟩

lemma executeMetaPayment_ok
    (hr : executeMetaPayment d env m.payload m.signerPubkey m.signature s = .ok (u, t)) :
    m.Verified d env s.getMetaNonce ∧ ∃ tokens, t = s.settlePayment m.payload tokens ∧
      ∀ account, account ≠ m.payload.sender → ∀ token,
        s.tokens.balance token account ≤ tokens.balance token account := by
  simp [executeMetaPayment] at hr
  obtain ⟨hd, ha, hf, hfit, hn, hs, -, -, -, v, hv, w, hw, rfl⟩ := hr
  obtain ⟨tokens, ht, rfl⟩ := transferFrom_ok hw
  refine ⟨⟨hd, ha, hf, hfit, hn, hs⟩, tokens, ?_⟩
  have hpayer : ∀ account, account ≠ m.payload.sender → ∀ target n,
      (TokenCall.transferFrom m.payload.tokenAddress d.self m.payload.sender target n).payer ≠
        some account := fun account hne target n => by
    simpa [TokenCall.payer] using hne.symm
  rcases Tx.whenever_ok.mp hv with ⟨-, hv⟩ | ⟨-, rfl⟩
  · obtain ⟨paid, hp, rfl⟩ := transferFrom_ok hv
    refine ⟨rfl, fun account hne token => ?_⟩
    exact (Ledger.apply_payer (hpayer account hne _ _) hp token).trans
      (Ledger.apply_payer (hpayer account hne _ _) ht token)
  · exact ⟨rfl, fun account hne token => Ledger.apply_payer (hpayer account hne _ _) ht token⟩

def Op.signedPayments : Op → List MetaCall
  | .executeMetaPayment payload signerPubkey signature
  | .routePaymentMeta payload signerPubkey signature => [⟨payload, signerPubkey, signature⟩]
  | _ => []

def Op.signedIntents : Op → List MetaTxCall
  | .executePaymentIntent signerPubkey intent signature
  | .forwardWithMeta signerPubkey intent signature _ _ => [⟨signerPubkey, intent, signature⟩]
  | .executeSingleMetaTx call => [call]
  | .executeBatchTolerant calls => calls
  | _ => []

/-- All that a call that succeeds can do to the nonces and the published events. -/
inductive Effect (d : Deployment) (env : Env) (s t : State) : Op → Prop
  | idle {op : Op} (hp : op.signedPayments = []) (hi : op.signedIntents = []) (ht : Idle s t) :
    Effect d env s t op
  | payment {op : Op} (m : MetaCall) (hp : op.signedPayments = [m]) (hi : op.signedIntents = [])
    (hm : m.Verified d env s.getMetaNonce) (tokens : Ledger Address Address)
    (ht : t = s.settlePayment m.payload tokens)
    (hb : ∀ account, account ≠ m.payload.sender → ∀ token,
      s.tokens.balance token account ≤ tokens.balance token account) : Effect d env s t op
  | intent {op : Op} (c : MetaTxCall) (hp : op.signedPayments = []) (hi : op.signedIntents = [c])
    (hc : c.Verified d env s.getNonce) (ht : Idle (s.settleIntent c.intent) t) :
    Effect d env s t op
  | batch (calls : List MetaTxCall) (results : List Bool)
    (hr : executeBatchTolerant d env calls s = .ok (results, t)) :
    Effect d env s t (.executeBatchTolerant calls)

lemma Op.invoke_effect {op : Op} (hr : op.invoke d env s = .ok (u, t)) : Effect d env s t op := by
  cases op with
  | initializeProxy admin logicContract =>
    refine .idle rfl rfl (Tx.Respects.bind (.read _) (fun stored => ?_) s u t hr)
    exact .bind (.reject _ _) fun _ => .bind (.demand _) fun _ => .update fun _ => ⟨rfl, rfl, rfl⟩
  | upgradeLogic admin newLogicContract =>
    refine .idle rfl rfl (Tx.Respects.bind Idle.assertAdmin (fun _ => ?_) s u t hr)
    exact .bind .loadLogicContract fun _ => .bind (.reject _ _) fun _ =>
      .update fun _ => ⟨rfl, rfl, rfl⟩
  | transferAdmin admin newAdmin =>
    refine .idle rfl rfl (Tx.Respects.bind Idle.assertAdmin (fun _ => ?_) s u t hr)
    exact .update fun _ => ⟨rfl, rfl, rfl⟩
  | authorizeSessionKey sessionKey spendingLimit validUntil =>
    refine .idle rfl rfl (Tx.Respects.bind (.demand _) (fun _ => ?_) s u t hr)
    exact .bind (.reject _ _) fun _ => .update fun _ => ⟨rfl, rfl, rfl⟩
  | forward func args => exact .idle rfl rfl (Idle.forward s u t hr)
  | verifyPaymentIntent signerPubkey intent signature =>
    simp [invoke, verifyPaymentIntentInternal] at hr
    obtain ⟨-, -, -, rfl⟩ := hr
    exact .idle rfl rfl (refl_of Idle _)
  | executePaymentIntent signerPubkey intent signature =>
    obtain ⟨hc, rfl⟩ := executePaymentIntent_ok.mp hr
    exact .intent _ rfl rfl hc (refl_of Idle _)
  | forwardWithMeta signerPubkey intent signature func args =>
    obtain ⟨v, hv, hf⟩ := Tx.bind_unit_ok.mp hr
    obtain ⟨hc, rfl⟩ := executePaymentIntent_ok.mp hv
    exact .intent _ rfl rfl hc (Idle.forward _ u t hf)
  | executeMetaPayment payload signerPubkey signature =>
    obtain ⟨hm, tokens, ht, hb⟩ := executeMetaPayment_ok (m := ⟨payload, signerPubkey, signature⟩) hr
    exact .payment _ rfl rfl hm tokens ht hb
  | routePaymentMeta payload signerPubkey signature =>
    obtain ⟨hm, tokens, ht, hb⟩ := executeMetaPayment_ok (m := ⟨payload, signerPubkey, signature⟩) hr
    exact .payment _ rfl rfl hm tokens ht hb
  | executeSingleMetaTx call =>
    obtain ⟨hc, rfl⟩ := executeSingleMetaTx_ok.mp hr
    exact .intent call rfl rfl hc (refl_of Idle _)
  | executeBatchTolerant calls =>
    obtain ⟨results, hr⟩ := Tx.void_ok.mp hr
    exact .batch calls results hr
  | outside call =>
    simp only [invoke, Tx.update_ok] at hr
    exact .idle rfl rfl ⟨by rw [hr], by rw [hr], by rw [hr]⟩

end Inversion

end StellarTags.Proxy
