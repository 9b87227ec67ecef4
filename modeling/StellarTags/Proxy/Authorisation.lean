import StellarTags.Proxy.Calls

/-! Signed calls take effect on the word of whichever key they name. -/

namespace StellarTags.Proxy

open Library.Transactions Library.Runs Library.Tokens Soroban

variable (d : Deployment) (keyOf : Address → PublicKey)

def MetaTxCall.Signed (c : MetaTxCall) : Prop :=
  d.ed25519Verify (keyOf c.intent.fromAddress) (intentDigest d c.intent) c.signature = true

def MetaCall.Signed (m : MetaCall) : Prop :=
  d.ed25519Verify (keyOf m.payload.sender) (buildMetaMessage d m.payload m.signerPubkey)
    m.signature = true

instance (c : MetaTxCall) : Decidable (c.Signed d keyOf) := inferInstanceAs (Decidable (_ = true))

instance (m : MetaCall) : Decidable (m.Signed d keyOf) := inferInstanceAs (Decidable (_ = true))

/-- The intents recorded on the way are consented to: their accounts authorise the call or have
signed them. The nonces count them. -/
structure Earned (env : Env) (carried : List MetaTxCall) (s t : State) (fresh : List PaymentIntent) :
    Prop where
  recorded : t.intents = fresh ++ s.intents
  nonce : ∀ account, t.getNonce account =
    s.getNonce account + (fresh.map PaymentIntent.fromAddress).count account
  consent : ∀ intent ∈ fresh, env.authorises d intent.fromAddress = true ∨
    ∃ c ∈ carried, c.intent = intent ∧ c.Signed d keyOf

/-- No account's nonces advance, intents are recorded or balance falls by a signed call that it
neither authorises nor has signed. -/
structure Authorised (s : State) (call : Call) : Prop where
  intents : ∃ fresh, Earned d keyOf call.env call.op.signedIntents s (step d call s) fresh
  metaNonce : ∀ account, (step d call s).getMetaNonce account ≠ s.getMetaNonce account →
    call.env.authorises d account = true ∨
      ∃ m ∈ call.op.signedPayments, m.payload.sender = account ∧ m.Signed d keyOf
  balance : ∀ m ∈ call.op.signedPayments, ∀ account, call.env.authorises d account = false →
    (m.payload.sender = account → ¬ m.Signed d keyOf) → ∀ token,
      s.tokens.balance token account ≤ (step d call s).tokens.balance token account

section Keys

variable {d keyOf}

instance (c : MetaTxCall) (env : Env) (next : Address → ℕ) : Decidable (c.Verified d env next) :=
  decidable_of_iff (env.timestamp ≤ c.intent.deadline ∧ c.intent.nonce = next c.intent.fromAddress ∧
      d.ed25519Verify c.signerPubkey (intentDigest d c.intent) c.signature = true ∧
      c.intent.nonce + 1 ≤ Library.Integers.maxU64)
    ⟨fun ⟨ht, hn, hs, hl⟩ => ⟨ht, hn, hs, hl⟩, fun ⟨ht, hn, hs, hl⟩ => ⟨ht, hn, hs, hl⟩⟩

end Keys

def advance (env : Env) (c : MetaTxCall) (next : Address → ℕ) : Address → ℕ :=
  if c.Verified d env next then
    Function.update next c.intent.fromAddress (c.intent.nonce + 1)
  else next

/-- An intent that passes its checks carries its account's key, or the account authorises it. -/
def IntentKeyMatches (env : Env) (next : Address → ℕ) (c : MetaTxCall) : Prop :=
  c.Verified d env next → c.signerPubkey = keyOf c.intent.fromAddress ∨
    env.authorises d c.intent.fromAddress = true

/-- What is accepted carries the keys of the accounts it speaks for, or they authorise it. -/
structure KeysMatch (s : State) (call : Call) : Prop where
  payments : ∀ m ∈ call.op.signedPayments, m.Verified d call.env s.getMetaNonce →
    m.signerPubkey = keyOf m.payload.sender ∨ call.env.authorises d m.payload.sender = true
  intents : Along (advance d call.env) (IntentKeyMatches d keyOf call.env) s.getNonce
    call.op.signedIntents

variable {d keyOf} {env : Env} {s t v : State} {carried : List MetaTxCall}
  {fresh later : List PaymentIntent}

namespace Earned

lemma idle (hi : Idle s t) : Earned d keyOf env carried s t [] where
  recorded := hi.intents
  nonce account := by simp [hi.getNonce]
  consent := by simp

lemma failed (account : Address) (error : Error) :
    Earned d keyOf env carried s (s.publish (.metaTxFailed account error)) [] where
  recorded := rfl
  nonce _ := rfl
  consent := by simp

lemma settle {c : MetaTxCall} (hm : c ∈ carried) (hc : c.Verified d env s.getNonce)
    (hk : IntentKeyMatches d keyOf env s.getNonce c) :
    Earned d keyOf env carried s (s.settleIntent c.intent) [c.intent] where
  recorded := rfl
  nonce account := by
    rw [State.getNonce_settleIntent, hc.nonce]
    by_cases ha : account = c.intent.fromAddress
    · simp [ha]
    · simp [ha, Ne.symm ha]
  consent intent hi := by
    rw [List.mem_singleton.mp hi]
    rcases hk hc with hkey | hauth
    · refine Or.inr ⟨c, hm, rfl, ?_⟩
      rw [MetaTxCall.Signed, ← hkey]
      exact hc.signature
    · exact Or.inl hauth

lemma trans (hst : Earned d keyOf env carried s t fresh)
    (htv : Earned d keyOf env carried t v later) :
    Earned d keyOf env carried s v (later ++ fresh) where
  recorded := by rw [htv.recorded, hst.recorded, List.append_assoc]
  nonce account := by
    rw [htv.nonce, hst.nonce, List.map_append, List.count_append]
    omega
  consent intent hi := by
    rcases List.mem_append.mp hi with hl | hf
    · exact htv.consent intent hl
    · exact hst.consent intent hf

lemma fold {calls : List MetaTxCall} {results after : List Bool} (hm : ∀ c ∈ calls, c ∈ carried)
    (hk : Along (advance d env) (IntentKeyMatches d keyOf env) s.getNonce calls)
    (hr : Tx.fold (executeTolerant d env) results calls s = .ok (after, t)) :
    ∃ fresh, Earned d keyOf env carried s t fresh := by
  induction calls generalizing results s with
  | nil =>
    obtain ⟨rfl, rfl⟩ := Tx.fold_nil.mp hr
    exact ⟨[], idle (refl_of Idle _)⟩
  | cons c calls ih =>
    obtain ⟨hc, hk⟩ := hk
    obtain ⟨results, v, hv, hr⟩ := Tx.fold_cons.mp hr
    have hm' : ∀ c ∈ calls, c ∈ carried := fun b hb => hm b (by simp [hb])
    rcases executeTolerant_ok hv with ⟨-, hver, rfl⟩ | ⟨error, -, hver, rfl⟩
    · have hnext : (s.settleIntent c.intent).getNonce = advance d env c s.getNonce := by
        rw [State.getNonce_settleIntent, advance, if_pos hver]
      obtain ⟨later, hl⟩ := ih hm' (hnext ▸ hk) hr
      exact ⟨_, (settle (hm c (by simp)) hver hc).trans hl⟩
    · have hnext : (s.publish (.metaTxFailed c.intent.fromAddress error)).getNonce =
          advance d env c s.getNonce := by
        rw [advance, if_neg hver]
        rfl
      obtain ⟨later, hl⟩ := ih hm' (hnext ▸ hk) hr
      exact ⟨_, (failed _ error).trans hl⟩

end Earned

lemma fold_getMetaNonce {calls : List MetaTxCall} {results after : List Bool}
    (hr : Tx.fold (executeTolerant d env) results calls s = .ok (after, t)) :
    t.getMetaNonce = s.getMetaNonce := by
  refine Tx.Ensures.fold (I := fun _ v => v.getMetaNonce = s.getMetaNonce)
    (fun results c _ u outcome v hu hv => ?_) s after t rfl hr
  rcases executeTolerant_ok hv with ⟨-, -, rfl⟩ | ⟨error, -, -, rfl⟩
  · exact hu
  · exact hu

section Steps

variable {call : Call}

lemma authorised_of_eq (he : step d call s = s) : Authorised d keyOf s call where
  intents := ⟨[], by rw [he]; exact .idle (refl_of Idle s)⟩
  metaNonce account hn := absurd (congrFun (congrArg State.getMetaNonce he) account) hn
  balance _ _ _ _ _ token := by rw [he]

lemma MetaCall.Verified.consent {m : MetaCall} (hm : m.Verified d env s.getMetaNonce)
    (hk : m.signerPubkey = keyOf m.payload.sender ∨ env.authorises d m.payload.sender = true) :
    env.authorises d m.payload.sender = true ∨ m.Signed d keyOf := by
  rcases hk with hkey | hauth
  · refine Or.inr ?_
    rw [MetaCall.Signed, ← hkey]
    exact hm.signature
  · exact Or.inl hauth

lemma KeysMatch.authorised (hk : KeysMatch d keyOf s call) : Authorised d keyOf s call := by
  obtain ⟨env, op⟩ := call
  rcases step_cases d ⟨env, op⟩ s with he | hr
  · exact authorised_of_eq he
  generalize ht : step d ⟨env, op⟩ s = t at hr
  cases Op.invoke_effect hr with
  | idle hp hi hid =>
    refine ⟨⟨[], ht ▸ .idle hid⟩, fun account hn => ?_, by simp [hp]⟩
    rw [ht, hid.getMetaNonce] at hn
    exact absurd rfl hn
  | payment m hp hi hm tokens hs hb =>
    have hcons := hm.consent (hk.payments m (by simp [hp]) hm)
    refine ⟨⟨[], ?_⟩, fun account hn => ?_, fun m' hm' account ha hsig token => ?_⟩
    · rw [ht, hs]
      exact ⟨rfl, fun _ => rfl, by simp⟩
    · rw [ht, hs, State.getMetaNonce_settlePayment] at hn
      have hacc : account = m.payload.sender := by
        by_contra hne
        simp [hne] at hn
      subst hacc
      exact hcons.imp id fun hsig => ⟨m, by simp [hp], rfl, hsig⟩
    · obtain rfl : m' = m := by simpa [hp] using hm'
      rw [ht, hs]
      refine hb account (fun hacc => ?_) token
      subst hacc
      rcases hcons with hauth | hsigned
      · exact absurd hauth (by simp [ha])
      · exact hsig rfl hsigned
  | intent c hp hi hc hid =>
    have hcm : IntentKeyMatches d keyOf env s.getNonce c := by
      simpa [hi] using hk.intents
    have hm : c ∈ op.signedIntents := by simp [hi]
    have hset := Earned.settle hm hc hcm
    refine ⟨⟨_, ht ▸ hset.trans (.idle hid)⟩, fun account hn => ?_, by simp [hp]⟩
    rw [ht, hid.getMetaNonce] at hn
    exact absurd rfl hn
  | batch calls results hbr =>
    obtain ⟨fresh, hf⟩ := Earned.fold (fun _ hc => hc) hk.intents hbr
    refine ⟨⟨fresh, ht ▸ hf⟩, fun account hn => ?_, by simp [Op.signedPayments]⟩
    rw [ht, fold_getMetaNonce hbr] at hn
    exact absurd rfl hn

end Steps

/-- In a run whose signed calls carry the keys of the accounts they speak for, none of them acts
for an account that has not consented. -/
theorem proxy_calls_authorised (d : Deployment) (keyOf : Address → PublicKey)
    (tokens : Ledger Address Address) (calls : List Call)
    (hk : Along (step d) (KeysMatch d keyOf) (State.fresh tokens) calls) :
    Along (step d) (Authorised d keyOf) (State.fresh tokens) calls :=
  along_mono (fun _ _ hk => hk.authorised) hk

section Examples

def sampleDeployment : Deployment := { Host.sample with }

def sampleKey (a : Address) : PublicKey := ⟨a.id⟩

def allowed : List Call :=
  [⟨{}, .outside (.mint ⟨20⟩ ⟨2⟩ 100)⟩, ⟨{}, .outside (.approve ⟨20⟩ ⟨2⟩ ⟨0⟩ 100)⟩]

def spend (key : ℕ) : Call :=
  ⟨{ accepts := fun _ => true },
    .executeMetaPayment ⟨0, 0, ⟨2⟩, ⟨3⟩, ⟨20⟩, 100, 0, ⟨3⟩⟩ ⟨key⟩ ⟨key⟩⟩

def instruct (key : ℕ) : Call :=
  ⟨{}, .executePaymentIntent ⟨key⟩ ⟨⟨2⟩, ⟨3⟩, 100, 0, 0, 0⟩ ⟨key⟩⟩

def emptyTokens : Ledger Address Address := ⟨fun _ _ => 0, fun _ _ _ => 0⟩

theorem proxy_calls_authorised_own_key :
    Along (step sampleDeployment) (Authorised sampleDeployment sampleKey)
      (State.fresh emptyTokens) (allowed ++ [spend 2, instruct 2]) := by
  refine proxy_calls_authorised sampleDeployment sampleKey emptyTokens _
    ⟨?_, ?_, ?_, ?_, trivial⟩
  · exact ⟨fun m hm => (nomatch hm), trivial⟩
  · exact ⟨fun m hm => (nomatch hm), trivial⟩
  · refine ⟨fun m hm _ => ?_, trivial⟩
    rw [List.mem_singleton.mp hm]
    exact Or.inl rfl
  · exact ⟨fun m hm => (nomatch hm), fun _ => Or.inl rfl, trivial⟩

/-- Whoever holds the key `⟨3⟩` spends what `⟨2⟩` has allowed the proxy, and its nonces. -/
theorem proxy_keys_unbound :
    ¬ Along (step sampleDeployment) (Authorised sampleDeployment sampleKey)
        (State.fresh emptyTokens) (allowed ++ [spend 3]) ∧
      ¬ Along (step sampleDeployment) (Authorised sampleDeployment sampleKey)
        (State.fresh emptyTokens) [instruct 3] := by
  constructor
  · rintro ⟨-, -, hs, -⟩
    have hle := hs.balance _ (List.mem_singleton.mpr rfl) ⟨2⟩ rfl (fun _ => by decide) ⟨20⟩
    revert hle
    decide
  · rintro ⟨hs, -⟩
    obtain ⟨fresh, hf⟩ := hs.intents
    have hrec : [⟨⟨2⟩, ⟨3⟩, 100, 0, 0, 0⟩] = fresh ++ [] := hf.recorded
    rw [List.append_nil] at hrec
    rcases hf.consent _ (hrec ▸ List.mem_singleton.mpr rfl) with hauth | ⟨c, hc, -, hsig⟩
    · exact absurd hauth (by decide)
    · rw [List.mem_singleton.mp hc] at hsig
      exact absurd hsig (by decide)

end Examples

end StellarTags.Proxy
