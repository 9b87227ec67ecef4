import StellarTags.Proxy.Authorisation

/-! Which tolerant batches keep their items apart: those that the host's signature check never ends. -/

namespace StellarTags.Proxy

open Library.Transactions Library.Integers Library.Runs Soroban

variable (d : Deployment) (env : Env)

/-- An item on its own: one that fails changes nothing. -/
def settle (c : MetaTxCall) (s : State) : State := Tx.commit (executeSingleMetaTx d env c) s

def outcome (s : State) (c : MetaTxCall) : Bool := Tx.succeeds (executeSingleMetaTx d env c) s

/-- All but the events of failed items is the same. -/
structure SameRecords (s t : State) : Prop where
  storage : t = { s with history := t.history }
  payments : t.payments = s.payments
  intents : t.intents = s.intents

/-- The batch succeeds, reports each item as it does alone after the successful ones before it, and
leaves behind what the successful ones do. -/
def Isolated (s : State) (calls : List MetaTxCall) : Prop :=
  ∃ t, executeBatchTolerant d env calls s =
      .ok (trace (settle d env) (fun s c => [outcome d env s c]) s calls, t) ∧
    SameRecords (run (settle d env) s calls) t

/-- If the item's signature is looked at, it verifies. -/
def Genuine (next : Address → ℕ) (c : MetaTxCall) : Prop :=
  env.timestamp ≤ c.intent.deadline → c.intent.nonce = next c.intent.fromAddress →
    d.ed25519Verify c.signerPubkey (intentDigest d c.intent) c.signature = true

variable {d env} {s t : State} {c : MetaTxCall} {calls : List MetaTxCall} {results : List Bool}

lemma SameRecords.refl (s : State) : SameRecords s s := ⟨rfl, rfl, rfl⟩

lemma SameRecords.getNonce (h : SameRecords s t) : t.getNonce = s.getNonce := by
  rw [h.storage]
  rfl

lemma SameRecords.settleIntent (h : SameRecords s t) (intent : PaymentIntent) :
    SameRecords (s.settleIntent intent) (t.settleIntent intent) where
  storage := by
    rw [h.storage]
    rfl
  payments := by simp [h.payments]
  intents := by simp [h.intents]

lemma SameRecords.failed (h : SameRecords s t) (account : Address) (error : Error) :
    SameRecords s (t.publish (.metaTxFailed account error)) where
  storage := by
    rw [h.storage]
    rfl
  payments := by simp [h.payments]
  intents := by simp [h.intents]

lemma outcome_verified : outcome d env s c = true ↔ c.Verified d env s.getNonce := by
  rw [outcome, Tx.succeeds_unit]
  simp only [executeSingleMetaTx_ok]
  exact ⟨fun ⟨_, h, _⟩ => h, fun h => ⟨_, h, rfl⟩⟩

lemma settle_verified (h : c.Verified d env s.getNonce) :
    settle d env c s = s.settleIntent c.intent :=
  Tx.commit_ok (executeSingleMetaTx_ok (u := ()).mpr ⟨h, rfl⟩)

lemma settle_refused (h : ¬ c.Verified d env s.getNonce) : settle d env c s = s :=
  Tx.commit_of_fails (Bool.eq_false_iff.mpr fun hs => h (outcome_verified.mp hs))

/-- An item that is late, out of turn or at the last nonce returns its error; so does a bad signature
in a test build. -/
lemma executeSingleMetaTx_error (h : ¬ c.Verified d env s.getNonce)
    (hgenuine : d.testutils = true ∨ Genuine d env s.getNonce c) :
    ∃ error, executeSingleMetaTx d env c s = .error (.err error) := by
  rw [executeSingleMetaTx, executePaymentIntent]
  by_cases hdeadline : c.intent.deadline < env.timestamp
  · refine ⟨.deadlineExpired, Tx.bind_of_error ?_⟩
    rw [verifyPaymentIntentInternal, Tx.reject_bind, if_pos hdeadline]
  by_cases hnonce : c.intent.nonce = s.getNonce c.intent.fromAddress
  · by_cases hsignature : d.ed25519Verify c.signerPubkey (intentDigest d c.intent) c.signature = true
    · have hverified : verifyPaymentIntentInternal d env c.signerPubkey c.intent c.signature s =
          .ok ((), s) := by
        simp [verifyPaymentIntentInternal, not_lt.mp hdeadline, hnonce, hsignature]
      refine ⟨.invalidNonce, ?_⟩
      rw [Tx.bind_of_ok hverified, Tx.reject_bind, if_pos]
      by_contra hleft
      exact h ⟨not_lt.mp hdeadline, hnonce, hsignature, not_lt.mp hleft⟩
    · rcases hgenuine with hbuild | hgenuine
      · refine ⟨.invalidSignature, Tx.bind_of_error ?_⟩
        rw [verifyPaymentIntentInternal, Tx.reject_bind, if_neg hdeadline, Tx.read_bind,
          Tx.reject_bind, if_neg (not_not.mpr hnonce), checkSignature, if_pos hbuild, Tx.reject,
          if_pos (Bool.eq_false_iff.mpr hsignature)]
        rfl
      · exact absurd (hgenuine (not_lt.mp hdeadline) hnonce) hsignature
  · refine ⟨.invalidNonce, Tx.bind_of_error ?_⟩
    rw [verifyPaymentIntentInternal, Tx.reject_bind, if_neg hdeadline, Tx.read_bind,
      Tx.reject_bind, if_pos hnonce]

lemma executeSingleMetaTx_trap (hbuild : d.testutils = false) (h : ¬ Genuine d env s.getNonce c) :
    executeSingleMetaTx d env c s = .error .trap := by
  simp only [Genuine, not_forall] at h
  obtain ⟨hdeadline, hnonce, hsignature⟩ := h
  rw [executeSingleMetaTx, executePaymentIntent]
  apply Tx.bind_of_error
  rw [verifyPaymentIntentInternal, Tx.reject_bind, if_neg (not_lt.mpr hdeadline), Tx.read_bind,
    Tx.reject_bind, if_neg (not_not.mpr hnonce), checkSignature, if_neg (by simp [hbuild]),
    Tx.demand, if_neg hsignature]
  rfl

section Items

variable (results)

lemma executeTolerant_verified (h : c.Verified d env s.getNonce) :
    executeTolerant d env results c s = .ok (results ++ [true], s.settleIntent c.intent) := by
  have hsingle : executeSingleMetaTx d env c s = .ok ((), s.settleIntent c.intent) :=
    executeSingleMetaTx_ok.mpr ⟨h, rfl⟩
  rw [executeTolerant, Tx.bind_of_ok (Tx.attempt_ok.mpr (Or.inl ⟨(), rfl, hsingle⟩))]
  rfl

lemma executeTolerant_refused (h : ¬ c.Verified d env s.getNonce)
    (hgenuine : d.testutils = true ∨ Genuine d env s.getNonce c) :
    ∃ error, executeTolerant d env results c s =
      .ok (results ++ [false], s.publish (.metaTxFailed c.intent.fromAddress error)) := by
  obtain ⟨error, hsingle⟩ := executeSingleMetaTx_error h hgenuine
  refine ⟨error, ?_⟩
  rw [executeTolerant, Tx.bind_of_ok (Tx.attempt_ok.mpr (Or.inr ⟨error, rfl, hsingle, rfl⟩))]
  rfl

lemma executeTolerant_trap (hbuild : d.testutils = false) (h : ¬ Genuine d env s.getNonce c) :
    executeTolerant d env results c s = .error .trap := by
  apply Tx.bind_of_error
  rw [Tx.attempt, executeSingleMetaTx_trap hbuild h]

end Items

lemma settle_nonces : (settle d env c s).getNonce = advance d env c s.getNonce := by
  by_cases h : c.Verified d env s.getNonce
  · rw [settle_verified h, State.getNonce_settleIntent, advance, if_pos h]
  · rw [settle_refused h, advance, if_neg h]

/-- As long as no signature check ends the batch, its items keep step with the items alone. -/
lemma fold_isolated (results : List Bool) (hst : SameRecords s t)
    (h : d.testutils = true ∨ Along (advance d env) (Genuine d env) s.getNonce calls) :
    ∃ v, Tx.fold (executeTolerant d env) results calls t =
        .ok (results ++ trace (settle d env) (fun s c => [outcome d env s c]) s calls, v) ∧
      SameRecords (run (settle d env) s calls) v := by
  induction calls generalizing results s t with
  | nil => exact ⟨t, by rw [trace, List.append_nil]; rfl, hst⟩
  | cons c calls ih =>
    have hfirst : d.testutils = true ∨ Genuine d env t.getNonce c := by
      rw [hst.getNonce]
      exact h.imp_right And.left
    have hrest : d.testutils = true ∨
        Along (advance d env) (Genuine d env) (settle d env c s).getNonce calls := by
      rw [settle_nonces]
      exact h.imp_right And.right
    rw [run_cons, trace, ← List.append_assoc]
    by_cases hverified : c.Verified d env s.getNonce
    · have hitem := executeTolerant_verified results (hst.getNonce ▸ hverified)
      rw [Tx.fold, Tx.bind_of_ok hitem, outcome_verified.mpr hverified]
      apply ih _ _ hrest
      rw [settle_verified hverified]
      exact hst.settleIntent c.intent
    · obtain ⟨error, hitem⟩ :=
        executeTolerant_refused results (hst.getNonce ▸ hverified) hfirst
      have hfails : outcome d env s c = false :=
        Bool.eq_false_iff.mpr fun hs => hverified (outcome_verified.mp hs)
      rw [Tx.fold, Tx.bind_of_ok hitem, hfails]
      apply ih _ _ hrest
      rw [settle_refused hverified]
      exact hst.failed c.intent.fromAddress error

/-- Wherever it stands, an item with a bad signature takes the whole batch with it. -/
lemma fold_aborts (hbuild : d.testutils = false)
    (h : ¬ Along (advance d env) (Genuine d env) s.getNonce calls) :
    Tx.fold (executeTolerant d env) results calls s = .error .trap := by
  induction calls generalizing results s with
  | nil => exact absurd trivial h
  | cons c calls ih =>
    rw [Tx.fold]
    by_cases hgenuine : Genuine d env s.getNonce c
    · have hrest : ¬ Along (advance d env) (Genuine d env) (settle d env c s).getNonce calls := by
        rw [settle_nonces]
        exact fun hrest => h ⟨hgenuine, hrest⟩
      by_cases hverified : c.Verified d env s.getNonce
      · rw [Tx.bind_of_ok (executeTolerant_verified results hverified)]
        rw [settle_verified hverified] at hrest
        exact ih hrest
      · obtain ⟨error, hitem⟩ := executeTolerant_refused results hverified (Or.inr hgenuine)
        rw [Tx.bind_of_ok hitem]
        rw [settle_refused hverified] at hrest
        exact ih hrest
    · exact Tx.bind_of_error (executeTolerant_trap results hbuild hgenuine)

/-- A production build keeps the items apart if and only if every signature that is looked at
verifies; a test build does in any case. -/
theorem batch_isolated_iff (d : Deployment) (env : Env) (s : State) (calls : List MetaTxCall) :
    Isolated d env s calls ↔
      d.testutils = true ∨ Along (advance d env) (Genuine d env) s.getNonce calls := by
  constructor
  · rintro ⟨t, hbatch, -⟩
    cases hbuild : d.testutils with
    | true => exact Or.inl rfl
    | false =>
      refine Or.inr (by_contra fun h => ?_)
      rw [executeBatchTolerant, fold_aborts hbuild h] at hbatch
      cases hbatch
  · intro h
    obtain ⟨t, hbatch, hsame⟩ := fold_isolated [] (SameRecords.refl s) h
    exact ⟨t, hbatch, hsame⟩

section Examples

/-- Two accounts' intents, the second with another key's signature. -/
def mixed : List MetaTxCall :=
  [⟨⟨2⟩, ⟨⟨2⟩, ⟨3⟩, 100, 0, 0, 0⟩, ⟨2⟩⟩, ⟨⟨4⟩, ⟨⟨4⟩, ⟨3⟩, 100, 0, 0, 0⟩, ⟨5⟩⟩]

/-- The first would succeed alone, and the second fail; together they do not go through at all. -/
theorem batch_aborts_on_signature :
    sampleDeployment.testutils = false ∧
    trace (settle sampleDeployment {}) (fun s c => [outcome sampleDeployment {} s c])
      (State.fresh emptyTokens) mixed = [true, false] ∧
    executeBatchTolerant sampleDeployment {} mixed (State.fresh emptyTokens) = .error .trap ∧
    ¬ Isolated sampleDeployment {} (State.fresh emptyTokens) mixed := by
  have habort : executeBatchTolerant sampleDeployment {} mixed (State.fresh emptyTokens) =
      .error .trap := by
    apply fold_aborts rfl
    rintro ⟨-, h, -⟩
    exact absurd (h (by decide) (by decide)) (by decide)
  refine ⟨rfl, by decide, habort, ?_⟩
  rintro ⟨t, hbatch, -⟩
  rw [habort] at hbatch
  cases hbatch

end Examples

end StellarTags.Proxy
