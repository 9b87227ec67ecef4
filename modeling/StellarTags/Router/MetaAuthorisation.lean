import StellarTags.Router.Custody

/-! A signed payment spends its sender's tokens on the word of whichever key it names. -/

namespace StellarTags.Router

open Library.Transactions Library.Integers Library.Runs Library.Tokens Soroban

structure MetaCall where
  payment : Payment
  signerPubkey : PublicKey
  nonce : ℕ
  deadline : ℕ
  signature : Signature

namespace MetaCall

def op (m : MetaCall) : Op :=
  .route (.routePaymentMeta m.payment m.signerPubkey m.nonce m.deadline m.signature)

def message (m : MetaCall) (h : Host) : Bytes :=
  buildMetaMessage h m.payment.sender m.signerPubkey m.payment.recipient m.payment.tokenAddress
    m.payment.amount m.nonce m.deadline

/-- The checks up to the signature, and the signature itself, go through. -/
structure Verified (m : MetaCall) (h : Host) (env : Env) (s : State) : Prop where
  free : s.traffic.reentrancyGuard = false
  unfrozen : s.settings.isFrozenInternal = false
  running : s.settings.isPausedInternal = false
  treasury : s.settings.platformTreasury.isSome
  feeBps : s.settings.feeBps.isSome
  feeCap : s.settings.feeCap.isSome
  inTime : env.timestamp ≤ m.deadline
  nonce : s.traffic.metaNonceOf m.payment.sender = m.nonce
  signature : h.ed25519Verify m.signerPubkey (m.message h) m.signature = true

end MetaCall

variable {h : Host} {cfg : Settings} {env : Env} {s : State}

lemma MetaCall.verified (m : MetaCall) {t : State} {u : Unit}
    (hr : m.op.invoke h env s = .ok (u, t)) : m.Verified h env s := by
  simp only [op, Op.invoke, routing_ok, RoutingOp.invoke] at hr
  obtain ⟨v, hr, -⟩ := hr
  simp [routePaymentMeta, withGuard, requireOpen, requireNotFullyHalted,
    Settings.loadFeeConfig] at hr
  obtain ⟨hg, _, ⟨⟨hf, hp⟩, treasury, bps, cap, ⟨ht, hb, hc⟩, hd, hn, hv, -⟩, -⟩ := hr
  exact ⟨hg, hf, hp, by simp [ht], by simp [hb], by simp [hc], hd, hn, hv⟩

section Balances

variable {account sender recipient token tokenAddress platformTreasury : Address}
  {least : Address → ℤ} {amount feeBps feeCap remainder : ℤ}
  {call toRecipient toRouter : TokenCall Address Address}

/-- The account holds at least so much of each token. -/
def Traffic.Leaves (account : Address) (least : Address → ℤ) (t : Traffic) : Prop :=
  ∀ token, least token ≤ t.tokens.balance token account

open Traffic

lemma Traffic.Leaves.quiet {t v : Traffic} (ht : t.Leaves account least) (hq : Quiet t v) :
    v.Leaves account least := by
  intro token
  rw [hq.tokens]
  exact ht token

lemma tryToken_leaves (hc : call.payer ≠ some account) :
    Tx.Ensures (Leaves account least) (tryToken h env call) fun _ => Leaves account least := by
  refine (tryToken_ensures (Q := Leaves account least) (fun _ _ hq ht => ht.quiet hq)
    (fun _ _ ht => ht) fun t ledger ht hl token => ?_).mono (fun _ ht => ht) fun done t ht => ?_
  · exact (ht token).trans (Ledger.apply_payer hc hl token)
  · cases done <;> simpa using ht

lemma deliver_leaves (hrec : toRecipient.payer ≠ some account)
    (hrouter : toRouter.payer ≠ some account) :
    Tx.Ensures (Leaves account least) (deliver h env sender tokenAddress remainder toRecipient
      toRouter) fun _ => Leaves account least := by
  refine .whenever (fun _ => ?_) fun _ _ ht => ht
  refine .bind (tryToken_leaves hrec) fun delivered => .whenever (fun _ => ?_) fun _ _ ht => ht
  refine .bind (tryToken_leaves hrouter) fun held => .reject fun _ => ?_
  exact .read fun balance => checkedI128_ensures (.update fun t ht => ht.1)

lemma processSinglePaymentNoAuth_leaves (hs : account ≠ sender) :
    Tx.Ensures (Leaves account least) (processSinglePaymentNoAuth h cfg env sender recipient
      tokenAddress amount platformTreasury feeBps feeCap) fun _ => Leaves account least := by
  have hq : ∀ s t, Quiet s t → Leaves account least s → Leaves account least t :=
    fun _ _ hq ht => ht.quiet hq
  have hpayer : ∀ target n,
      (TokenCall.transferFrom tokenAddress h.self sender target n).payer ≠ some account := by
    simp [TokenCall.payer, hs.symm]
  refine .reject fun _ => .reject fun _ => .reject fun _ => .reject fun _ => ?_
  refine .pass hq verifyKycForAmount_reads fun _ => .pass hq .accrueUserRecord fun userVolume => ?_
  refine .pass hq (.read _) fun balance => .reject fun _ => ?_
  refine .pass hq (.read _) fun allowance => .reject fun _ => checkedI128_ensures ?_
  refine .bind (Q := fun _ => Leaves account least) (.whenever (fun _ => ?_) fun _ _ ht => ht)
    fun _ => deliver_leaves (hpayer _ _) (hpayer _ _)
  exact .bind (tryToken_leaves (hpayer _ _)) fun paid => .of_reject fun _ _ ht => ht

lemma routePaymentMeta_leaves (m : MetaCall) (hs : account ≠ m.payment.sender) :
    Tx.Ensures (Leaves account least) (routePaymentMeta h cfg env m.payment m.signerPubkey m.nonce
      m.deadline m.signature) fun _ => Leaves account least := by
  have hq : ∀ s t, Quiet s t → Leaves account least s → Leaves account least t :=
    fun _ _ hq ht => ht.quiet hq
  refine withGuard_ensures hq (fun _ => hq) (.pass hq .requireOpen fun _ => ?_)
  refine .pass hq loadFeeConfig_reads fun fees => .reject fun _ => ?_
  refine .pass hq (.read _) fun stored => .reject fun _ => .demand fun _ => ?_
  refine .pass hq (.bind (.demand _) fun _ => .pure _) fun next => ?_
  refine .pass hq (.update fun _ => ⟨rfl, rfl, rfl⟩) fun _ => ?_
  exact processSinglePaymentNoAuth_leaves hs

lemma step_leaves (m : MetaCall) (hs : account ≠ m.payment.sender) :
    s.traffic.tokens.balance token account ≤
      (step h ⟨env, m.op⟩ s).traffic.tokens.balance token account := by
  rcases step_cases h ⟨env, m.op⟩ s with he | hr
  · rw [he]
  · simp only [MetaCall.op, Op.invoke, routing_ok, RoutingOp.invoke] at hr
    obtain ⟨v, hr, ht⟩ := hr
    simp only [MetaCall.op, ht]
    have hkeep : s.traffic.Leaves account fun k => s.traffic.tokens.balance k account :=
      fun _ => le_rfl
    exact routePaymentMeta_leaves m hs _ _ _ hkeep hr token

end Balances

section Runs

variable (h : Host) (keyOf : Address → PublicKey)

/-- A signed payment that gets past its checks names its sender's key, or its sender consents. -/
def KeysMatch (s : State) (call : Call) : Prop :=
  ∀ m : MetaCall, call.op = m.op → m.Verified h call.env s →
    m.signerPubkey = keyOf m.payment.sender ∨ call.env.authorises h m.payment.sender = true

/-- A signed payment that succeeds was verified under its sender's key or authorised by its sender,
and takes nothing from an account that neither consents nor has its key on the signature. -/
def MetaSound (s : State) (call : Call) : Prop :=
  ∀ m : MetaCall, call.op = m.op →
    (Tx.succeeds (call.op.invoke h call.env) s = true →
      m.signerPubkey = keyOf m.payment.sender ∨
        call.env.authorises h m.payment.sender = true) ∧
    ∀ account, call.env.authorises h account = false →
      h.ed25519Verify (keyOf account) (m.message h) m.signature = false →
      ∀ token, s.traffic.tokens.balance token account ≤
        (step h call s).traffic.tokens.balance token account

variable {h keyOf}

lemma KeysMatch.metaSound {call : Call} (hk : KeysMatch h keyOf s call) :
    MetaSound h keyOf s call := by
  obtain ⟨env, op⟩ := call
  rintro m rfl
  refine ⟨fun hr => ?_, fun account ha hv token => ?_⟩
  · obtain ⟨u, hr⟩ := Tx.succeeds_iff.mp hr
    exact hk m rfl (m.verified hr)
  · by_cases hs : account = m.payment.sender
    · subst hs
      rcases step_cases h ⟨env, m.op⟩ s with he | hr
      · rw [he]
      · have hm := m.verified hr
        rcases hk m rfl hm with hkey | hauth
        · exact absurd (hkey ▸ hm.signature) (by simp [hv])
        · exact absurd hauth (by simp [ha])
    · exact step_leaves m hs

/-- In a run whose signed payments carry their senders' keys, no signed payment steals. -/
theorem meta_payments_sound (h : Host) (keyOf : Address → PublicKey)
    (tokens : Ledger Address Address) (calls : List Call)
    (hk : Along (step h) (KeysMatch h keyOf) (State.fresh tokens) calls) :
    Along (step h) (MetaSound h keyOf) (State.fresh tokens) calls :=
  along_mono (fun _ _ hk => hk.metaSound) hk

end Runs

section Examples

def sampleKey (a : Address) : PublicKey := ⟨a.id⟩

def allowed : List Call :=
  [⟨signedBy [⟨1⟩], .administer (.initializeRouter ⟨1⟩ ⟨9⟩ 0 0 1000)⟩,
    ⟨{}, .outside (.mint ⟨20⟩ ⟨2⟩ 100)⟩,
    ⟨{}, .outside (.approve ⟨20⟩ ⟨2⟩ ⟨0⟩ 100)⟩]

def spend (key : ℕ) : MetaCall := ⟨⟨⟨2⟩, ⟨3⟩, ⟨20⟩, 100⟩, ⟨key⟩, 0, 0, ⟨key⟩⟩

def relay (m : MetaCall) : Call := ⟨{ reply := fun _ => { accepts := true } }, m.op⟩

theorem meta_payments_sound_own_key :
    Along (step .sample) (MetaSound .sample sampleKey) (State.fresh emptyLedger)
      (allowed ++ [relay (spend 2)]) := by
  refine meta_payments_sound .sample sampleKey emptyLedger (allowed ++ [relay (spend 2)]) ?_
  refine ⟨fun m hm => (nomatch hm), fun m hm => (nomatch hm), fun m hm => (nomatch hm), ?_, trivial⟩
  rintro ⟨payment, signerPubkey, nonce, deadline, signature⟩ hm -
  obtain ⟨rfl, rfl, -⟩ : (spend 2).payment = payment ∧ (spend 2).signerPubkey = signerPubkey ∧ _ := by
    simpa [relay, MetaCall.op] using hm
  exact Or.inl rfl

/-- Whoever holds the key `⟨3⟩` spends what `⟨2⟩` has allowed the router. -/
theorem meta_payment_steals :
    ¬ Along (step .sample) (MetaSound .sample sampleKey) (State.fresh emptyLedger)
      (allowed ++ [relay (spend 3)]) := by
  rintro ⟨-, -, -, hs, -⟩
  have hle := (hs (spend 3) rfl).2 ⟨2⟩ rfl rfl ⟨20⟩
  revert hle
  decide

end Examples

end StellarTags.Router
