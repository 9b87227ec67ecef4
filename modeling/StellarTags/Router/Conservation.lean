import StellarTags.Router.Checks
import StellarTags.Router.FeeBounds

/-! Where the money of direct and signed payments goes. -/

namespace StellarTags.Router

open Library.Transactions Library.Integers Library.Tokens Soroban

/-- What a payment was charged, and whether the router holds its share as a refund. -/
structure Receipt where
  payment : Payment
  rate : ℤ
  fee : ℤ
  held : Bool

namespace Receipt

variable (r : Receipt)

def share : ℤ := r.payment.amount - r.fee

def payee (h : Host) : Address := if r.held = true then h.self else r.payment.recipient

/-- What the payment adds to a balance: all of it from the sender, the fee to the treasury and the
share to the payee, whoever of them coincide. -/
def flow (h : Host) (platformTreasury token account : Address) : ℤ :=
  if token = r.payment.tokenAddress then
    (if account = r.payment.sender then -r.payment.amount else 0) +
      (if account = platformTreasury then r.fee else 0) +
      (if account = r.payee h then r.share else 0)
  else 0

def refund (user token : Address) : ℤ :=
  if r.held = true ∧ r.payment.sender = user ∧ r.payment.tokenAddress = token then r.share else 0

/-- The fee is the one its formula gives at the full or at the halved rate. -/
structure Fair (feeOf : ℤ → ℤ → ℤ → ℤ) (feeBps feeCap : ℤ) (r : Receipt) : Prop where
  rate : r.rate = feeBps ∨ r.rate = feeBps.tdiv 2
  fee : r.fee = feeOf r.payment.amount r.rate feeCap
  nonneg : 0 ≤ r.fee
  bounded : r.fee ≤ min r.payment.amount feeCap

end Receipt

/-- The receipts account for all that moved. -/
structure Conserves (h : Host) (platformTreasury : Address) (receipts : List Receipt)
    (s t : Traffic) : Prop where
  balance : ∀ token account, t.tokens.balance token account = s.tokens.balance token account +
    (receipts.map fun r => r.flow h platformTreasury token account).sum
  refund : ∀ user token, t.refund user token = s.refund user token +
    (receipts.map fun r => r.refund user token).sum

/-- The payments of an operation that settles them without a DEX or a maker. -/
def RoutingOp.directPayments : RoutingOp → Option (List Payment)
  | .routePayment payment | .routePaymentMeta payment _ _ _ _ => some [payment]
  | .routePayments payments => some payments
  | _ => none

def RoutingOp.feeOf : RoutingOp → ℤ → ℤ → ℤ → ℤ
  | .routePaymentMeta _ _ _ _ _ => signedFee
  | _ => directFee

variable {h : Host} {cfg : Settings} {env : Env} {s t v : Traffic} {u : Unit}
  {platformTreasury : Address} {feeBps feeCap : ℤ} {payment : Payment} {payments : List Payment}
  {receipts more : List Receipt} {feeOf : ℤ → ℤ → ℤ → ℤ}

namespace Conserves

lemma quiet (hq : Quiet s t) : Conserves h platformTreasury [] s t := by
  refine ⟨fun token account => ?_, fun user token => ?_⟩
  · simp [hq.tokens]
  · simp [Traffic.refund, hq.refunds]

lemma trans (hs : Conserves h platformTreasury receipts s t)
    (ht : Conserves h platformTreasury more t v) :
    Conserves h platformTreasury (receipts ++ more) s v := by
  refine ⟨fun token account => ?_, fun user token => ?_⟩
  · rw [ht.balance, hs.balance, List.map_append, List.sum_append, add_assoc]
  · rw [ht.refund, hs.refund, List.map_append, List.sum_append, add_assoc]

lemma after_quiet (hq : Quiet s t) (ht : Conserves h platformTreasury receipts t v) :
    Conserves h platformTreasury receipts s v := (quiet hq).trans ht

lemma then_quiet (hs : Conserves h platformTreasury receipts s t) (hq : Quiet t v) :
    Conserves h platformTreasury receipts s v := by
  have hv := hs.trans (quiet hq)
  rwa [List.append_nil] at hv

lemma of_posts {r : Receipt} {ask : Address → ℤ → TokenCall Address Address}
    (hf : 0 ≤ r.fee) (hle : r.fee ≤ r.payment.amount)
    (ha : ∀ target n token account, (ask target n).flow token account =
      (TokenCall.transfer r.payment.tokenAddress r.payment.sender target n).flow token account)
    (hp : Posts (paymentEvents h ask r.payment.sender r.payment.recipient r.payment.tokenAddress
      platformTreasury r.payment.amount r.fee r.held) s t) :
    Conserves h platformTreasury [r] s t := by
  refine ⟨fun token account => ?_, fun user token => ?_⟩
  · rw [hp.balance, flow_paymentEvents hf hle fun target n => ha target n token account]
    rw [List.map_singleton, List.sum_singleton]
    rfl
  · rw [hp.refund, claim_paymentEvents hle]
    rw [List.map_singleton, List.sum_singleton]
    rfl

end Conserves

section Payments

lemma rate_cases {sender : Address} : s.rate env sender feeBps = feeBps ∨
    s.rate env sender feeBps = feeBps.tdiv 2 := by
  unfold Traffic.rate effectiveFeeBps
  split_ifs
  · exact Or.inr rfl
  · exact Or.inl rfl

lemma rate_nonneg (s : Traffic) (env : Env) (sender : Address) (hb : 0 ≤ feeBps) :
    0 ≤ s.rate env sender feeBps :=
  effectiveFeeBps_nonneg hb

lemma processSinglePayment_conserves (ha : 0 < payment.amount) (hb : 0 ≤ feeBps)
    (hc : 0 ≤ feeCap) (hr : processSinglePayment h env payment.sender payment.recipient
      payment.tokenAddress payment.amount platformTreasury feeBps feeCap s = .ok (u, t)) :
    ∃ r : Receipt, r.payment = payment ∧ r.Fair directFee feeBps feeCap ∧
      Conserves h platformTreasury [r] s t := by
  obtain ⟨held, hp⟩ := processSinglePayment_posts hr
  have hf := directFee_nonneg ha (rate_nonneg s env payment.sender hb) hc
  refine ⟨⟨payment, _, _, held⟩, rfl, ⟨rate_cases, rfl, hf, le_min capFee_le capFee_le_cap⟩, ?_⟩
  refine .of_posts hf capFee_le (fun _ _ _ _ => ?_) hp
  rfl

lemma processSinglePaymentNoAuth_conserves (hb : 0 ≤ feeBps) (hc : 0 ≤ feeCap)
    (hr : processSinglePaymentNoAuth h cfg env payment.sender payment.recipient
      payment.tokenAddress payment.amount platformTreasury feeBps feeCap s = .ok (u, t)) :
    ∃ r : Receipt, r.payment = payment ∧ r.Fair signedFee feeBps feeCap ∧
      Conserves h platformTreasury [r] s t := by
  obtain ⟨ha, held, hp⟩ := processSinglePaymentNoAuth_posts hr
  have hf := signedFee_nonneg ha (rate_nonneg s env payment.sender hb) hc
  refine ⟨⟨payment, _, _, held⟩, rfl, ⟨rate_cases, rfl, hf, le_min capFee_le capFee_le_cap⟩, ?_⟩
  refine .of_posts hf capFee_le (fun _ _ _ _ => ?_) hp
  rfl

lemma forEach_conserves (ha : ∀ payment ∈ payments, 0 < payment.amount) (hb : 0 ≤ feeBps)
    (hc : 0 ≤ feeCap) (hr : Tx.forEach (fun payment : Payment =>
      processSinglePayment h env payment.sender payment.recipient payment.tokenAddress
        payment.amount platformTreasury feeBps feeCap) payments s = .ok (u, t)) :
    ∃ receipts : List Receipt, receipts.map Receipt.payment = payments ∧
      (∀ r ∈ receipts, r.Fair directFee feeBps feeCap) ∧
        Conserves h platformTreasury receipts s t := by
  induction payments generalizing s with
  | nil =>
    obtain rfl := Tx.forEach_nil.mp hr
    exact ⟨[], rfl, by simp, .quiet (refl_of Quiet _)⟩
  | cons payment payments ih =>
    obtain ⟨v, hv, hlater⟩ := Tx.forEach_cons.mp hr
    obtain ⟨r, rfl, hfair, hfirst⟩ := processSinglePayment_conserves (ha _ (by simp)) hb hc hv
    obtain ⟨receipts, rfl, hrest, hconserves⟩ := ih (fun p hp => ha p (by simp [hp])) hlater
    refine ⟨r :: receipts, rfl, ?_, hfirst.trans hconserves⟩
    simpa [hfair] using hrest

/-- The settings charge by receipts that account for all that moved. -/
def Settings.Settles (cfg : Settings) (h : Host) (feeOf : ℤ → ℤ → ℤ → ℤ)
    (payments : List Payment) (s t : Traffic) : Prop :=
  ∃ platformTreasury feeBps feeCap receipts, cfg.platformTreasury = some platformTreasury ∧
    cfg.feeBps = some feeBps ∧ cfg.feeCap = some feeCap ∧
    receipts.map Receipt.payment = payments ∧ (∀ r ∈ receipts, r.Fair feeOf feeBps feeCap) ∧
    Conserves h platformTreasury receipts s t

lemma Settings.Settles.between (hm : cfg.Settles h feeOf payments t v) {w : Traffic}
    (hs : Quiet s t) (ht : Quiet v w) : cfg.Settles h feeOf payments s w := by
  obtain ⟨treasury, feeBps, feeCap, receipts, htreasury, hb, hc, hmap, hfair, hmoved⟩ := hm
  exact ⟨treasury, feeBps, feeCap, receipts, htreasury, hb, hc, hmap, hfair,
    .after_quiet hs (hmoved.then_quiet ht)⟩

lemma Settings.Settles.single {fees : Address × ℤ × ℤ} {r : Receipt}
    (hfees : cfg.platformTreasury = some fees.1 ∧ cfg.feeBps = some fees.2.1 ∧
      cfg.feeCap = some fees.2.2) (hr : r.payment = payment)
    (hfair : r.Fair feeOf fees.2.1 fees.2.2) (hc : Conserves h fees.1 [r] s t) :
    cfg.Settles h feeOf [payment] s t :=
  ⟨fees.1, fees.2.1, fees.2.2, [r], hfees.1, hfees.2.1, hfees.2.2, by simp [hr],
    by simpa using hfair, hc⟩

lemma routePayment_settles (hn : cfg.FeesNonnegative)
    (hr : routePayment h cfg env payment s = .ok (u, t)) :
    cfg.Settles h directFee [payment] s t := by
  have ha := (routePayment_shows _ _ _ hr).1.positive
  obtain ⟨s', t', hs, hbody, ht⟩ := withGuard_ok hr
  refine Settings.Settles.between ?_ hs ht
  obtain ⟨_, v, hopen, hbody₁⟩ := Tx.bind_ok.mp hbody
  obtain ⟨_, w, hvalid, hbody₂⟩ := Tx.bind_ok.mp hbody₁
  simp only [requireAuth, Tx.demand_bind_ok] at hbody₂
  obtain ⟨_, x, hlimit, hbody₃⟩ := Tx.bind_ok.mp hbody₂.2
  obtain ⟨fees, y, hload, hbody₄⟩ := Tx.bind_ok.mp hbody₃
  obtain ⟨_, z, hpaid, hbump⟩ := Tx.bind_ok.mp hbody₄
  obtain ⟨htreasury, hb, hc, rfl⟩ := loadFeeConfig_ok hload
  obtain ⟨r, hpay, hfair, hmoved⟩ :=
    processSinglePayment_conserves ha (hn.bps _ hb) (hn.cap _ hc) hpaid
  have hbefore : Quiet s' y := trans_of Quiet (Quiet.requireOpen _ _ _ hopen)
    (trans_of Quiet (Quiet.validatePayment _ _ _ hvalid) (Quiet.checkRateLimit _ _ _ hlimit))
  exact (Settings.Settles.single ⟨htreasury, hb, hc⟩ hpay hfair hmoved).between hbefore
    (Quiet.bumpHeartbeat _ _ _ hbump)

lemma routePayments_settles (hn : cfg.FeesNonnegative)
    (hr : routePayments h cfg env payments s = .ok (u, t)) :
    cfg.Settles h directFee payments s t := by
  have ha := routePayments_shows _ _ _ hr
  obtain ⟨s', t', hs, hbody, ht⟩ := withGuard_ok hr
  refine Settings.Settles.between ?_ hs ht
  obtain ⟨_, v, hopen, hbody₁⟩ := Tx.bind_ok.mp hbody
  obtain ⟨seen, w, hadmit, hbody₂⟩ := Tx.bind_ok.mp hbody₁
  obtain ⟨fees, x, hload, hbody₃⟩ := Tx.bind_ok.mp hbody₂
  obtain ⟨_, y, hfirst, hbody₄⟩ := Tx.bind_ok.mp hbody₃
  obtain ⟨_, z, hpaid, hlast⟩ := Tx.bind_ok.mp hbody₄
  obtain ⟨htreasury, hb, hc, rfl⟩ := loadFeeConfig_ok hload
  obtain ⟨receipts, hmap, hfair, hmoved⟩ := forEach_conserves (fun p hp => (ha p hp).1.positive)
    (hn.bps _ hb) (hn.cap _ hc) hpaid
  have hadmitted : Quiet v x := Tx.Respects.fold (fun _ _ _ => Quiet.admitPayment) _ _ _ hadmit
  have hbefore : Quiet s' y := trans_of Quiet (Quiet.requireOpen _ _ _ hopen)
    (trans_of Quiet hadmitted (Quiet.bumpHeartbeat _ _ _ hfirst))
  have hsettles : cfg.Settles h directFee payments y z :=
    ⟨fees.1, fees.2.1, fees.2.2, receipts, htreasury, hb, hc, hmap, hfair, hmoved⟩
  exact hsettles.between hbefore (Quiet.bumpHeartbeat _ _ _ hlast)

lemma routePaymentMeta_settles (hn : cfg.FeesNonnegative) {signerPubkey : PublicKey}
    {nonce deadline : ℕ} {signature : Signature}
    (hr : routePaymentMeta h cfg env payment signerPubkey nonce deadline signature s =
      .ok (u, t)) : cfg.Settles h signedFee [payment] s t := by
  obtain ⟨s', t', hs, hbody, ht⟩ := withGuard_ok hr
  refine Settings.Settles.between ?_ hs ht
  obtain ⟨_, v, hopen, hbody₁⟩ := Tx.bind_ok.mp hbody
  obtain ⟨fees, w, hload, hbody₂⟩ := Tx.bind_ok.mp hbody₁
  obtain ⟨htreasury, hb, hc, rfl⟩ := loadFeeConfig_ok hload
  simp only [Tx.reject_bind_ok, Tx.read_bind, Tx.demand_bind_ok, addU64_bind_ok,
    Tx.update_bind] at hbody₂
  obtain ⟨-, -, -, -, hpaid⟩ := hbody₂
  obtain ⟨r, hpay, hfair, hmoved⟩ :=
    processSinglePaymentNoAuth_conserves (hn.bps _ hb) (hn.cap _ hc) hpaid
  refine (Settings.Settles.single ⟨htreasury, hb, hc⟩ hpay hfair hmoved).between ?_
    (refl_of Quiet _)
  have hopened := Quiet.requireOpen _ _ _ hopen
  exact ⟨hopened.tokens, hopened.refunds, hopened.journal⟩

end Payments

/-- A direct, batched or signed operation that succeeds debits each payment's sender by the amount,
and hands the fee to the treasury and the rest to the recipient or, against a refund, to the router;
nothing else moves, and nothing at all when it fails. -/
theorem payments_conserved (h : Host) (s : State) (env : Env) (op : RoutingOp)
    (payments : List Payment) (hop : op.directPayments = some payments)
    (hn : s.settings.FeesNonnegative) :
    let t := step h ⟨env, .route op⟩ s
    (Tx.succeeds ((Op.route op).invoke h env) s = false → t = s) ∧
      (Tx.succeeds ((Op.route op).invoke h env) s = true →
        s.settings.Settles h op.feeOf payments s.traffic t.traffic) := by
  refine ⟨fun hf => Tx.commit_of_fails hf, fun hok => ?_⟩
  obtain ⟨_, hr⟩ := Tx.succeeds_iff.mp hok
  obtain ⟨v, hv, ht⟩ := route_ok hr
  change s.settings.Settles h op.feeOf payments s.traffic
    (Tx.commit ((Op.route op).invoke h env) s).traffic
  rw [ht]
  cases op with
  | routePayment payment =>
    obtain rfl := Option.some.inj hop
    exact routePayment_settles hn hv
  | routePayments batch =>
    obtain rfl := Option.some.inj hop
    exact routePayments_settles hn hv
  | routePaymentMeta payment signerPubkey nonce deadline signature =>
    obtain rfl := Option.some.inj hop
    exact routePaymentMeta_settles hn hv
  | _ => cases hop

section Examples

/-- Of the payments of `⟨2⟩` and `⟨3⟩`, the second is refused by its recipient. -/
def batchOfTwo : List Payment := [⟨⟨2⟩, ⟨4⟩, ⟨20⟩, 100⟩, ⟨⟨3⟩, ⟨5⟩, ⟨20⟩, 200⟩]

def payTwo : Env :=
  { signedBy [⟨2⟩, ⟨3⟩] with reply := fun n => { accepts := decide (n ≠ 3) } }

def fundedTwo : State :=
  after .sample emptyLedger
    [⟨signedBy [⟨1⟩], .administer (.initializeRouter ⟨1⟩ ⟨9⟩ 100 1000 1000)⟩,
      ⟨{}, .outside (.mint ⟨20⟩ ⟨2⟩ 100)⟩, ⟨{}, .outside (.mint ⟨20⟩ ⟨3⟩ 200)⟩]

theorem payments_conserved_batch :
    fundedTwo.settings.Settles .sample directFee batchOfTwo fundedTwo.traffic
        (step .sample ⟨payTwo, .route (.routePayments batchOfTwo)⟩ fundedTwo).traffic ∧
      (step .sample ⟨payTwo, .route (.routePayments batchOfTwo)⟩ fundedTwo).traffic.refund
        ⟨3⟩ ⟨20⟩ = 198 := by
  refine ⟨?_, by decide +kernel⟩
  have hbps : fundedTwo.settings.feeBps = some 100 := rfl
  have hcap : fundedTwo.settings.feeCap = some 1000 := rfl
  have hfees := Settings.FeesNonnegative.of_eq hbps hcap (by norm_num) (by norm_num)
  exact (payments_conserved .sample fundedTwo payTwo (.routePayments batchOfTwo) batchOfTwo rfl
    hfees).2 (by decide +kernel)

end Examples

end StellarTags.Router
