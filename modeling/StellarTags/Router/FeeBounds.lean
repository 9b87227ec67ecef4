import StellarTags.Router.Receipts

/-! When a fee stays within the payment it is taken from. -/

namespace StellarTags.Router

open Library.Transactions Library.Integers Library.Tokens Soroban

def Traffic.debited (t : Traffic) (token account : Address) : ℤ :=
  (t.journal.map (TrafficEvent.debit token account)).sum

/-- The fee and the share are parts of the amount, and nobody is debited more. -/
structure FeeBounds (token : Address) (amount feeCap fee share : ℤ) (s t : Traffic) : Prop where
  fee_nonneg : 0 ≤ fee
  fee_le : fee ≤ min amount feeCap
  share_nonneg : 0 ≤ share
  total : share + fee = amount
  debits : ∀ account, t.debited token account ≤ s.debited token account + amount

variable {h : Host} {s t : Traffic} {events : List TrafficEvent}
  {sender recipient token platformTreasury account : Address}
  {amount feeAmount feeCap fee share bps n : ℤ} {held : Bool}

section Arithmetic

/-- Division truncates towards zero, so a negative product may still round to no fee. -/
lemma tdiv_nonneg_iff : 0 ≤ n.tdiv bpsDivisor ↔ -bpsDivisor < n := by
  unfold bpsDivisor
  rw [Int.tdiv_eq_ediv]
  norm_num [Int.sign]
  split_ifs <;> omega

lemma saturateI128_gt_iff : -bpsDivisor < saturateI128 n ↔ -bpsDivisor < n := by
  unfold saturateI128 bpsDivisor minI128 maxI128
  omega

lemma capFee_le_cap : capFee feeAmount feeCap amount ≤ feeCap := by
  dsimp only [capFee]
  split_ifs <;> omega

lemma capFee_nonneg_iff (ha : 0 < amount) :
    0 ≤ capFee feeAmount feeCap amount ↔ 0 ≤ feeCap ∧ 0 ≤ feeAmount := by
  dsimp only [capFee]
  split_ifs <;> omega

lemma directFee_nonneg_iff (ha : 0 < amount) :
    0 ≤ directFee amount bps feeCap ↔ 0 ≤ feeCap ∧ -bpsDivisor < amount * bps := by
  rw [directFee, capFee_nonneg_iff ha, tdiv_nonneg_iff, saturateI128_gt_iff]

lemma signedFee_nonneg_iff (ha : 0 < amount) :
    0 ≤ signedFee amount bps feeCap ↔
      0 ≤ feeCap ∧ (FitsI128 (amount * bps) → -bpsDivisor < amount * bps) := by
  rw [signedFee, capFee_nonneg_iff ha, tdiv_nonneg_iff]
  split_ifs with hfit
  · exact and_congr_right fun _ => ⟨fun hb _ => hb, fun hb => hb hfit⟩
  · have hpos : -bpsDivisor < amount := by
      unfold bpsDivisor
      omega
    exact and_congr_right fun _ => ⟨fun _ hf => absurd hf hfit, fun _ => hpos⟩

lemma swapFee_nonneg_iff (ha : 0 < amount) :
    0 ≤ swapFee amount bps feeCap ↔ 0 ≤ feeCap ∧ -bpsDivisor < amount * bps := by
  rw [swapFee, capFee_nonneg_iff ha, tdiv_nonneg_iff]

lemma neg_bpsDivisor_lt (ha : 0 < amount) (hb : 0 ≤ bps) : -bpsDivisor < amount * bps := by
  have hprod := mul_nonneg ha.le hb
  unfold bpsDivisor
  omega

lemma directFee_nonneg (ha : 0 < amount) (hb : 0 ≤ bps) (hc : 0 ≤ feeCap) :
    0 ≤ directFee amount bps feeCap :=
  (directFee_nonneg_iff ha).mpr ⟨hc, neg_bpsDivisor_lt ha hb⟩

lemma signedFee_nonneg (ha : 0 < amount) (hb : 0 ≤ bps) (hc : 0 ≤ feeCap) :
    0 ≤ signedFee amount bps feeCap :=
  (signedFee_nonneg_iff ha).mpr ⟨hc, fun _ => neg_bpsDivisor_lt ha hb⟩

lemma swapFee_nonneg (ha : 0 < amount) (hb : 0 ≤ bps) (hc : 0 ≤ feeCap) :
    0 ≤ swapFee amount bps feeCap :=
  (swapFee_nonneg_iff ha).mpr ⟨hc, neg_bpsDivisor_lt ha hb⟩

end Arithmetic

section Debits

lemma Posts.debited (hp : Posts events s t) : t.debited token account =
    s.debited token account + (events.map (TrafficEvent.debit token account)).sum := by
  rw [Traffic.debited, Traffic.debited, hp.journal, List.map_append, List.sum_append]
  ring

lemma debit_feeEvents {call : TokenCall Address Address} (hf : 0 ≤ fee)
    (hc : call.debit token account ≤ fee) :
    ((feeEvents fee call).map (TrafficEvent.debit token account)).sum ≤ fee := by
  unfold feeEvents
  split_ifs
  · simpa [TrafficEvent.debit] using hc
  · simpa using hf

lemma debit_shareEvents (sender : Address) (held : Bool) {call : TokenCall Address Address}
    {keeping : List TrafficEvent} (hs : 0 ≤ share) (hc : call.debit token account ≤ share)
    (hk : (keeping.map (TrafficEvent.debit token account)).sum ≤ share) :
    ((shareEvents sender token share call keeping held).map
      (TrafficEvent.debit token account)).sum ≤ share := by
  unfold shareEvents
  split_ifs
  · simpa [TrafficEvent.debit] using hk
  · simpa [TrafficEvent.debit] using hc
  · simpa using hs

lemma debit_transfer_le (token source target account : Address) (hn : 0 ≤ n) :
    (TokenCall.transfer token source target n).debit token account ≤ n := by
  simp only [TokenCall.debit]
  split_ifs <;> omega

lemma debit_transferFrom_le {spender source target : Address} (hn : 0 ≤ n) :
    (TokenCall.transferFrom token spender source target n).debit token account ≤ n := by
  simp only [TokenCall.debit]
  split_ifs <;> omega

lemma debit_paymentEvents {ask : Address → ℤ → TokenCall Address Address} (hf : 0 ≤ fee)
    (hle : fee ≤ amount) (ha : ∀ target n, 0 ≤ n → (ask target n).debit token account ≤ n) :
    ((paymentEvents h ask sender recipient token platformTreasury amount fee held).map
      (TrafficEvent.debit token account)).sum ≤ amount := by
  have hshare : 0 ≤ amount - fee := by omega
  have hkeep : ([TrafficEvent.moved (ask h.self (amount - fee))].map
      (TrafficEvent.debit token account)).sum ≤ amount - fee := by
    simpa [TrafficEvent.debit] using ha h.self (amount - fee) hshare
  have hs := debit_shareEvents sender held hshare (ha recipient (amount - fee) hshare) hkeep
  have ht := debit_feeEvents hf (ha platformTreasury fee hf)
  rw [paymentEvents, List.map_append, List.sum_append]
  omega

lemma debit_payOutEvents (hf : 0 ≤ fee) (hle : fee ≤ amount) :
    ((payOutEvents h sender recipient token platformTreasury amount fee held).map
      (TrafficEvent.debit token account)).sum ≤ amount := by
  have hshare : 0 ≤ amount - fee := by omega
  have hkeep : (([] : List TrafficEvent).map (TrafficEvent.debit token account)).sum ≤
      amount - fee := by simpa using hshare
  have hs := debit_shareEvents sender held hshare
    (debit_transfer_le token h.self recipient account hshare) hkeep
  have ht := debit_feeEvents hf (debit_transfer_le token h.self platformTreasury account hf)
  rw [payOutEvents, List.map_append, List.sum_append]
  omega

lemma feeBounds_iff (hp : Posts events s t) (hcap : fee ≤ feeCap) (hle : fee ≤ amount)
    (hd : ∀ account, 0 ≤ fee →
      (events.map (TrafficEvent.debit token account)).sum ≤ amount) :
    FeeBounds token amount feeCap fee (amount - fee) s t ↔ 0 ≤ fee := by
  constructor
  · intro hb
    exact hb.fee_nonneg
  · intro hf
    refine ⟨hf, le_min hle hcap, by omega, by omega, fun account => ?_⟩
    rw [hp.debited]
    have := hd account hf
    omega

end Debits

/-- A payment, direct, signed or out of a swap, keeps to the bounds on its fee exactly when the cap
is not negative and the rate gives away less than one unit. -/
theorem fees_bounded_iff (h : Host) (cfg : Settings) (env : Env)
    (sender recipient token platformTreasury : Address) (amount feeBps feeCap : ℤ) (s t : Traffic)
    (ha : 0 < amount) :
    (processSinglePayment h env sender recipient token amount platformTreasury feeBps feeCap s =
        .ok ((), t) →
      let bps := s.rate env sender feeBps
      let fee := directFee amount bps feeCap
      (∃ held, Posts (paymentEvents h (.transfer token sender) sender recipient token
        platformTreasury amount fee held) s t) ∧
      (FeeBounds token amount feeCap fee (amount - fee) s t ↔
        0 ≤ feeCap ∧ -bpsDivisor < amount * bps)) ∧
    (processSinglePaymentNoAuth h cfg env sender recipient token amount platformTreasury feeBps
        feeCap s = .ok ((), t) →
      let bps := s.rate env sender feeBps
      let fee := signedFee amount bps feeCap
      (∃ held, Posts (paymentEvents h (.transferFrom token h.self sender) sender recipient token
        platformTreasury amount fee held) s t) ∧
      (FeeBounds token amount feeCap fee (amount - fee) s t ↔
        0 ≤ feeCap ∧ (FitsI128 (amount * bps) → -bpsDivisor < amount * bps))) ∧
    ∀ bps delivered, payOut h env sender recipient token platformTreasury amount bps feeCap s =
        .ok (delivered, t) →
      let fee := swapFee amount bps feeCap
      (delivered = amount - fee ∧ ∃ held, Posts (payOutEvents h sender recipient token
        platformTreasury amount fee held) s t) ∧
      (FeeBounds token amount feeCap fee (amount - fee) s t ↔
        0 ≤ feeCap ∧ -bpsDivisor < amount * bps) := by
  refine ⟨fun hr => ?_, fun hr => ?_, fun bps delivered hr => ?_⟩
  · obtain ⟨held, hp⟩ := processSinglePayment_posts hr
    refine ⟨⟨held, hp⟩, ?_⟩
    rw [← directFee_nonneg_iff ha]
    exact feeBounds_iff hp capFee_le_cap capFee_le fun account hf =>
      debit_paymentEvents hf capFee_le fun _ _ hn => debit_transfer_le _ _ _ _ hn
  · obtain ⟨-, held, hp⟩ := processSinglePaymentNoAuth_posts hr
    refine ⟨⟨held, hp⟩, ?_⟩
    rw [← signedFee_nonneg_iff ha]
    exact feeBounds_iff hp capFee_le_cap capFee_le fun account hf =>
      debit_paymentEvents hf capFee_le fun _ _ hn => debit_transferFrom_le hn
  · obtain ⟨hd, held, hp⟩ := payOut_posts hr
    refine ⟨⟨hd, held, hp⟩, ?_⟩
    rw [← swapFee_nonneg_iff ha]
    exact feeBounds_iff hp capFee_le_cap capFee_le fun account hf =>
      debit_payOutEvents hf capFee_le

section Examples

/-- The admin sets the fee to `feeBps` at most `feeCap`; `⟨2⟩` holds 150 and pays 100 to `⟨4⟩`. -/
def payHundred (feeBps feeCap : ℤ) : List Call :=
  [⟨signedBy [⟨1⟩], .administer (.initializeRouter ⟨1⟩ ⟨9⟩ 0 0 1000)⟩,
    ⟨signedBy [⟨1⟩], .configure (.setFeeConfig feeBps feeCap)⟩,
    ⟨{}, .outside (.mint ⟨20⟩ ⟨2⟩ 150)⟩,
    ⟨{ signedBy [⟨2⟩] with reply := fun _ => { accepts := true } },
      .route (.routePayment ⟨⟨2⟩, ⟨4⟩, ⟨20⟩, 100⟩)⟩]

def payHundredTx (feeBps feeCap : ℤ) : Routing Unit :=
  processSinglePayment .sample { signedBy [⟨2⟩] with reply := fun _ => { accepts := true } }
    ⟨2⟩ ⟨4⟩ ⟨20⟩ 100 ⟨9⟩ feeBps feeCap

theorem fees_bounded_one_percent :
    let s := (after .sample emptyLedger ((payHundred 100 1000).take 3)).traffic
    FeeBounds ⟨20⟩ 100 1000 (directFee 100 (s.rate (signedBy [⟨2⟩]) ⟨2⟩ 100) 1000)
      (100 - directFee 100 (s.rate (signedBy [⟨2⟩]) ⟨2⟩ 100) 1000) s
      (Tx.commit (payHundredTx 100 1000) s) := by
  intro s
  obtain ⟨_, hr⟩ := Tx.succeeds_iff.mp (show Tx.succeeds (payHundredTx 100 1000) s = true by decide)
  have hf := (fees_bounded_iff .sample {} _ ⟨2⟩ ⟨4⟩ ⟨20⟩ ⟨9⟩ 100 100 1000 s _ (by decide)).1 hr
  exact hf.2.mpr (by decide)

/-- The admin sets a fee of minus half the amount: `⟨2⟩` is debited 150 for a payment of 100. -/
theorem negative_fee_overdraws :
    let s := after .sample emptyLedger (payHundred (-5000) 1000)
    s.settings.feeBps = some (-5000) ∧ directFee 100 (-5000) 1000 = -50 ∧
      s.traffic.debited ⟨20⟩ ⟨2⟩ = 150 ∧ s.traffic.tokens.balance ⟨20⟩ ⟨4⟩ = 150 := by
  decide

end Examples

end StellarTags.Router
