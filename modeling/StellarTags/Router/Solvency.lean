import StellarTags.Router.Custody
import StellarTags.Router.Frames

/-! Refund claims stay backed in runs where swaps return what they report and fees are no bonus. -/

namespace StellarTags.Router

open Library.Transactions Library.Integers Library.Runs Library.Tokens Library.Reserves Soroban
open Traffic

variable {h : Host} {cfg : Settings} {env : Env} {owed : Address → ℤ}

section Payments

variable {sender recipient tokenAddress platformTreasury user : Address}
  {amount feeBps feeCap remainder : ℤ} {toRecipient toRouter : TokenCall Address Address}

lemma deliver_solvent (hrec : toRecipient.Gains h.self 0)
    (hrouter : 0 < remainder → toRouter.Gains h.self (Pi.single tokenAddress remainder)) :
    Tx.Ensures (Solvent h owed) (deliver h env sender tokenAddress remainder toRecipient toRouter)
      fun _ => Solvent h owed := by
  refine .whenever (fun hr => ?_) fun _ _ hs => hs
  refine .bind (tryToken_idle hrec) fun delivered => .whenever (fun _ => ?_) fun _ _ hs => hs
  refine .bind (tryToken_solvent (hrouter hr)) fun held => .reject fun hh => ?_
  rw [Bool.not_eq_false] at hh
  simpa [hh] using creditRefundBalance_solvent hr.le

lemma processSinglePayment_solvent (hs : sender ≠ h.self) :
    Tx.Ensures (Solvent h owed) (processSinglePayment h env sender recipient tokenAddress amount
      platformTreasury feeBps feeCap) fun _ => Solvent h owed := by
  refine solvent_pass .accrueUserRecord fun userVolume => solvent_pass (.read _) fun balance => ?_
  refine .reject fun _ => checkedI128_ensures ?_
  refine .bind (Q := fun _ => Solvent h owed) (.whenever (fun _ => ?_) fun _ _ hs => hs) fun _ => ?_
  · refine .bind (tryToken_idle (TokenCall.gains_transfer_other hs)) fun paid => ?_
    exact .of_reject fun _ _ hs => hs
  · exact deliver_solvent (TokenCall.gains_transfer_other hs) fun _ =>
      TokenCall.gains_transfer_in hs

lemma processSinglePaymentNoAuth_solvent :
    Tx.Ensures (Solvent h owed) (processSinglePaymentNoAuth h cfg env sender recipient tokenAddress
      amount platformTreasury feeBps feeCap) fun _ => Solvent h owed := by
  refine .reject fun _ => .reject fun _ => .reject fun _ => .reject fun _ => ?_
  refine solvent_pass verifyKycForAmount_reads fun _ => ?_
  refine solvent_pass .accrueUserRecord fun userVolume => ?_
  refine solvent_pass (.read _) fun balance => .reject fun _ => ?_
  refine solvent_pass (.read _) fun allowance => .reject fun _ => checkedI128_ensures ?_
  refine .bind (Q := fun _ => Solvent h owed) (.whenever (fun _ => ?_) fun _ _ hs => hs) fun _ => ?_
  · refine .bind (tryToken_idle TokenCall.gains_transferFrom) fun paid => ?_
    exact .of_reject fun _ _ hs => hs
  · exact deliver_solvent TokenCall.gains_transferFrom TokenCall.gains_transferFrom_in

lemma authorises_ne (ha : env.authorises h sender = true) : sender ≠ h.self := by
  simp only [Env.authorises, Bool.and_eq_true, decide_eq_true_eq] at ha
  exact ha.2

lemma withGuard_solvent {α : Type} {m : Routing α}
    (hm : Tx.Ensures (Solvent h owed) m fun _ => Solvent h owed) :
    Tx.Ensures (Solvent h owed) (withGuard m) fun _ => Solvent h owed :=
  withGuard_ensures (fun _ _ hq hs => hs.quiet hq) (fun _ _ _ hq hs => hs.quiet hq) hm

lemma routePayment_solvent (payment : Payment) :
    Tx.Ensures (Solvent h owed) (routePayment h cfg env payment) fun _ => Solvent h owed := by
  refine withGuard_solvent (solvent_pass .requireOpen fun _ => ?_)
  refine solvent_pass .validatePayment fun _ => .demand fun ha => ?_
  refine solvent_pass .checkRateLimit fun _ => solvent_pass loadFeeConfig_reads fun fees => ?_
  refine .bind (processSinglePayment_solvent (authorises_ne ha)) fun _ => ?_
  exact .of_respects .bumpHeartbeat fun _ _ hq hs => hs.quiet hq

lemma routePayments_solvent (payments : List Payment) :
    Tx.Ensures (Solvent h owed) (routePayments h cfg env payments) fun _ => Solvent h owed := by
  refine withGuard_solvent (solvent_pass .requireOpen fun _ => ?_)
  have hadmit : ∀ seen : List Address, ∀ payment ∈ payments,
      Tx.Ensures (fun t => Solvent h owed t ∧ ∀ a ∈ seen, a ≠ h.self)
        (admitPayment h cfg env seen payment)
        fun seen t => (Solvent h owed t ∧ ∀ a ∈ seen, a ≠ h.self) ∧ payment.sender ≠ h.self := by
    intro seen payment _
    refine .given fun hseen => solvent_pass .validatePayment fun _ => ?_
    refine solvent_pass .checkRateLimit fun _ => ?_
    split_ifs with hm
    · exact .pure fun _ hs => ⟨⟨hs, hseen⟩, hseen _ hm⟩
    · refine .demand fun ha => .pure fun _ hs => ⟨⟨hs, ?_⟩, authorises_ne ha⟩
      simpa [or_imp, forall_and, authorises_ne ha] using hseen
  refine .bind ((Tx.Ensures.fold_all hadmit).mono (fun _ hs => ⟨hs, by simp⟩) fun _ _ hs =>
    (⟨hs.1.1, hs.2⟩ : _ ∧ ∀ payment ∈ payments, payment.sender ≠ h.self)) fun _ => ?_
  refine .given fun hne => solvent_pass loadFeeConfig_reads fun fees => ?_
  refine solvent_pass .bumpHeartbeat fun _ => ?_
  refine .bind (.forEach fun payment hp => ?_) fun _ => ?_
  · exact processSinglePayment_solvent (hne payment hp)
  exact .of_respects .bumpHeartbeat fun _ _ hq hs => hs.quiet hq

lemma routePaymentMeta_solvent {payment : Payment} {signerPubkey : PublicKey} {nonce deadline : ℕ}
    {signature : Signature} :
    Tx.Ensures (Solvent h owed) (routePaymentMeta h cfg env payment signerPubkey nonce deadline
      signature) fun _ => Solvent h owed := by
  refine withGuard_solvent (solvent_pass .requireOpen fun _ => ?_)
  refine solvent_pass loadFeeConfig_reads fun fees => .reject fun _ => ?_
  refine solvent_pass (.read _) fun stored => .reject fun _ => .demand fun _ => ?_
  refine solvent_pass (.bind (.demand _) fun _ => .pure _) fun next => ?_
  refine solvent_pass (.update fun _ => ⟨rfl, rfl, rfl⟩) fun _ => ?_
  exact processSinglePaymentNoAuth_solvent

lemma routePaymentWithQuote_solvent {quote : Quote} {makerPubkey : PublicKey}
    {signature : Signature} :
    Tx.Ensures (Solvent h owed) (routePaymentWithQuote h cfg env sender recipient quote makerPubkey
      signature) fun _ => Solvent h owed := by
  refine withGuard_solvent (solvent_pass .requireOpen fun _ => ?_)
  refine .reject fun _ => .reject fun _ => .reject fun _ => .reject fun _ => ?_
  refine solvent_pass (.read _) fun used => .reject fun _ => .reject fun _ => ?_
  refine solvent_pass verifyKycForAmount_reads fun _ => solvent_pass loadFeeConfig_reads fun _ => ?_
  refine .demand fun _ => .demand fun hs => .demand fun hm => ?_
  refine solvent_pass .checkRateLimit fun _ => ?_
  refine solvent_pass (.read _) fun input => solvent_pass (.read _) fun output => ?_
  refine .reject fun _ => ?_
  refine solvent_pass .accrueUserRecord fun _ => ?_
  refine solvent_pass (.update fun _ => ⟨rfl, rfl, rfl⟩) fun _ => ?_
  refine .bind (token_idle (TokenCall.gains_transfer_other (authorises_ne hs))) fun _ => ?_
  refine .bind (token_idle (TokenCall.gains_transfer_other (authorises_ne hm))) fun _ => ?_
  exact solvent_pass .bumpHeartbeat fun _ => .pure fun _ hs => hs

lemma withdrawRefund_solvent :
    Tx.Ensures (Solvent h owed) (withdrawRefund h env user tokenAddress amount)
      fun _ => Solvent h owed := by
  refine .demand fun _ => .reject fun hpos => .read fun balance => .reject fun hle => ?_
  refine .bind (Q := fun _ => Solvent h (owed + Pi.single tokenAddress amount))
    (.update fun s hs => ?_) fun _ => token_pays
  obtain ⟨hs, rfl⟩ := hs
  refine (hs.debit (not_lt.mp hle) ?_).publish _
  split_ifs with hn
  · rfl
  · simp only [Option.getD_none]
    omega

lemma claimAllRefunds_solvent :
    Tx.Ensures (Solvent h owed) (claimAllRefunds h env user tokenAddress)
      fun _ => Solvent h owed := by
  refine .demand fun _ => solvent_pass (.read _) fun balance => .reject fun _ => ?_
  exact .bind withdrawRefund_solvent fun _ => .pure fun _ hs => hs

lemma migrateUserRecord_solvent :
    Tx.Ensures (Solvent h owed) (migrateUserRecord env user) fun _ => Solvent h owed := by
  refine solvent_pass (.read _) fun loaded => ?_
  split_ifs
  · exact .pure fun _ hs => hs
  · refine solvent_pass (.read _) fun packed => ?_
    refine solvent_pass (.whenever fun _ => .update fun _ => ⟨rfl, rfl, rfl⟩) fun _ => ?_
    refine solvent_pass (.update fun _ => ⟨rfl, rfl, rfl⟩) fun _ => .pure fun _ hs => hs

end Payments

/-- No fee that is configured is a bonus. -/
structure Settings.FeesNonnegative (cfg : Settings) : Prop where
  bps : ∀ feeBps, cfg.feeBps = some feeBps → 0 ≤ feeBps
  cap : ∀ feeCap, cfg.feeCap = some feeCap → 0 ≤ feeCap

section Fees

variable {feeAmount feeCap feeBps amount userVolume : ℤ}

lemma Settings.FeesNonnegative.of_eq (hb : cfg.feeBps = some feeBps)
    (hc : cfg.feeCap = some feeCap) (hbps : 0 ≤ feeBps) (hcap : 0 ≤ feeCap) :
    cfg.FeesNonnegative := by
  refine ⟨fun n hn => ?_, fun n hn => ?_⟩
  · rwa [← Option.some.inj (hb.symm.trans hn)]
  · rwa [← Option.some.inj (hc.symm.trans hn)]

lemma capFee_nonneg (hf : 0 ≤ feeAmount) (hc : 0 ≤ feeCap) (ha : 0 ≤ amount) :
    0 ≤ capFee feeAmount feeCap amount := by
  dsimp only [capFee]
  split_ifs <;> omega

lemma capFee_le : capFee feeAmount feeCap amount ≤ amount := by
  dsimp only [capFee]
  split_ifs <;> omega

lemma effectiveFeeBps_nonneg (hb : 0 ≤ feeBps) : 0 ≤ effectiveFeeBps userVolume feeBps := by
  unfold effectiveFeeBps
  split_ifs
  · exact Int.tdiv_nonneg hb (by norm_num)
  · exact hb

lemma calculateFee_shares {P : Traffic → Prop} (ha : 0 ≤ amount) (hb : 0 ≤ feeBps)
    (hc : 0 ≤ feeCap) : Tx.Ensures P (calculateFee amount feeBps feeCap : Routing _)
      fun split t => P t ∧ 0 ≤ split.1 ∧ 0 ≤ split.2 ∧ split.1 + split.2 = amount := by
  refine checkedI128_ensures (checkedI128_ensures (.pure fun s hs => ?_))
  have hf : 0 ≤ (amount * feeBps).tdiv bpsDivisor :=
    Int.tdiv_nonneg (mul_nonneg ha hb) (by norm_num [bpsDivisor])
  exact ⟨hs, capFee_nonneg hf hc ha, sub_nonneg.mpr capFee_le, by ring⟩

lemma loadFeeConfig_ensures {P : Traffic → Prop} {α : Type} {Q : α → Traffic → Prop}
    {f : Address × ℤ × ℤ → Routing α} (hf : ∀ fees, cfg.feeBps = some fees.2.1 →
      cfg.feeCap = some fees.2.2 → Tx.Ensures P (f fees) Q) :
    Tx.Ensures P (cfg.loadFeeConfig >>= f) Q := by
  intro s a t hs hr
  simp only [Settings.loadFeeConfig, Tx.bind_ok, Tx.unwrap_ok, Tx.pure_ok] at hr
  obtain ⟨fees, _, ⟨treasury, _, ⟨-, rfl⟩, bps, _, ⟨hb, rfl⟩, cap, _, ⟨hc, rfl⟩, rfl, rfl⟩, hr⟩ := hr
  exact hf _ hb hc _ a t hs hr

end Fees

section Swaps

variable {sender recipient dex tokenIn tokenOut buyToken sellToken platformTreasury : Address}
  {amountOut feeBps feeCap : ℤ} {reserve : Address → ℤ}

lemma payOut_solvent {token : Address} (ha : 0 ≤ amountOut) (hb : 0 ≤ feeBps) (hc : 0 ≤ feeCap) :
    Tx.Ensures (Solvent h (owed + Pi.single token amountOut))
      (payOut h env sender recipient token platformTreasury amountOut feeBps feeCap)
      fun _ => Solvent h owed := by
  refine .bind (calculateFee_shares ha hb hc) fun split => .given fun ⟨hfee, hrest, hsum⟩ => ?_
  rw [← hsum, add_comm split.1, Pi.single_add, ← add_assoc]
  refine .bind (token_settles hfee) fun _ => ?_
  refine .bind (Q := fun _ => Solvent h owed) ?_ fun _ => .pure fun _ hs => hs
  refine .whenever (fun hpos => ?_) fun hz s hs => ?_
  · refine .bind (tryToken_solvent TokenCall.gains_transfer_out) fun delivered => ?_
    cases delivered with
    | true =>
      refine .whenever (fun hd => absurd hd (by simp)) fun _ s hs => ?_
      rwa [if_pos rfl, add_single_neg] at hs
    | false =>
      refine .whenever (fun _ => ?_) fun hd => absurd rfl hd
      simpa using creditRefundBalance_solvent hrest
  · have h0 : split.2 = 0 := by omega
    simpa [h0] using hs

lemma invokeDexSwap_holds :
    Tx.Ensures (Holds h reserve owed) (invokeDexSwap h env dex) fun _ => Holds h reserve owed :=
  .bind invoke_holds fun _ => .unwrap fun _ _ => .pure fun _ hs => hs

lemma validateSwap_ensures {swap : SwapPayment} {α : Type} {f : Unit → Routing α}
    {Q : α → Traffic → Prop}
    (hf : 0 < swap.minAmountOut → Tx.Ensures (Solvent h owed) (f ()) Q) :
    Tx.Ensures (Solvent h owed) (validateSwap cfg env swap >>= f) Q := by
  refine .bind (Q := fun _ t => Solvent h owed t ∧ 0 < swap.minAmountOut) ?_ fun _ => .given hf
  refine .reject fun _ => .reject fun hmin => .reject fun _ => .reject fun _ => .reject fun _ => ?_
  exact .reject fun _ => .reject fun _ => .of_reject fun _ _ hs => ⟨hs, not_le.mp hmin⟩

lemma checkSlippage_ensures {swap : SwapPayment} {P : Traffic → Prop} :
    Tx.Ensures P (checkSlippage cfg swap amountOut) fun _ t => P t ∧ swap.minAmountOut ≤ amountOut := by
  refine .reject fun hmin => .whenever (fun _ => ?_) fun _ _ hs => ⟨hs, not_lt.mp hmin⟩
  refine .pass (R := Eq) (fun _ _ he hs => he ▸ hs) pairMaxSlippageBps_reads fun bps => ?_
  refine .pass (R := Eq) (fun _ _ he hs => he ▸ hs) slippageFloor_reads fun floor => ?_
  exact .of_reject fun _ _ hs => ⟨hs, not_lt.mp hmin⟩

lemma processSingleSwapPayment_solvent (swap : SwapPayment) (hb : 0 ≤ feeBps) (hc : 0 ≤ feeCap) :
    Tx.Ensures (Solvent h owed) (processSingleSwapPayment h cfg env swap platformTreasury feeBps
      feeCap) fun _ => Solvent h owed := by
  refine .demand fun ha => solvent_pass (.reject _ _) fun _ => validateSwap_ensures fun hmin => ?_
  refine solvent_pass .accrueUserRecord fun userVolume => ?_
  refine solvent_pass (.read _) fun balance => .reject fun _ => ?_
  refine counted_ensures fun reserve => balanceOf_counted ?_
  have hin := TokenCall.gains_transfer_in (t := swap.sellToken) (n := swap.amountIn)
    (authorises_ne ha)
  refine .bind ((token_holds hin).mono (fun _ hs => hs.1) fun _ _ hs => hs) fun _ => ?_
  refine .bind (token_holds TokenCall.gains_transfer_out) fun _ => ?_
  rw [add_single_neg]
  refine .bind invokeDexSwap_holds fun output => .reject fun _ => ?_
  refine .read fun after => checkedI128_ensures ?_
  refine .bind checkSlippage_ensures fun _ => .given fun hout => ?_
  refine (payOut_solvent (by omega) (effectiveFeeBps_nonneg hb) hc).mono (fun s hs => ?_)
    fun _ _ hs => hs
  obtain ⟨hs, rfl⟩ := hs
  exact hs.gained swap.buyToken

lemma routePaymentWithSwap_solvent (hfees : cfg.FeesNonnegative) (payment : SwapPayment) :
    Tx.Ensures (Solvent h owed) (routePaymentWithSwap h cfg env payment)
      fun _ => Solvent h owed := by
  refine withGuard_solvent (.reject fun _ => solvent_pass (.reject _ _) fun _ => ?_)
  exact loadFeeConfig_ensures fun fees hb hc =>
    processSingleSwapPayment_solvent payment (hfees.bps _ hb) (hfees.cap _ hc)

lemma routePaymentsWithSwap_solvent (hfees : cfg.FeesNonnegative) (payments : List SwapPayment) :
    Tx.Ensures (Solvent h owed) (routePaymentsWithSwap h cfg env payments)
      fun _ => Solvent h owed := by
  refine withGuard_solvent (.reject fun _ => solvent_pass (.reject _ _) fun _ => ?_)
  refine loadFeeConfig_ensures fun fees hb hc => ?_
  refine .fold (I := fun _ => Solvent h owed) fun total payment _ => ?_
  refine .bind (Q := fun _ => Solvent h owed) ?_ fun _ => ?_
  · exact processSingleSwapPayment_solvent payment (hfees.bps _ hb) (hfees.cap _ hc)
  exact .bind (.of_demand fun _ _ hs => hs) fun _ => .pure fun _ hs => hs

/-- A split swap owes the sell tokens still to hand out and the buy tokens that came in. -/
def splitOwed (owed : Address → ℤ) (sellToken buyToken : Address) (amountIn : ℤ)
    (progress : SplitProgress) : Address → ℤ :=
  owed + Pi.single sellToken (amountIn - progress.allocatedIn) +
    Pi.single buyToken progress.totalOut

lemma swapSplit_solvent {amountIn : ℤ} {progress : SplitProgress} (item : SplitRoute × Bool)
    (hne : sellToken ≠ buyToken) (hmin : 0 < item.1.minAmountOut) (hout : 0 ≤ progress.totalOut) :
    Tx.Ensures (Solvent h (splitOwed owed sellToken buyToken amountIn progress))
      (swapSplit h env sellToken buyToken amountIn progress item) fun progress t =>
        Solvent h (splitOwed owed sellToken buyToken amountIn progress) t ∧
          0 ≤ progress.totalOut ∧ (item.2 = true → progress.allocatedIn = amountIn) := by
  refine .bind (Q := fun share t =>
    Solvent h (splitOwed owed sellToken buyToken amountIn progress) t ∧
      (item.2 = true → share = amountIn - progress.allocatedIn)) ?_ fun share =>
    .given fun hlast => ?_
  · unfold splitShare
    split_ifs with hl
    · exact .bind (.of_demand fun _ _ hs => hs) fun _ => .pure fun _ hs => ⟨hs, fun _ => rfl⟩
    · exact checkedI128_ensures (.pure fun _ hs => ⟨hs, fun h => absurd h hl⟩)
  refine checkedI128_ensures (.reject fun _ => ?_)
  refine counted_ensures fun reserve => balanceOf_counted ?_
  refine .bind ((token_holds TokenCall.gains_transfer_out).mono (fun _ hs => hs.1)
    fun _ _ hs => hs) fun _ => ?_
  refine .bind invokeDexSwap_holds fun _ => .read fun after => checkedI128_ensures ?_
  refine .reject fun hslip => .reject fun _ => .pure fun s hs => ?_
  obtain ⟨hs, rfl⟩ := hs
  refine ⟨?_, by simp only; omega, fun hl => by simp [hlast hl]⟩
  convert hs.gained buyToken using 1
  ext k
  simp only [splitOwed, Pi.add_apply, Pi.single_apply, hne.symm, if_false]
  split_ifs <;> omega

/-- The splits hand out all of the input: the marked one comes last. -/
lemma swapSplits_solvent {amountIn : ℤ} {splits : List SplitRoute} {progress : SplitProgress}
    (hs : splits ≠ []) (hne : sellToken ≠ buyToken) (hmin : ∀ split ∈ splits, 0 < split.minAmountOut)
    (hout : 0 ≤ progress.totalOut) :
    Tx.Ensures (Solvent h (splitOwed owed sellToken buyToken amountIn progress))
      (Tx.fold (swapSplit h env sellToken buyToken amountIn) progress (markLast splits))
      fun progress t => Solvent h (owed + Pi.single buyToken progress.totalOut) t ∧
        0 ≤ progress.totalOut := by
  induction splits generalizing progress with
  | nil => exact absurd rfl hs
  | cons split splits ih =>
    have hfirst := hmin split (by simp)
    cases splits with
    | nil =>
      refine .bind (swapSplit_solvent (split, true) hne hfirst hout) fun progress => ?_
      refine .pure fun s ⟨hs, hout, hlast⟩ => ⟨?_, hout⟩
      simpa [splitOwed, hlast rfl] using hs
    | cons next rest =>
      refine .bind (swapSplit_solvent (split, false) hne hfirst hout) fun progress => ?_
      refine .given fun ⟨hout, _⟩ => ih (by simp) (fun s hm => hmin s ?_) hout
      exact List.mem_cons_of_mem _ hm

lemma addSplitWeight_ensures {P : Traffic → Prop} {totalWeight : ℕ} {split : SplitRoute} :
    Tx.Ensures P (addSplitWeight cfg totalWeight split) fun _ t => P t ∧ 0 < split.minAmountOut := by
  refine .reject fun hw => .reject fun _ => .reject fun _ => .pure fun _ hs => ⟨hs, ?_⟩
  simp only [not_or, not_le] at hw
  exact hw.2

lemma processSplitPaymentWithSwap_solvent {amountIn : ℤ} {splits : List SplitRoute}
    (hb : 0 ≤ feeBps) (hc : 0 ≤ feeCap) :
    Tx.Ensures (Solvent h owed) (processSplitPaymentWithSwap h cfg env sender recipient sellToken
      buyToken amountIn splits platformTreasury feeBps feeCap) fun _ => Solvent h owed := by
  refine .demand fun ha => .reject fun hne => .reject fun hs => ?_
  refine .bind (.fold_all (I := fun _ => Solvent h owed) fun _ _ _ => addSplitWeight_ensures)
    fun totalWeight => .given fun hmin => ?_
  refine .reject fun _ => .reject fun _ => .reject fun _ => .reject fun _ => .reject fun _ => ?_
  refine solvent_pass .accrueUserRecord fun userVolume => ?_
  refine solvent_pass (.read _) fun balance => .reject fun _ => ?_
  refine .bind (token_solvent (TokenCall.gains_transfer_in (authorises_ne ha))) fun _ => ?_
  refine .bind ((swapSplits_solvent hs hne hmin le_rfl).mono (fun s hs => ?_) fun _ _ hs => hs)
    fun progress => .given fun hout => payOut_solvent hout (effectiveFeeBps_nonneg hb) hc
  simpa [splitOwed] using hs

lemma routeSplitPaymentWithSwap_solvent (hfees : cfg.FeesNonnegative) {amountIn : ℤ}
    {splits : List SplitRoute} :
    Tx.Ensures (Solvent h owed) (routeSplitPaymentWithSwap h cfg env sender recipient sellToken
      buyToken amountIn splits) fun _ => Solvent h owed := by
  refine withGuard_solvent (.reject fun _ => solvent_pass (.reject _ _) fun _ => ?_)
  exact loadFeeConfig_ensures fun fees hb hc =>
    processSplitPaymentWithSwap_solvent (hfees.bps _ hb) (hfees.cap _ hc)

lemma swapHop_solvent {currentAmount : ℤ} (hop : Hop) (hne : hop.tokenIn ≠ hop.tokenOut) :
    Tx.Ensures (Solvent h (owed + Pi.single hop.tokenIn currentAmount))
      (swapHop h env sender dex currentAmount hop) fun amountOut t =>
        Solvent h (owed + Pi.single hop.tokenOut amountOut) t ∧ 0 ≤ amountOut := by
  refine counted_ensures fun reserve => balanceOf_counted (balanceOf_counted ?_)
  refine .bind ((token_holds TokenCall.gains_transfer_out).mono (fun _ hs => hs.1)
    fun _ _ hs => hs) fun _ => ?_
  rw [add_single_neg]
  refine .bind (Q := fun _ => Holds h reserve owed)
    (.bind invokeContract_holds fun _ => .pure fun _ hs => hs) fun result => ?_
  split
  · refine .read fun inputAfter => .read fun outputAfter => ?_
    refine checkedI128_ensures (checkedI128_ensures (.reject fun hslip => ?_))
    simp only [not_or, not_lt, not_le, not_not] at hslip
    obtain ⟨hunused, -, hreported, -, -, hout⟩ := hslip
    rw [← hreported] at hunused
    refine .bind ((token_settles hunused).mono (fun s hs => ?_) fun _ _ hs => hs) fun _ =>
      .pure fun _ hs => ⟨hs, hout.le⟩
    obtain ⟨⟨hs, rfl⟩, rfl⟩ := hs
    refine hs.solvent_of_balance fun k => ?_
    have hk := hs.kept k
    simp only [Pi.add_apply, Pi.single_apply] at hk ⊢
    split_ifs <;> simp_all <;> omega
  · exact .fail

lemma swapHops_solvent {first : Address} {rest : List Address} {floors : List ℤ}
    {currentAmount : ℤ} (hn : (first :: rest).Nodup) (hl : floors.length = rest.length)
    (ha : 0 ≤ currentAmount) :
    Tx.Ensures (Solvent h (owed + Pi.single first currentAmount))
      (Tx.fold (swapHop h env sender dex) currentAmount (hopsOf (first :: rest) floors))
      fun amountOut t => ∀ final, (first :: rest).getLast? = some final →
        Solvent h (owed + Pi.single final amountOut) t ∧ 0 ≤ amountOut := by
  induction rest generalizing first floors currentAmount with
  | nil =>
    refine .pure fun s hs final hf => ?_
    obtain rfl : first = final := by simpa using hf
    exact ⟨hs, ha⟩
  | cons next rest ih =>
    obtain ⟨floor, floors, rfl⟩ := List.exists_cons_of_length_eq_add_one hl
    obtain ⟨hfirst, hrest⟩ := List.nodup_cons.mp hn
    have hne : first ≠ next := fun he => hfirst (by simp [he])
    refine .bind (swapHop_solvent ⟨first, next, floor⟩ hne) fun amountOut => ?_
    refine .given fun hout => (ih hrest (by simpa using hl) hout).mono (fun _ hs => hs) ?_
    exact fun _ _ hs final hf => hs final (by simpa [List.getLast?_cons_cons] using hf)

lemma routeMultihopSwap_solvent (hfees : cfg.FeesNonnegative) {amountIn : ℤ} {path : List Address}
    {floors : List ℤ} :
    Tx.Ensures (Solvent h owed) (routeMultihopSwap h cfg env sender recipient dex amountIn path
      floors) fun _ => Solvent h owed := by
  refine withGuard_solvent (solvent_pass .requireOpen fun _ => .reject fun _ => .reject fun _ => ?_)
  refine .reject fun hhops => .reject fun hn => .reject fun _ => .reject fun _ => ?_
  refine .reject fun hamount => solvent_pass verifyKycForAmount_reads fun _ => .demand fun ha => ?_
  refine solvent_pass .checkRateLimit fun _ => loadFeeConfig_ensures fun fees hb hc => ?_
  refine solvent_pass .accrueUserRecord fun userVolume => .unwrap fun firstToken hfirst => ?_
  obtain ⟨rest, rfl⟩ := List.head?_eq_some_iff.mp hfirst
  simp only [not_or, not_lt, not_le, not_not, List.length_cons, Nat.add_sub_cancel] at hhops hamount
  refine solvent_pass (.read _) fun balance => .reject fun _ => ?_
  refine .bind (token_solvent (TokenCall.gains_transfer_in (authorises_ne ha))) fun _ => ?_
  refine .bind (swapHops_solvent (not_not.mp hn) hhops.2.2 hamount.1.le) fun currentAmount => ?_
  refine .unwrap fun finalToken hfinal => ?_
  refine .bind (Q := fun _ => Solvent h owed) (fun s a t hs hr => ?_) fun remainder => ?_
  · obtain ⟨hs, hout⟩ := hs finalToken hfinal
    exact payOut_solvent hout (effectiveFeeBps_nonneg (hfees.bps _ hb)) (hfees.cap _ hc) s a t hs hr
  · exact solvent_pass .bumpHeartbeat fun _ => .pure fun _ hs => hs

lemma quoteSwap_solvent :
    Tx.Ensures (Solvent h owed) (quoteSwap h cfg env dex sellToken buyToken)
      fun _ => Solvent h owed := by
  refine .reject fun _ => .bind (Q := fun _ => Solvent h owed) ?_ fun amountOut => ?_
  · refine .bind (.fix fun reserve => ?_) fun reply => .unwrap fun _ _ => .pure fun _ hs => hs
    exact invoke_holds.mono (fun _ hs => hs) fun _ _ hs => ⟨reserve, hs⟩
  · refine .reject fun _ => solvent_pass pairMaxSlippageBps_reads fun bps => ?_
    exact solvent_pass slippageFloor_reads fun _ => .pure fun _ hs => hs

/-- The input that a DEX called on `t` pays into the router before it answers. -/
def Reply.paysIn (reply : Reply) (h : Host) (tokens : Ledger Address Address) (token : Address) : ℤ :=
  (tokens.others h.self reply.calls).balance token h.self - tokens.balance token h.self

/-- A raw swap that passes its checks goes through a DEX that reports no more unused input than
it has returned. -/
def ReturnsUnused (h : Host) (cfg : Settings) (env : Env) (t : Traffic)
    (sender recipient dexRouter tokenIn tokenOut : Address) (amountIn : ℤ) (path : List Address)
    (minAmountOut : ℤ) : Prop :=
  Tx.succeeds (validateSwapRaw h cfg env sender recipient tokenIn tokenOut amountIn path
    minAmountOut) t = true →
  ∀ tokens, t.tokens.apply (.transfer tokenIn sender dexRouter amountIn) = some tokens →
  ∀ received unused, (env.reply (t.calls + 1)).amounts = [received, unused] →
    unused ≤ (env.reply (t.calls + 1)).paysIn h tokens tokenIn

lemma swapExactTokensForTokens_solvent {amounts : List ℤ} {s t : Traffic}
    (hs : s.Solvent h owed) (hr : swapExactTokensForTokens h env dex s = .ok (amounts, t))
    (token : Address) : amounts = (env.reply s.calls).amounts ∧
      t.Solvent h (owed + Pi.single token ((env.reply s.calls).paysIn h s.tokens token)) := by
  obtain ⟨reply, v, hv, hr⟩ := Tx.bind_ok.mp hr
  obtain ⟨rfl, rfl⟩ := Tx.pure_ok.mp hr
  obtain ⟨rfl, rfl⟩ := invokeContract_ok hv
  obtain ⟨reserve, hs⟩ := hs
  have hl : ({ s with tokens := s.tokens.others h.self (env.reply s.calls).calls } : Traffic).Holds h
      reserve (owed + Pi.single token ((env.reply s.calls).paysIn h s.tokens token)) := by
    refine hs.ledger (Ledger.others_unlent hs.unlent _) fun k => ?_
    rw [Pi.single_apply]
    split_ifs with hk
    · subst hk
      simp [Reply.paysIn]
    · simpa using Ledger.others_balance hs.unlent _ k
  exact ⟨rfl, reserve, hl.unlent, hl.backed, hl.kept⟩

lemma validateSwapRaw_reads {P : Traffic → Prop} {amountIn minAmountOut : ℤ} {path : List Address} :
    Tx.Ensures P (validateSwapRaw h cfg env sender recipient tokenIn tokenOut amountIn path
      minAmountOut) fun _ t => P t ∧ sender ≠ h.self := by
  refine .bind (Q := fun _ => P) (.reject fun _ => .of_reject fun _ _ hs => hs) fun _ => ?_
  refine .reject fun _ => .reject fun _ => .bind (Q := fun _ => P) ?_ fun _ => .reject fun _ => ?_
  · exact .reject fun _ => .reject fun _ => .reject fun _ => .of_reject fun _ _ hs => hs
  refine .pass (R := Eq) (fun _ _ he hs => he ▸ hs) verifyKycForAmount_reads fun _ => ?_
  exact .of_demand fun ha _ hs => ⟨hs, authorises_ne ha⟩

lemma routePaymentWithSwapRaw_solvent {amountIn minAmountOut : ℤ} {path : List Address} :
    Tx.Ensures (fun t => Solvent h owed t ∧ ReturnsUnused h cfg env t sender recipient dex tokenIn
        tokenOut amountIn path minAmountOut)
      (routePaymentWithSwapRaw h cfg env sender recipient dex tokenIn tokenOut amountIn path
        minAmountOut) fun _ => Solvent h owed := by
  rintro s u t ⟨hs, hret⟩ hr
  obtain ⟨v, hv, hr'⟩ := Tx.bind_unit_ok.mp hr
  obtain ⟨rfl, ha⟩ := validateSwapRaw_reads (P := (· = s)) s () v rfl hv
  have hbound := hret (Tx.succeeds_of_ok hv)
  obtain ⟨fees, w, hw, hr'⟩ := Tx.bind_ok.mp hr'
  obtain rfl := loadFeeConfig_reads (R := Eq) _ _ _ hw
  obtain ⟨w, hw, hr'⟩ := Tx.bind_unit_ok.mp hr'
  have hsw := token_idle (TokenCall.gains_transfer_other ha) _ _ _ hs hw
  obtain ⟨tokens, ht, -, rfl⟩ := token_ok hw
  obtain ⟨amounts, x, hx, hr'⟩ := Tx.bind_ok.mp hr'
  obtain ⟨hamounts, hsx⟩ := swapExactTokensForTokens_solvent hsw hx tokenIn
  split at hr'
  · rename_i received unused
    obtain ⟨hslip, hr'⟩ := Tx.reject_bind_ok.mp hr'
    simp only [not_or, not_lt, not_le] at hslip
    have hle := hbound tokens ht received unused hamounts.symm
    have hdue := Solvent.mono hsx (add_le_add le_rfl (Pi.single_le_single.mpr hle))
    exact Tx.Ensures.bind (token_settles hslip.2.2) (fun _ => processSinglePayment_solvent ha)
      x u t hdue hr'
  · simp at hr'

end Swaps

/-- Neither of two things happens: a raw swap through a DEX that reports unused input it has not
returned, and a swap under a negative fee. The treasury's own withdrawals are left out. -/
def Covered (h : Host) (s : State) (call : Call) : Prop :=
  match call.op with
  | .route (.routePaymentWithSwapRaw sender recipient dexRouter tokenIn tokenOut amountIn path
      minAmountOut) =>
    ReturnsUnused h s.settings call.env s.traffic sender recipient dexRouter tokenIn tokenOut
      amountIn path minAmountOut
  | .route (.routePaymentWithSwap _) | .route (.routePaymentsWithSwap _)
  | .route (.routeSplitPaymentWithSwap _ _ _ _ _ _) | .route (.routeMultihopSwap _ _ _ _ _ _) =>
    s.settings.FeesNonnegative
  | .treasury (.recoverTokens _ _) | .treasury (.emergencyWithdraw _ _)
  | .treasury (.pruneArchivedEntries _ _) => False
  | _ => True

section Steps

variable {s t : State} {u : Unit}

lemma RoutingOp.invoke_solvent {op : RoutingOp} (hc : Covered h s ⟨env, .route op⟩)
    (hs : s.traffic.Solvent h owed) {t : Traffic}
    (hr : op.invoke h env s.settings s.traffic = .ok (u, t)) : t.Solvent h owed := by
  cases op with
  | routePayment payment => exact routePayment_solvent payment _ _ _ hs hr
  | routePayments payments => exact routePayments_solvent payments _ _ _ hs hr
  | routePaymentMeta payment signerPubkey nonce deadline signature =>
    exact routePaymentMeta_solvent _ _ _ hs hr
  | routePaymentWithQuote sender recipient quote makerPubkey signature =>
    exact routePaymentWithQuote_solvent.void _ _ _ hs hr
  | routePaymentWithSwapRaw sender recipient dexRouter tokenIn tokenOut amountIn path minAmountOut =>
    exact routePaymentWithSwapRaw_solvent _ _ _ ⟨hs, hc⟩ hr
  | routePaymentWithSwap payment => exact (routePaymentWithSwap_solvent hc payment).void _ _ _ hs hr
  | routePaymentsWithSwap payments =>
    exact (routePaymentsWithSwap_solvent hc payments).void _ _ _ hs hr
  | routeSplitPaymentWithSwap sender recipient sellToken buyToken amountIn splits =>
    exact (routeSplitPaymentWithSwap_solvent hc).void _ _ _ hs hr
  | routeMultihopSwap sender recipient dex amountIn path floors =>
    exact (routeMultihopSwap_solvent hc).void _ _ _ hs hr
  | quoteSwap dex sellToken buyToken => exact quoteSwap_solvent.void _ _ _ hs hr
  | withdrawRefund user tokenAddress amount => exact withdrawRefund_solvent _ _ _ hs hr
  | claimAllRefunds user tokenAddress => exact claimAllRefunds_solvent.void _ _ _ hs hr
  | migrateUserRecord user => exact migrateUserRecord_solvent.void _ _ _ hs hr

lemma callYieldProtocol_solvent : Tx.Ensures (fun s : State => s.traffic.Solvent h owed)
    (callYieldProtocol h env) fun _ s => s.traffic.Solvent h owed := by
  refine .inspect (.read _) fun protocol => .unwrap fun _ _ => ?_
  intro s reply t ⟨reserve, hs⟩ hr
  obtain ⟨v, hv, rfl⟩ := routing_ok.mp hr
  exact ⟨reserve, invokeContract_holds _ _ _ hs hv⟩

lemma depositToYield_solvent (token : Address) (amount : ℤ) :
    Tx.Ensures (fun s : State => s.traffic.Solvent h owed) (depositToYield h env token amount)
      fun _ s => s.traffic.Solvent h owed := by
  refine .inspect reads_requireCircuitClosed fun _ => .reject fun _ => ?_
  refine .inspect reads_requireRole fun _ => ?_
  refine .inspect loadTreasury_reads fun _ => .demand fun _ => ?_
  refine .bind callYieldProtocol_solvent fun _ => .inspect (.read _) fun _ => ?_
  exact checkedI128_ensures (.update fun _ hs => hs)

lemma withdrawFromYield_solvent (token : Address) (amount : ℤ) :
    Tx.Ensures (fun s : State => s.traffic.Solvent h owed) (withdrawFromYield h env token amount)
      fun _ s => s.traffic.Solvent h owed := by
  refine .inspect reads_requireCircuitClosed fun _ => .inspect (.read _) fun _ => ?_
  refine .reject fun _ => .inspect reads_requireRole fun _ => ?_
  refine .inspect loadTreasury_reads fun _ => ?_
  exact .bind callYieldProtocol_solvent fun _ => .update fun _ hs => hs

lemma harvestYield_solvent : Tx.Ensures (fun s : State => s.traffic.Solvent h owed)
    (harvestYield h env) fun _ s => s.traffic.Solvent h owed := by
  refine .inspect reads_requireCircuitClosed fun _ => .inspect reads_requireRole fun _ => ?_
  refine .inspect loadTreasury_reads fun _ => ?_
  exact .bind callYieldProtocol_solvent fun _ => .pure fun _ hs => hs

lemma step_solvent (call : Call) (hs : s.traffic.Solvent h 0) (hc : Covered h s call) :
    (step h call s).traffic.Solvent h 0 := by
  obtain ⟨env, op⟩ := call
  rcases step_cases h ⟨env, op⟩ s with he | hr
  · rwa [he]
  cases op with
  | administer op =>
    have ht := (AdminOp.invoke_administered hr).traffic
    exact hs.quiet ⟨by rw [ht], by rw [ht], by rw [ht]⟩
  | configure op =>
    obtain ⟨c, -, hc⟩ := ConfigOp.invoke_frame hr
    rw [hc]
    exact hs
  | timelock op =>
    refine TimelockOp.invoke_preserves (I := fun s => s.traffic.Solvent h 0) (fun _ _ hs => hs)
      (fun s t action hs ha => ?_) hs hr
    exact hs.quiet ⟨by rw [ha.traffic], by rw [ha.traffic], by rw [ha.traffic]⟩
  | group op =>
    rw [(GroupOp.invoke_ok hr).2]
    exact hs
  | route op =>
    simp only [Op.invoke, routing_ok] at hr
    obtain ⟨v, hv, ht⟩ := hr
    rw [ht]
    exact RoutingOp.invoke_solvent hc hs hv
  | treasury op =>
    cases op with
    | depositToYield token amount => exact depositToYield_solvent token amount _ _ _ hs hr
    | withdrawFromYield token amount => exact withdrawFromYield_solvent token amount _ _ _ hs hr
    | harvestYield => exact harvestYield_solvent.void _ _ _ hs hr
    | _ => exact hc.elim
  | outside call =>
    simp only [Op.invoke, modifyTraffic_ok] at hr
    obtain ⟨reserve, hs⟩ := hs
    rw [hr]
    exact ⟨reserve, hs.others [call]⟩

end Steps

/-- The router's balance of a token covers all its refunds, whatever the DEX contracts do. -/
theorem refunds_stay_backed (h : Host) (tokens : Ledger Address Address) (calls : List Call)
    (hu : tokens.Unlent h.self) (hb : ∀ token, 0 ≤ tokens.balance token h.self)
    (hc : Along (step h) (Covered h) (State.fresh tokens) calls) (token : Address)
    (users : Finset Address) :
    ∑ user ∈ users, (after h tokens calls).traffic.refund user token ≤
      (after h tokens calls).traffic.tokens.balance token h.self := by
  have hfresh : (State.fresh tokens).traffic.Solvent h 0 :=
    ⟨0, hu, fun _ => Backed.empty le_rfl, fun k => by simpa [State.fresh] using hb k⟩
  obtain ⟨reserve, hs⟩ := run_invariant (I := fun s : State => s.traffic.Solvent h 0)
    (fun _ call hs hc => step_solvent call hs hc) hfresh hc
  have hk := hs.kept token
  simp only [Pi.zero_apply, add_zero] at hk
  exact ((hs.backed token).covered users).trans hk

section Examples

/-- The payment to `⟨4⟩` is refused, and the router keeps it as the refund of `⟨2⟩`. -/
def heldRefund : List Call :=
  [⟨signedBy [⟨1⟩], .administer (.initializeRouter ⟨1⟩ ⟨9⟩ 0 0 1000)⟩,
    ⟨{}, .outside (.mint ⟨20⟩ ⟨2⟩ 100)⟩,
    ⟨{}, .outside (.mint ⟨20⟩ ⟨3⟩ 1)⟩,
    ⟨{}, .outside (.mint ⟨21⟩ ⟨3⟩ 1)⟩,
    ⟨{ signedBy [⟨2⟩] with reply := fun n => { accepts := decide (n = 1) } },
      .route (.routePayment ⟨⟨2⟩, ⟨4⟩, ⟨20⟩, 100⟩)⟩]

/-- A DEX that reports an output of `1` and so much unused input, and returns none of it. -/
def rawSwap (unused : ℤ) : Call :=
  ⟨{ signedBy [⟨3⟩] with
      reply := fun _ => { accepts := true, returns := true, amounts := [1, unused] } },
    .route (.routePaymentWithSwapRaw ⟨3⟩ ⟨4⟩ ⟨6⟩ ⟨20⟩ ⟨21⟩ 1 [⟨20⟩, ⟨21⟩] 1)⟩

theorem refunds_stay_backed_swap :
    ∑ user ∈ {⟨2⟩}, (after .sample emptyLedger (heldRefund ++ [rawSwap 0])).traffic.refund
        user ⟨20⟩ ≤
      (after .sample emptyLedger (heldRefund ++ [rawSwap 0])).traffic.tokens.balance ⟨20⟩ ⟨0⟩ := by
  refine refunds_stay_backed .sample emptyLedger (heldRefund ++ [rawSwap 0]) (fun _ _ => le_rfl)
    (fun _ => le_rfl) ⟨trivial, trivial, trivial, trivial, trivial, ?_, trivial⟩ ⟨20⟩ {⟨2⟩}
  intro _ tokens _ received unused hreply
  obtain ⟨-, rfl⟩ : 1 = received ∧ 0 = unused := by simpa [rawSwap] using hreply
  simp [Reply.paysIn, Ledger.others, rawSwap]

theorem refund_drained :
    ¬ ∑ user ∈ {⟨2⟩}, (after .sample emptyLedger (heldRefund ++ [rawSwap 100])).traffic.refund
        user ⟨20⟩ ≤
      (after .sample emptyLedger (heldRefund ++ [rawSwap 100])).traffic.tokens.balance ⟨20⟩ ⟨0⟩ := by
  rw [Finset.sum_singleton]
  decide

end Examples

end StellarTags.Router
