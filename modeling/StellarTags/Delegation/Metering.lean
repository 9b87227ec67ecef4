import StellarTags.Delegation.Outlays

/-! What each entry point of the router takes from an account, against what it names. -/

namespace StellarTags.Router

open Library.Transactions Library.Integers Library.Tokens Soroban
open Traffic

variable {h : Host} {cfg : Settings} {env : Env} {s t : Traffic} {account : Address}
  {base n k : ℤ}

section Swaps

variable {sender recipient dex tokenIn tokenOut sellToken buyToken user tokenAddress : Address}
  {platformTreasury : Address} {amountIn minAmountOut feeBps feeCap amount : ℤ}
  {path : List Address} {swap : SwapPayment} {swaps : List SwapPayment}

def SwapPayment.spend (swap : SwapPayment) : Address × ℤ := (swap.sender, swap.amountIn)

lemma payer_transfer_ne {token source target : Address} {n : ℤ} (hs : account ≠ source) :
    (TokenCall.transfer token source target n).payer ≠ some account := by
  simpa [TokenCall.payer] using hs.symm

lemma routePaymentWithQuote_paid {quote : Quote} {makerPubkey : PublicKey} {signature : Signature}
    (hs : account ≠ sender) (hm : account ≠ quote.maker) :
    Tx.Ensures (Paid account base n) (routePaymentWithQuote h cfg env sender recipient quote
      makerPubkey signature) fun _ => Paid account base n := by
  refine withGuard_paid (paid_pass .requireOpen fun _ => ?_)
  refine .reject fun _ => .reject fun _ => .reject fun _ => .reject fun _ => ?_
  refine paid_pass (.read _) fun used => .reject fun _ => .reject fun _ => ?_
  refine paid_pass verifyKycForAmount_reads fun _ => paid_pass loadFeeConfig_reads fun _ => ?_
  refine .demand fun _ => .demand fun _ => .demand fun _ => ?_
  refine paid_pass .checkRateLimit fun _ => ?_
  refine paid_pass (.read _) fun input => paid_pass (.read _) fun output => .reject fun _ => ?_
  refine paid_pass .accrueUserRecord fun _ => paid_pass (.update fun _ => ⟨rfl, rfl, rfl⟩) fun _ => ?_
  refine .bind (token_idle_paid (payer_transfer_ne hs)) fun _ => ?_
  refine .bind (token_idle_paid (payer_transfer_ne hm)) fun _ => ?_
  exact paid_pass .bumpHeartbeat fun _ => .pure fun _ hs => hs

lemma withdrawRefund_paid (ha : account ≠ h.self) : Tx.Ensures (Paid account base n)
    (withdrawRefund h env user tokenAddress amount) fun _ => Paid account base n := by
  refine .demand fun _ => .reject fun _ => .read fun balance => .reject fun _ => ?_
  refine .bind (Q := fun _ => Paid account base n) (.update fun s hs => ?_) fun _ =>
    token_idle_paid (payer_transfer_ne ha)
  exact hs.1.publish_free (.withdrawn user tokenAddress amount) rfl rfl

lemma claimAllRefunds_paid (ha : account ≠ h.self) : Tx.Ensures (Paid account base n)
    (claimAllRefunds h env user tokenAddress) fun _ => Paid account base n := by
  refine .demand fun _ => paid_pass (.read _) fun balance => .reject fun _ => ?_
  exact .bind (withdrawRefund_paid ha) fun _ => .pure fun _ hs => hs

lemma migrateUserRecord_paid : Tx.Ensures (Paid account base n) (migrateUserRecord env user)
    fun _ => Paid account base n := by
  refine paid_pass (.read _) fun loaded => ?_
  split_ifs
  · exact .pure fun _ hs => hs
  · refine paid_pass (.read _) fun packed => ?_
    refine paid_pass (.whenever fun _ => .update fun _ => ⟨rfl, rfl, rfl⟩) fun _ => ?_
    exact paid_pass (.update fun _ => ⟨rfl, rfl, rfl⟩) fun _ => .pure fun _ hs => hs

lemma invokeDexSwap_paid : Tx.Ensures (Paid account base n) (invokeDexSwap h env dex)
    fun _ => Paid account base n :=
  .bind invoke_paid fun _ => .unwrap fun _ _ => .pure fun _ hs => hs

lemma swapExactTokensForTokens_paid : Tx.Ensures (Paid account base n)
    (swapExactTokensForTokens h env dex) fun _ => Paid account base n :=
  .bind invokeContract_paid fun _ => .pure fun _ hs => hs

lemma quoteSwap_paid : Tx.Ensures (Paid account base n) (quoteSwap h cfg env dex sellToken buyToken)
    fun _ => Paid account base n := by
  refine .reject fun _ => .bind (Q := fun _ => Paid account base n) ?_ fun amountOut => ?_
  · exact .bind invoke_paid fun _ => .unwrap fun _ _ => .pure fun _ hs => hs
  · refine .reject fun _ => paid_pass pairMaxSlippageBps_reads fun bps => ?_
    exact paid_pass slippageFloor_reads fun _ => .pure fun _ hs => hs

lemma routePaymentWithSwapRaw_paid (ha : account ≠ h.self) (hs : account ≠ sender) :
    Tx.Ensures (Paid account base n) (routePaymentWithSwapRaw h cfg env sender recipient dex tokenIn
      tokenOut amountIn path minAmountOut) fun _ => Paid account base n := by
  refine paid_pass ?_ fun _ => paid_pass loadFeeConfig_reads fun fees => ?_
  · refine .bind .requireOpen fun _ => .bind (.reject _ _) fun _ => .bind (.reject _ _) fun _ => ?_
    refine .bind ?_ fun _ => .bind (.reject _ _) fun _ => .bind verifyKycForAmount_reads fun _ =>
      .demand _
    exact .bind (.reject _ _) fun _ => .bind (.reject _ _) fun _ => .bind (.reject _ _) fun _ =>
      .reject _ _
  refine .bind (token_idle_paid (payer_transfer_ne hs)) fun _ => ?_
  refine .bind swapExactTokensForTokens_paid fun result => ?_
  split
  · refine .reject fun _ => .bind (Q := fun _ => Paid account base n) ?_ fun _ => ?_
    · exact .whenever (fun _ => token_idle_paid (payer_transfer_ne ha)) fun _ _ hs => hs
    · intro s u t hpaid hr
      have ho := processSinglePayment_outlay (fun he => absurd he hs) hr
      rw [if_neg hs, add_zero] at ho
      exact ⟨ho ▸ hpaid.grown, ho ▸ hpaid.bounded⟩
  · exact .fail

lemma processSingleSwapPayment_paid (ha : account ≠ h.self) :
    Tx.Ensures (Paid account base n) (processSingleSwapPayment h cfg env swap platformTreasury
      feeBps feeCap)
      fun _ => Paid account base (n + if account = swap.sender then swap.amountIn else 0) := by
  refine .demand fun _ => paid_pass (.reject _ _) fun _ => paid_pass validateSwap_reads fun _ => ?_
  refine paid_pass .accrueUserRecord fun volume => paid_pass (.read _) fun balance => ?_
  refine .reject fun _ => paid_pass (.read _) fun before => .bind token_paid fun _ => ?_
  refine .bind (token_idle_paid (payer_transfer_ne ha)) fun _ => .bind invokeDexSwap_paid fun _ => ?_
  refine .reject fun _ => paid_pass (.read _) fun after => checkedI128_ensures ?_
  exact paid_pass checkSlippage_reads fun _ => payOut_paid ha

lemma routePaymentWithSwap_paid (ha : account ≠ h.self) :
    Tx.Ensures (Paid account base n) (routePaymentWithSwap h cfg env swap)
      fun _ => Paid account base (n + Proxy.spent account [swap.spend]) := by
  refine withGuard_paid (.reject fun _ => paid_pass (.reject _ _) fun _ => ?_)
  refine paid_pass loadFeeConfig_reads fun fees => ?_
  have hspent : Proxy.spent account [swap.spend] =
      if account = swap.sender then swap.amountIn else 0 := by
    simp [SwapPayment.spend, eq_comm]
  rw [hspent]
  exact processSingleSwapPayment_paid ha

lemma processSwaps_paid (ha : account ≠ h.self) {total : ℤ} :
    Tx.Ensures (Paid account base n) (Tx.fold (fun totalDelivered swap => do
      let delivered ← processSingleSwapPayment h cfg env swap platformTreasury feeBps feeCap
      checkedI128 (totalDelivered + delivered)) total swaps)
      fun _ => Paid account base (n + Proxy.spent account (swaps.map SwapPayment.spend)) := by
  induction swaps generalizing n total with
  | nil => exact .pure fun s hs => hs.mono (by simp)
  | cons swap swaps ih =>
    have hspent : n + Proxy.spent account ((swap :: swaps).map SwapPayment.spend) =
        n + (if account = swap.sender then swap.amountIn else 0) +
          Proxy.spent account (swaps.map SwapPayment.spend) := by
      simp [SwapPayment.spend, eq_comm (a := account), add_assoc]
    rw [hspent]
    refine .bind (.bind (processSingleSwapPayment_paid ha) fun delivered => ?_) fun total => ih
    exact .of_respects (R := Quiet) checkedI128_reads fun _ _ hq hs => hs.quiet hq

lemma routePaymentsWithSwap_paid (ha : account ≠ h.self) :
    Tx.Ensures (Paid account base n) (routePaymentsWithSwap h cfg env swaps)
      fun _ => Paid account base (n + Proxy.spent account (swaps.map SwapPayment.spend)) := by
  refine withGuard_paid (.reject fun _ => paid_pass (.reject _ _) fun _ => ?_)
  exact paid_pass loadFeeConfig_reads fun fees => processSwaps_paid ha

lemma swapSplit_paid (ha : account ≠ h.self) {progress : SplitProgress}
    {item : SplitRoute × Bool} : Tx.Ensures (Paid account base n)
      (swapSplit h env sellToken buyToken amountIn progress item) fun _ => Paid account base n := by
  refine paid_pass ?_ fun share => checkedI128_ensures (.reject fun _ => ?_)
  · unfold splitShare
    split_ifs
    · exact checkedI128_reads
    · exact .bind checkedI128_reads fun _ => .pure _
  refine paid_pass (.read _) fun before => ?_
  refine .bind (token_idle_paid (payer_transfer_ne ha)) fun _ => ?_
  refine .bind invokeDexSwap_paid fun output => paid_pass (.read _) fun after => ?_
  exact checkedI128_ensures (.reject fun _ => .reject fun _ => .pure fun _ hs => hs)

lemma routeSplitPaymentWithSwap_paid (ha : account ≠ h.self) (hs : account ≠ sender)
    {splits : List SplitRoute} : Tx.Ensures (Paid account base n)
      (routeSplitPaymentWithSwap h cfg env sender recipient sellToken buyToken amountIn splits)
        fun _ => Paid account base n := by
  refine withGuard_paid (.reject fun _ => paid_pass (.reject _ _) fun _ => ?_)
  refine paid_pass loadFeeConfig_reads fun fees => .demand fun _ => .reject fun _ => ?_
  refine .reject fun _ => paid_pass (.fold fun _ _ _ => ?_) fun totalWeight => ?_
  · exact .bind (.reject _ _) fun _ => .bind (.reject _ _) fun _ => .bind (.reject _ _) fun _ =>
      .pure _
  refine .reject fun _ => .reject fun _ => .reject fun _ => .reject fun _ => .reject fun _ => ?_
  refine paid_pass .accrueUserRecord fun userVolume => paid_pass (.read _) fun balance => ?_
  refine .reject fun _ => .bind (token_idle_paid (payer_transfer_ne hs)) fun _ => ?_
  refine .bind (Q := fun _ => Paid account base n) ?_ fun progress => payOut_paid ha
  exact .fold (I := fun _ => Paid account base n) fun progress item _ => swapSplit_paid ha

lemma swapHop_paid (ha : account ≠ h.self) {hop : Hop} : Tx.Ensures (Paid account base n)
    (swapHop h env sender dex amount hop) fun _ => Paid account base n := by
  refine paid_pass (.read _) fun inputBefore => paid_pass (.read _) fun outputBefore => ?_
  refine .bind (token_idle_paid (payer_transfer_ne ha)) fun _ => ?_
  refine .bind swapExactTokensForTokens_paid fun result => ?_
  split
  · refine paid_pass (.read _) fun inputAfter => paid_pass (.read _) fun outputAfter => ?_
    refine checkedI128_ensures (checkedI128_ensures (.reject fun _ => ?_))
    refine .bind (Q := fun _ => Paid account base n) ?_ fun _ => .pure fun _ hs => hs
    exact .whenever (fun _ => token_idle_paid (payer_transfer_ne ha)) fun _ _ hs => hs
  · exact .fail

lemma routeMultihopSwap_paid (ha : account ≠ h.self) (hs : account ≠ sender) {floors : List ℤ} :
    Tx.Ensures (Paid account base n) (routeMultihopSwap h cfg env sender recipient dex amountIn path
      floors) fun _ => Paid account base n := by
  refine withGuard_paid (paid_pass .requireOpen fun _ => ?_)
  refine .reject fun _ => .reject fun _ => .reject fun _ => .reject fun _ => .reject fun _ => ?_
  refine .reject fun _ => .reject fun _ => paid_pass verifyKycForAmount_reads fun _ => ?_
  refine .demand fun _ => paid_pass .checkRateLimit fun _ => ?_
  refine paid_pass loadFeeConfig_reads fun fees => ?_
  refine paid_pass .accrueUserRecord fun userVolume => .unwrap fun firstToken _ => ?_
  refine paid_pass (.read _) fun balance => .reject fun _ => ?_
  refine .bind (token_idle_paid (payer_transfer_ne hs)) fun _ => ?_
  refine .bind (Q := fun _ => Paid account base n) ?_ fun currentAmount => ?_
  · exact .fold (I := fun _ => Paid account base n) fun amount hop _ => swapHop_paid ha
  refine .unwrap fun finalToken _ => .bind (payOut_paid ha) fun remainder => ?_
  exact paid_pass .bumpHeartbeat fun _ => .pure fun _ hs => hs

end Swaps

def RoutingOp.spends : RoutingOp → List (Address × ℤ)
  | .routePayment payment | .routePaymentMeta payment _ _ _ _ => [payment.spend]
  | .routePayments payments => payments.map Payment.spend
  | .routePaymentWithSwapRaw sender _ _ _ _ amountIn _ _ => [(sender, amountIn)]
  | .routePaymentWithSwap payment => [payment.spend]
  | .routePaymentsWithSwap payments => payments.map SwapPayment.spend
  | .withdrawRefund user _ amount => [(user, amount)]
  | _ => []

/-- The call takes from the account no more than it names: it is no quote, split or multi-hop swap
that the account pays for, no raw swap of the account's, and no payment of the account's with a
negative fee. -/
def RoutingOp.Frugal (cfg : Settings) (t : Traffic) (account : Address) : RoutingOp → Prop
  | .routePayment payment => cfg.PaysNoBonus account (t.lifetimeVolume account) [payment]
  | .routePayments payments => cfg.PaysNoBonus account (t.lifetimeVolume account) payments
  | .routePaymentMeta payment _ _ _ _ => account = payment.sender →
    cfg.Charges (t.lifetimeVolume account) (NoSignedBonus payment.amount)
  | .routePaymentWithQuote sender _ quote _ _ => account ≠ sender ∧ account ≠ quote.maker
  | .routePaymentWithSwapRaw sender _ _ _ _ _ _ _
  | .routeSplitPaymentWithSwap sender _ _ _ _ _
  | .routeMultihopSwap sender _ _ _ _ _ => account ≠ sender
  | _ => True

section Operations

lemma Traffic.Paid.refl (s : Traffic) (account : Address) :
    s.Paid account (s.outlay account) 0 := ⟨le_rfl, by omega⟩

lemma Traffic.Paid.of_outlay (hk : 0 ≤ k) (ht : t.outlay account = s.outlay account + k) :
    t.Paid account (s.outlay account) k := ⟨by omega, ht.le⟩

/-- A frugal call takes from the account at most what it names, and nothing where it names the
account nowhere. -/
lemma RoutingOp.invoke_paid {op : RoutingOp} {u : Unit} (ha : account ≠ h.self)
    (hpos : ∀ spend ∈ op.spends, spend.1 = account → 0 < spend.2)
    (hm : op.Frugal cfg s account) (hr : op.invoke h env cfg s = .ok (u, t)) :
    t.Paid account (s.outlay account) (Proxy.spent account op.spends) := by
  have hspent : 0 ≤ Proxy.spent account op.spends := Proxy.spent_nonneg hpos
  have hstands : s.Stands account (s.outlay account) (s.lifetimeVolume account) := ⟨rfl, rfl⟩
  have hfree {m : Routing Unit} (hm : Tx.Ensures (Paid account (s.outlay account) 0) m
      fun _ => Paid account (s.outlay account) 0) (hr : m s = .ok (u, t)) :
      t.Paid account (s.outlay account) (Proxy.spent account op.spends) :=
    (hm s u t (.refl s account) hr).mono hspent
  have hcharged {m : Routing Unit} {k : ℤ} (hm : Tx.Ensures (Paid account (s.outlay account) 0) m
      fun _ => Paid account (s.outlay account) (0 + k)) (hr : m s = .ok (u, t)) :
      t.Paid account (s.outlay account) k := by
    have ht := hm s u t (.refl s account) hr
    rwa [zero_add] at ht
  cases op with
  | routePayment payment =>
    have hp : account = payment.sender → 0 < payment.amount := fun he =>
      hpos payment.spend (by simp [spends]) he.symm
    exact .of_outlay hspent (routePayment_outlay hp hm s u t hstands hr)
  | routePayments payments =>
    have hp : ∀ payment ∈ payments, account = payment.sender → 0 < payment.amount :=
      fun payment hmem he => hpos payment.spend (List.mem_map_of_mem hmem) he.symm
    exact .of_outlay hspent (routePayments_outlay hp hm s u t hstands hr)
  | routePaymentMeta payment signerPubkey nonce deadline signature =>
    have hp : account = payment.sender → 0 < payment.amount := fun he =>
      hpos payment.spend (by simp [spends]) he.symm
    exact .of_outlay hspent (routePaymentMeta_outlay hp hm s u t hstands hr)
  | routePaymentWithQuote sender recipient quote makerPubkey signature =>
    exact hfree (routePaymentWithQuote_paid hm.1 hm.2).void hr
  | routePaymentWithSwapRaw sender recipient dexRouter tokenIn tokenOut amountIn path minAmountOut =>
    exact hfree (routePaymentWithSwapRaw_paid ha hm) hr
  | routePaymentWithSwap payment => exact hcharged (routePaymentWithSwap_paid ha).void hr
  | routePaymentsWithSwap payments => exact hcharged (routePaymentsWithSwap_paid ha).void hr
  | routeSplitPaymentWithSwap sender recipient sellToken buyToken amountIn splits =>
    exact hfree (routeSplitPaymentWithSwap_paid ha hm).void hr
  | routeMultihopSwap sender recipient dex amountIn path floors =>
    exact hfree (routeMultihopSwap_paid ha hm).void hr
  | quoteSwap dex sellToken buyToken => exact hfree quoteSwap_paid.void hr
  | withdrawRefund user tokenAddress amount => exact hfree (withdrawRefund_paid ha) hr
  | claimAllRefunds user tokenAddress => exact hfree (claimAllRefunds_paid ha).void hr
  | migrateUserRecord user => exact hfree migrateUserRecord_paid.void hr

lemma routing_paid {α : Type} {m : Settings → Routing α}
    (hm : ∀ cfg, Tx.Ensures (Paid account base n) (m cfg) fun _ => Paid account base n) :
    Tx.Ensures (fun s : State => s.traffic.Paid account base n) (routing m)
      fun _ s => s.traffic.Paid account base n := by
  intro s a t hs hr
  obtain ⟨v, hv, rfl⟩ := routing_ok.mp hr
  exact hm s.settings _ _ _ hs hv

lemma TreasuryOp.invoke_paid {op : TreasuryOp} (ha : account ≠ h.self) :
    Tx.Ensures (fun s : State => s.traffic.Paid account base n) (op.invoke h env)
      fun _ s => s.traffic.Paid account base n := by
  have hyield : Tx.Ensures (fun s : State => s.traffic.Paid account base n) (callYieldProtocol h env)
      fun _ s => s.traffic.Paid account base n :=
    .inspect (.read _) fun _ => .unwrap fun _ _ => routing_paid fun _ => invokeContract_paid
  cases op with
  | recoverTokens token amount =>
    refine .inspect reads_requireCircuitClosed fun _ => .inspect reads_requireRole fun _ => ?_
    exact routing_paid fun _ => token_idle_paid (payer_transfer_ne ha)
  | emergencyWithdraw token amount =>
    refine .inspect reads_requireRole fun _ => routing_paid fun _ => withGuard_paid ?_
    refine .reject fun _ => paid_pass (.read _) fun _ => .reject fun _ => ?_
    exact token_idle_paid (payer_transfer_ne ha)
  | depositToYield token amount =>
    refine .inspect reads_requireCircuitClosed fun _ => .reject fun _ => ?_
    refine .inspect reads_requireRole fun _ => .inspect loadTreasury_reads fun _ => ?_
    refine .demand fun _ => .bind hyield fun _ => .inspect (.read _) fun _ => ?_
    exact checkedI128_ensures (.update fun _ hs => hs)
  | withdrawFromYield token amount =>
    refine .inspect reads_requireCircuitClosed fun _ => .inspect (.read _) fun _ => ?_
    refine .reject fun _ => .inspect reads_requireRole fun _ => ?_
    exact .inspect loadTreasury_reads fun _ => .bind hyield fun _ => .update fun _ hs => hs
  | harvestYield =>
    refine .void (.inspect reads_requireCircuitClosed fun _ => ?_)
    refine .inspect reads_requireRole fun _ => .inspect loadTreasury_reads fun _ => ?_
    exact .bind hyield fun _ => .pure fun _ hs => hs
  | pruneArchivedEntries committedEpoch leaves =>
    refine .void (.inspect respects_requireNotFrozen fun _ => ?_)
    refine .inspect reads_requireRole fun _ => .inspect (.read _) fun _ => ?_
    refine .reject fun _ => routing_paid fun _ => ?_
    refine .fold (I := fun _ => Paid account base n) fun removed leaf _ => ?_
    refine paid_pass (.read _) fun held => ?_
    refine .bind (Q := fun _ => Paid account base n) (.update fun s hs => ?_) fun _ =>
      .pure fun _ hs => hs
    unfold Traffic.prune
    split
    · exact hs.quiet ⟨rfl, rfl, rfl⟩
    · exact hs.quiet ⟨rfl, rfl, rfl⟩
    · exact hs.publish_free (.pruned _ _ _) rfl rfl

def Op.spends : Op → List (Address × ℤ)
  | .route op => op.spends
  | _ => []

def Op.Frugal (s : State) (account : Address) : Op → Prop
  | .route op => op.Frugal s.settings s.traffic account
  | _ => True

lemma Op.invoke_paid {op : Op} {s t : State} (ha : account ≠ h.self)
    (hpos : ∀ spend ∈ op.spends, spend.1 = account → 0 < spend.2) (hm : op.Frugal s account)
    (hr : op.invoke h env s = .ok ((), t)) :
    t.traffic.Paid account (s.traffic.outlay account) (Proxy.spent account op.spends) := by
  have hstart := Traffic.Paid.refl s.traffic account
  cases op with
  | administer op =>
    have ht := (AdminOp.invoke_administered hr).traffic
    exact hstart.quiet ⟨by rw [ht], by rw [ht], by rw [ht]⟩
  | configure op =>
    obtain ⟨c, -, rfl⟩ := ConfigOp.invoke_frame hr
    exact hstart
  | timelock op =>
    refine TimelockOp.invoke_preserves
      (I := fun t => t.traffic.Paid account (s.traffic.outlay account) 0) (fun _ _ hs => hs)
      (fun v w action hs ha => ?_) hstart hr
    exact hs.quiet ⟨by rw [ha.traffic], by rw [ha.traffic], by rw [ha.traffic]⟩
  | group op =>
    rw [(GroupOp.invoke_ok hr).2]
    exact hstart
  | route op =>
    simp only [Op.invoke, routing_ok] at hr
    obtain ⟨v, hv, rfl⟩ := hr
    exact RoutingOp.invoke_paid ha hpos hm hv
  | treasury op => exact TreasuryOp.invoke_paid ha s () t hstart hr
  | outside call =>
    simp only [Op.invoke, modifyTraffic_ok] at hr
    rw [hr]
    exact ⟨hstart.grown, hstart.bounded⟩

end Operations

end StellarTags.Router
