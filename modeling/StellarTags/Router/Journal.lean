import StellarTags.Router.Custody
import StellarTags.Router.Frames

/-! What payments do to tokens and refunds, one published deed at a time. -/

namespace StellarTags.Router

open Library.Transactions Library.Integers Library.Tokens Soroban

/-- What an entry point may do besides moving tokens and crediting refunds: call outside contracts,
and lower the refund of a user in a token. -/
structure Licence where
  invokes : Address → Prop
  withdraws : Address → Address → Prop
  prunes : Address → Address → Prop

/-- The licence covers swaps with every registered DEX while none are paused. -/
def Licence.Swaps (licence : Licence) (cfg : Settings) : Prop :=
  ∀ dex, cfg.registeredDex dex = true → cfg.getPauseLevel = .none → licence.invokes dex

/-- The outside contracts that an entry point may call under these settings. -/
def RoutingOp.MayInvoke (cfg : Settings) (contract : Address) : RoutingOp → Prop
  | .routePaymentWithSwapRaw _ _ dexRouter _ _ _ _ _ =>
    contract = dexRouter ∧ cfg.getPauseLevel ≠ .fullHalt
  | .routePaymentWithSwap _ | .routePaymentsWithSwap _ | .routeSplitPaymentWithSwap _ _ _ _ _ _ =>
    cfg.registeredDex contract = true ∧ cfg.getPauseLevel = .none
  | .routeMultihopSwap _ _ _ _ _ _ =>
    cfg.registeredDex contract = true ∧ cfg.getPauseLevel ≠ .fullHalt
  | .quoteSwap _ _ _ => cfg.registeredDex contract = true
  | _ => False

def RoutingOp.MayWithdraw (user token : Address) : RoutingOp → Prop
  | .withdrawRefund owner tokenAddress _ | .claimAllRefunds owner tokenAddress =>
    user = owner ∧ token = tokenAddress
  | _ => False

def TreasuryOp.MayInvoke (cfg : Settings) (contract : Address) : TreasuryOp → Prop
  | .depositToYield _ _ | .withdrawFromYield _ _ | .harvestYield =>
    cfg.yieldProtocol = some contract
  | _ => False

def TreasuryOp.MayPrune (user token : Address) : TreasuryOp → Prop
  | .pruneArchivedEntries _ leaves => ⟨.refundBalance, user, token⟩ ∈ leaves
  | _ => False

def Op.licence (cfg : Settings) : Op → Licence
  | .route op => ⟨(op.MayInvoke cfg ·), (op.MayWithdraw · ·), fun _ _ => False⟩
  | .treasury op => ⟨(op.MayInvoke cfg ·), fun _ _ => False, (op.MayPrune · ·)⟩
  | _ => ⟨fun _ => False, fun _ _ => False, fun _ _ => False⟩

/-- One deed under a licence. Others may move their tokens at any time. -/
inductive Deed (h : Host) (licence : Licence) (s : Traffic) : Traffic → Prop
  | quiet {t : Traffic} (hq : Quiet s t) : Deed h licence s t
  | outside (calls : List (TokenCall Address Address)) :
    Deed h licence s { s with tokens := s.tokens.others h.self calls }
  | moved (call : TokenCall Address Address) (hc : call.IsTransfer)
    (ledger : Ledger Address Address) (hl : s.tokens.apply call = some ledger) :
    Deed h licence s (({ s with tokens := ledger } : Traffic).publish (.moved call))
  | invoked (contract : Address) (hc : licence.invokes contract)
    (calls : List (TokenCall Address Address)) :
    Deed h licence s (({ s with tokens := s.tokens.others h.self calls } : Traffic).publish
      (.invoked contract))
  | credited (user token : Address) {amount : ℤ} (hn : 0 < amount) :
    Deed h licence s ((s.setRefundBalance user token (some (s.refund user token + amount))).publish
      (.credited user token amount))
  | withdrawn (user token : Address) (hl : licence.withdraws user token) {amount : ℤ}
    (hn : 0 < amount) (balance : Option ℤ) (hb : balance.getD 0 = s.refund user token - amount) :
    Deed h licence s ((s.setRefundBalance user token balance).publish
      (.withdrawn user token amount))
  | pruned (user token : Address) (hl : licence.prunes user token) :
    Deed h licence s ((s.setRefundBalance user token none).publish
      (.pruned user token (s.refund user token)))

def Kept (h : Host) (licence : Licence) (P : Traffic → Prop) : Prop :=
  ∀ s t, Deed h licence s t → P s → P t

variable {h : Host} {licence : Licence} {P : Traffic → Prop} {cfg : Settings} {env : Env}

section Primitives

variable {α β : Type} {m : Routing α} {f : α → Routing β} {Q : β → Traffic → Prop}
  {call : TokenCall Address Address} {contract sender token user : Address} {amount : ℤ}

lemma Kept.pass (hP : Kept h licence P) (hm : Tx.Respects Quiet m)
    (hf : ∀ a, Tx.Ensures P (f a) Q) : Tx.Ensures P (m >>= f) Q :=
  .pass (fun s t hq hs => hP s t (.quiet hq) hs) hm hf

lemma Kept.quiet (hP : Kept h licence P) (hm : Tx.Respects Quiet m) :
    Tx.Ensures P m fun _ => P := .of_respects hm fun s t hq hs => hP s t (.quiet hq) hs

lemma tryToken_kept (hP : Kept h licence P) (hc : call.IsTransfer) :
    Tx.Ensures P (tryToken h env call) fun _ => P := by
  refine hP.pass .nextReply fun reply => .read fun ledger => ?_
  cases hl : ledger.apply call with
  | none => exact .pure fun s hs => hs.1
  | some left =>
    dsimp only
    split_ifs with ha
    · refine .bind (Q := fun _ => P) (.update fun s hs => ?_) fun _ => .pure fun _ hs => hs
      obtain ⟨hs, rfl⟩ := hs
      exact hP s _ (.moved call hc left hl) hs
    · exact .pure fun s hs => hs.1

lemma token_kept (hP : Kept h licence P) (hc : call.IsTransfer) :
    Tx.Ensures P (Router.token h env call) fun _ => P :=
  .bind (tryToken_kept hP hc) fun _ => .of_demand fun _ _ hs => hs

lemma invoke_kept (hP : Kept h licence P) (hc : licence.invokes contract) :
    Tx.Ensures P (invoke h env contract) fun _ => P := by
  refine hP.pass .nextReply fun reply => ?_
  split_ifs with ha
  · refine .bind (Q := fun _ => P) (.update fun s hs => ?_) fun _ => .pure fun _ hs => hs
    exact hP s _ (.invoked contract hc reply.calls) hs
  · exact .pure fun _ hs => hs

lemma invokeContract_kept (hP : Kept h licence P) (hc : licence.invokes contract) :
    Tx.Ensures P (invokeContract h env contract) fun _ => P := by
  refine .bind (invoke_kept hP hc) fun reply => ?_
  cases reply with
  | some reply => exact .pure fun _ hs => hs
  | none => exact .trap

lemma creditRefundBalance_kept (hP : Kept h licence P) (hn : 0 < amount) :
    Tx.Ensures P (creditRefundBalance user token amount) fun _ => P := by
  refine .read fun balance => checkedI128_ensures (.update fun s hs => ?_)
  obtain ⟨hs, rfl⟩ := hs
  exact hP s _ (.credited user token hn) hs

lemma withGuard_kept (hP : Kept h licence P) (hm : Tx.Ensures P m fun _ => P) :
    Tx.Ensures P (withGuard m) fun _ => P :=
  withGuard_ensures (fun s t hq hs => hP s t (.quiet hq) hs)
    (fun _ s t hq hs => hP s t (.quiet hq) hs) hm

end Primitives

section Payments

variable {sender recipient tokenAddress platformTreasury user : Address}
  {amount feeBps feeCap remainder : ℤ} {toRecipient toRouter : TokenCall Address Address}

lemma deliver_kept (hP : Kept h licence P) (hrec : toRecipient.IsTransfer)
    (hrouter : toRouter.IsTransfer) :
    Tx.Ensures P (deliver h env sender tokenAddress remainder toRecipient toRouter) fun _ => P := by
  refine .whenever (fun hr => ?_) fun _ _ hs => hs
  refine .bind (tryToken_kept hP hrec) fun delivered => .whenever (fun _ => ?_) fun _ _ hs => hs
  exact .bind (tryToken_kept hP hrouter) fun held => .reject fun _ => creditRefundBalance_kept hP hr

lemma processSinglePayment_kept (hP : Kept h licence P) :
    Tx.Ensures P (processSinglePayment h env sender recipient tokenAddress amount
      platformTreasury feeBps feeCap) fun _ => P := by
  refine hP.pass .accrueUserRecord fun userVolume => hP.pass (.read _) fun balance => ?_
  refine .reject fun _ => checkedI128_ensures ?_
  refine .bind (Q := fun _ => P) (.whenever (fun _ => ?_) fun _ _ hs => hs) fun _ => ?_
  · exact .bind (tryToken_kept hP trivial) fun paid => .of_reject fun _ _ hs => hs
  · exact deliver_kept hP trivial trivial

lemma processSinglePaymentNoAuth_kept (hP : Kept h licence P) :
    Tx.Ensures P (processSinglePaymentNoAuth h cfg env sender recipient tokenAddress amount
      platformTreasury feeBps feeCap) fun _ => P := by
  refine .reject fun _ => .reject fun _ => .reject fun _ => .reject fun _ => ?_
  refine hP.pass verifyKycForAmount_reads fun _ => hP.pass .accrueUserRecord fun userVolume => ?_
  refine hP.pass (.read _) fun balance => .reject fun _ => ?_
  refine hP.pass (.read _) fun allowance => .reject fun _ => checkedI128_ensures ?_
  refine .bind (Q := fun _ => P) (.whenever (fun _ => ?_) fun _ _ hs => hs) fun _ => ?_
  · exact .bind (tryToken_kept hP trivial) fun paid => .of_reject fun _ _ hs => hs
  · exact deliver_kept hP trivial trivial

lemma routePayment_kept (hP : Kept h licence P) (payment : Payment) :
    Tx.Ensures P (routePayment h cfg env payment) fun _ => P := by
  refine withGuard_kept hP (hP.pass .requireOpen fun _ => ?_)
  refine hP.pass .validatePayment fun _ => .demand fun _ => ?_
  refine hP.pass .checkRateLimit fun _ => hP.pass loadFeeConfig_reads fun fees => ?_
  exact .bind (processSinglePayment_kept hP) fun _ => hP.quiet .bumpHeartbeat

lemma Quiet.admitPayment {seen : List Address} {payment : Payment} :
    Tx.Respects Quiet (admitPayment h cfg env seen payment) := by
  refine .bind .validatePayment fun _ => .bind .checkRateLimit fun _ => ?_
  split_ifs
  · exact .pure _
  · exact .bind (.demand _) fun _ => .pure _

lemma routePayments_kept (hP : Kept h licence P) (payments : List Payment) :
    Tx.Ensures P (routePayments h cfg env payments) fun _ => P := by
  refine withGuard_kept hP (hP.pass .requireOpen fun _ => ?_)
  refine hP.pass (.fold fun _ _ _ => .admitPayment) fun seen => ?_
  refine hP.pass loadFeeConfig_reads fun fees => hP.pass .bumpHeartbeat fun _ => ?_
  refine .bind (.forEach fun payment _ => processSinglePayment_kept hP) fun _ => ?_
  exact hP.quiet .bumpHeartbeat

lemma routePaymentMeta_kept (hP : Kept h licence P) {payment : Payment} {signerPubkey : PublicKey}
    {nonce deadline : ℕ} {signature : Signature} :
    Tx.Ensures P (routePaymentMeta h cfg env payment signerPubkey nonce deadline signature)
      fun _ => P := by
  refine withGuard_kept hP (hP.pass .requireOpen fun _ => ?_)
  refine hP.pass loadFeeConfig_reads fun fees => .reject fun _ => ?_
  refine hP.pass (.read _) fun stored => .reject fun _ => .demand fun _ => ?_
  refine hP.pass (.bind (.demand _) fun _ => .pure _) fun next => ?_
  refine hP.pass (.update fun _ => ⟨rfl, rfl, rfl⟩) fun _ => ?_
  exact processSinglePaymentNoAuth_kept hP

lemma routePaymentWithQuote_kept (hP : Kept h licence P) {quote : Quote} {makerPubkey : PublicKey}
    {signature : Signature} :
    Tx.Ensures P (routePaymentWithQuote h cfg env sender recipient quote makerPubkey signature)
      fun _ => P := by
  refine withGuard_kept hP (hP.pass .requireOpen fun _ => ?_)
  refine .reject fun _ => .reject fun _ => .reject fun _ => .reject fun _ => ?_
  refine hP.pass (.read _) fun used => .reject fun _ => .reject fun _ => ?_
  refine hP.pass verifyKycForAmount_reads fun _ => hP.pass loadFeeConfig_reads fun _ => ?_
  refine .demand fun _ => .demand fun _ => .demand fun _ => hP.pass .checkRateLimit fun _ => ?_
  refine hP.pass (.read _) fun input => hP.pass (.read _) fun output => .reject fun _ => ?_
  refine hP.pass .accrueUserRecord fun _ => hP.pass (.update fun _ => ⟨rfl, rfl, rfl⟩) fun _ => ?_
  refine .bind (token_kept hP trivial) fun _ => .bind (token_kept hP trivial) fun _ => ?_
  exact hP.pass .bumpHeartbeat fun _ => .pure fun _ hs => hs

lemma withdrawRefund_kept (hP : Kept h licence P) (hl : licence.withdraws user tokenAddress) :
    Tx.Ensures P (withdrawRefund h env user tokenAddress amount) fun _ => P := by
  refine .demand fun _ => .reject fun hpos => .read fun balance => .reject fun _ => ?_
  refine .bind (Q := fun _ => P) (.update fun s hs => ?_) fun _ => token_kept hP trivial
  obtain ⟨hs, rfl⟩ := hs
  refine hP s _ (.withdrawn user tokenAddress hl (not_le.mp hpos) _ ?_) hs
  split_ifs with hn
  · rfl
  · simp only [Option.getD_none]
    omega

end Payments

section Swaps

variable {sender recipient dex tokenIn tokenOut sellToken buyToken platformTreasury user : Address}
  {amountIn amountOut minAmountOut feeBps feeCap : ℤ} {path : List Address}

lemma payOut_kept (hP : Kept h licence P) {token : Address} :
    Tx.Ensures P (payOut h env sender recipient token platformTreasury amountOut feeBps feeCap)
      fun _ => P := by
  refine .bind (Q := fun _ => P) (checkedI128_ensures (checkedI128_ensures (.pure fun _ hs => hs)))
    fun split => ?_
  refine .bind (Q := fun _ => P) (.whenever (fun _ => token_kept hP trivial) fun _ _ hs => hs)
    fun _ => .bind (Q := fun _ => P) (.whenever (fun hr => ?_) fun _ _ hs => hs)
      fun _ => .pure fun _ hs => hs
  refine .bind (tryToken_kept hP trivial) fun delivered => .whenever (fun _ => ?_) fun _ _ hs => hs
  exact creditRefundBalance_kept hP hr

lemma invokeDexSwap_kept (hP : Kept h licence P) (hd : licence.invokes dex) :
    Tx.Ensures P (invokeDexSwap h env dex) fun _ => P :=
  .bind (invoke_kept hP hd) fun _ => .unwrap fun _ _ => .pure fun _ hs => hs

lemma swapExactTokensForTokens_kept (hP : Kept h licence P) (hd : licence.invokes dex) :
    Tx.Ensures P (swapExactTokensForTokens h env dex) fun _ => P :=
  .bind (invokeContract_kept hP hd) fun _ => .pure fun _ hs => hs

lemma routePaymentWithSwapRaw_kept (hP : Kept h licence P)
    (hd : cfg.getPauseLevel ≠ .fullHalt → licence.invokes dex) :
    Tx.Ensures P (routePaymentWithSwapRaw h cfg env sender recipient dex tokenIn tokenOut amountIn
      path minAmountOut) fun _ => P := by
  refine .bind (Q := fun _ t => P t ∧ licence.invokes dex) ?_ fun _ => .given fun hdex => ?_
  · refine .bind (Q := fun _ t => P t ∧ licence.invokes dex) ?_ fun _ => .given fun hdex => ?_
    · refine .reject fun _ => .of_reject fun hp s hs => ?_
      exact ⟨hs, hd (by simpa [Settings.isPausedInternal] using hp)⟩
    · refine .reject fun _ => .reject fun _ => ?_
      refine hP.pass (.bind (.reject _ _) fun _ => .bind (.reject _ _) fun _ =>
        .bind (.reject _ _) fun _ => .reject _ _) fun _ => .reject fun _ => ?_
      exact hP.pass verifyKycForAmount_reads fun _ => .of_demand fun _ _ hs => ⟨hs, hdex⟩
  refine hP.pass loadFeeConfig_reads fun fees => .bind (token_kept hP trivial) fun _ => ?_
  refine .bind (swapExactTokensForTokens_kept hP hdex) fun result => ?_
  split
  · refine .reject fun _ => .bind (Q := fun _ => P) ?_ fun _ => processSinglePayment_kept hP
    exact .whenever (fun _ => token_kept hP trivial) fun _ _ hs => hs
  · exact .fail

lemma processSingleSwapPayment_kept (hP : Kept h licence P) (hd : licence.Swaps cfg)
    (swap : SwapPayment) :
    Tx.Ensures P (processSingleSwapPayment h cfg env swap platformTreasury feeBps feeCap)
      fun _ => P := by
  refine .demand fun _ => .reject fun hpause => ?_
  refine .bind (Q := fun _ t => P t ∧ licence.invokes swap.dex) ?_ fun _ => .given fun hdex => ?_
  · refine .reject fun _ => .reject fun _ => .reject fun _ => .reject fun hr => .reject fun _ => ?_
    refine .reject fun _ => .reject fun _ => .of_reject fun _ _ hs => ?_
    refine ⟨hs, hd _ ?_ (not_not.mp hpause)⟩
    simpa [Settings.isDexRegisteredInternal] using hr
  refine hP.pass .accrueUserRecord fun userVolume => hP.pass (.read _) fun balance => ?_
  refine .reject fun _ => hP.pass (.read _) fun before => .bind (token_kept hP trivial) fun _ => ?_
  refine .bind (token_kept hP trivial) fun _ => .bind (invokeDexSwap_kept hP hdex) fun output => ?_
  refine .reject fun _ => hP.pass (.read _) fun after => checkedI128_ensures ?_
  exact hP.pass checkSlippage_reads fun _ => payOut_kept hP

lemma routePaymentWithSwap_kept (hP : Kept h licence P) (hd : licence.Swaps cfg)
    (payment : SwapPayment) :
    Tx.Ensures P (routePaymentWithSwap h cfg env payment) fun _ => P := by
  refine withGuard_kept hP (.reject fun _ => hP.pass (.reject _ _) fun _ => ?_)
  exact hP.pass loadFeeConfig_reads fun fees => processSingleSwapPayment_kept hP hd payment

lemma routePaymentsWithSwap_kept (hP : Kept h licence P) (hd : licence.Swaps cfg)
    (payments : List SwapPayment) :
    Tx.Ensures P (routePaymentsWithSwap h cfg env payments) fun _ => P := by
  refine withGuard_kept hP (.reject fun _ => hP.pass (.reject _ _) fun _ => ?_)
  refine hP.pass loadFeeConfig_reads fun fees => .fold (I := fun _ => P) fun total payment _ => ?_
  refine .bind (processSingleSwapPayment_kept hP hd payment) fun delivered => ?_
  exact hP.quiet checkedI128_reads

lemma swapSplit_kept (hP : Kept h licence P) {progress : SplitProgress} {item : SplitRoute × Bool}
    (hdex : licence.invokes item.1.dexAddress) :
    Tx.Ensures P (swapSplit h env sellToken buyToken amountIn progress item) fun _ => P := by
  refine .bind (Q := fun _ => P) ?_ fun share => checkedI128_ensures (.reject fun _ => ?_)
  · unfold splitShare
    split_ifs
    · exact hP.quiet checkedI128_reads
    · exact checkedI128_ensures (.pure fun _ hs => hs)
  refine hP.pass (.read _) fun before => .bind (token_kept hP trivial) fun _ => ?_
  refine .bind (invokeDexSwap_kept hP hdex) fun output => hP.pass (.read _) fun after => ?_
  exact checkedI128_ensures (.reject fun _ => .reject fun _ => .pure fun _ hs => hs)

lemma mem_markLast {splits : List SplitRoute} {item : SplitRoute × Bool}
    (hi : item ∈ markLast splits) : item.1 ∈ splits := by
  induction splits with
  | nil => exact absurd hi (by simp [markLast])
  | cons split splits ih =>
    cases splits with
    | nil =>
      rw [List.mem_singleton.mp hi]
      exact List.mem_singleton.mpr rfl
    | cons next rest =>
      rcases List.mem_cons.mp hi with rfl | hi
      · exact List.mem_cons_self
      · exact List.mem_cons_of_mem _ (ih hi)

lemma routeSplitPaymentWithSwap_kept (hP : Kept h licence P) (hd : licence.Swaps cfg)
    {splits : List SplitRoute} :
    Tx.Ensures P (routeSplitPaymentWithSwap h cfg env sender recipient sellToken buyToken amountIn
      splits) fun _ => P := by
  refine withGuard_kept hP (.reject fun _ => .reject fun hpause => ?_)
  refine hP.pass loadFeeConfig_reads fun fees => .demand fun _ => ?_
  refine .reject fun _ => .reject fun _ => ?_
  refine .bind (Q := fun _ t => P t ∧ ∀ split ∈ splits, licence.invokes split.dexAddress)
    (.fold_all (I := fun _ => P) fun _ split _ => ?_) fun totalWeight => .given fun hdex => ?_
  · refine .reject fun _ => .reject fun hr => .reject fun _ => .pure fun _ hs => ⟨hs, ?_⟩
    exact hd _ (by simpa [Settings.isDexRegisteredInternal] using hr) (not_not.mp hpause)
  refine .reject fun _ => .reject fun _ => .reject fun _ => .reject fun _ => .reject fun _ => ?_
  refine hP.pass .accrueUserRecord fun userVolume => hP.pass (.read _) fun balance => ?_
  refine .reject fun _ => .bind (token_kept hP trivial) fun _ => ?_
  refine .bind (.fold (I := fun _ => P) fun progress item hi => ?_) fun progress => payOut_kept hP
  exact swapSplit_kept hP (hdex _ (mem_markLast hi))

end Swaps

section Hops

variable {sender recipient dex sellToken buyToken user tokenAddress : Address} {amountIn : ℤ}
  {path : List Address} {floors : List ℤ}

lemma swapHop_kept (hP : Kept h licence P) (hdex : licence.invokes dex) {currentAmount : ℤ}
    {hop : Hop} :
    Tx.Ensures P (swapHop h env sender dex currentAmount hop) fun _ => P := by
  refine hP.pass (.read _) fun inputBefore => hP.pass (.read _) fun outputBefore => ?_
  refine .bind (token_kept hP trivial) fun _ => ?_
  refine .bind (swapExactTokensForTokens_kept hP hdex) fun result => ?_
  split
  · refine hP.pass (.read _) fun inputAfter => hP.pass (.read _) fun outputAfter => ?_
    refine checkedI128_ensures (checkedI128_ensures (.reject fun _ => ?_))
    refine .bind (Q := fun _ => P) ?_ fun _ => .pure fun _ hs => hs
    exact .whenever (fun _ => token_kept hP trivial) fun _ _ hs => hs
  · exact .fail

lemma routeMultihopSwap_kept (hP : Kept h licence P)
    (hd : cfg.registeredDex dex = true → cfg.getPauseLevel ≠ .fullHalt → licence.invokes dex) :
    Tx.Ensures P (routeMultihopSwap h cfg env sender recipient dex amountIn path floors)
      fun _ => P := by
  refine withGuard_kept hP (.bind (Q := fun _ t => P t ∧ cfg.getPauseLevel ≠ .fullHalt) ?_
    fun _ => .given fun hp => ?_)
  · refine .reject fun _ => .of_reject fun hp _ hs => ⟨hs, ?_⟩
    simpa [Settings.isPausedInternal] using hp
  refine .reject fun _ => .reject fun _ => .reject fun _ => .reject fun _ => .reject fun _ => ?_
  refine .reject fun hr => .reject fun _ => ?_
  have hdex := hd (by simpa [Settings.isDexRegisteredInternal] using hr) hp
  refine hP.pass verifyKycForAmount_reads fun _ => .demand fun _ => ?_
  refine hP.pass .checkRateLimit fun _ => hP.pass loadFeeConfig_reads fun fees => ?_
  refine hP.pass .accrueUserRecord fun userVolume => .unwrap fun firstToken _ => ?_
  refine hP.pass (.read _) fun balance => .reject fun _ => .bind (token_kept hP trivial) fun _ => ?_
  refine .bind (.fold (I := fun _ => P) fun amount hop _ => swapHop_kept hP hdex) fun amount => ?_
  refine .unwrap fun finalToken _ => .bind (payOut_kept hP) fun remainder => ?_
  exact hP.pass .bumpHeartbeat fun _ => .pure fun _ hs => hs

lemma quoteSwap_kept (hP : Kept h licence P)
    (hd : cfg.registeredDex dex = true → licence.invokes dex) :
    Tx.Ensures P (quoteSwap h cfg env dex sellToken buyToken) fun _ => P := by
  refine .reject fun hr => .bind (Q := fun _ => P) ?_ fun amountOut => .reject fun _ => ?_
  · have hdex := hd (by simpa [Settings.isDexRegisteredInternal] using hr)
    exact .bind (invoke_kept hP hdex) fun _ => .unwrap fun _ _ => .pure fun _ hs => hs
  · refine hP.pass pairMaxSlippageBps_reads fun bps => ?_
    exact hP.pass slippageFloor_reads fun _ => .pure fun _ hs => hs

lemma claimAllRefunds_kept (hP : Kept h licence P) (hl : licence.withdraws user tokenAddress) :
    Tx.Ensures P (claimAllRefunds h env user tokenAddress) fun _ => P := by
  refine .demand fun _ => hP.pass (.read _) fun balance => .reject fun _ => ?_
  exact .bind (withdrawRefund_kept hP hl) fun _ => .pure fun _ hs => hs

lemma migrateUserRecord_kept (hP : Kept h licence P) :
    Tx.Ensures P (migrateUserRecord env user) fun _ => P := by
  refine hP.pass (.read _) fun loaded => ?_
  split_ifs
  · exact .pure fun _ hs => hs
  · refine hP.pass (.read _) fun packed => ?_
    refine hP.pass (.whenever fun _ => .update fun _ => ⟨rfl, rfl, rfl⟩) fun _ => ?_
    exact hP.pass (.update fun _ => ⟨rfl, rfl, rfl⟩) fun _ => .pure fun _ hs => hs

end Hops

lemma RoutingOp.invoke_kept {op : RoutingOp} (hP : Kept h ((Op.route op).licence cfg) P) :
    Tx.Ensures P (op.invoke h env cfg) fun _ => P := by
  cases op with
  | routePayment payment => exact routePayment_kept hP payment
  | routePayments payments => exact routePayments_kept hP payments
  | routePaymentMeta payment signerPubkey nonce deadline signature => exact routePaymentMeta_kept hP
  | routePaymentWithQuote sender recipient quote makerPubkey signature =>
    exact (routePaymentWithQuote_kept hP).void
  | routePaymentWithSwapRaw sender recipient dexRouter tokenIn tokenOut amountIn path minAmountOut =>
    exact routePaymentWithSwapRaw_kept hP fun hl => ⟨rfl, hl⟩
  | routePaymentWithSwap payment =>
    exact (routePaymentWithSwap_kept hP (fun _ hr hl => ⟨hr, hl⟩) payment).void
  | routePaymentsWithSwap payments =>
    exact (routePaymentsWithSwap_kept hP (fun _ hr hl => ⟨hr, hl⟩) payments).void
  | routeSplitPaymentWithSwap sender recipient sellToken buyToken amountIn splits =>
    exact (routeSplitPaymentWithSwap_kept hP fun _ hr hl => ⟨hr, hl⟩).void
  | routeMultihopSwap sender recipient dex amountIn path floors =>
    exact (routeMultihopSwap_kept hP fun hr hl => ⟨hr, hl⟩).void
  | quoteSwap dex sellToken buyToken => exact (quoteSwap_kept hP fun hr => hr).void
  | withdrawRefund user tokenAddress amount => exact withdrawRefund_kept hP ⟨rfl, rfl⟩
  | claimAllRefunds user tokenAddress => exact (claimAllRefunds_kept hP ⟨rfl, rfl⟩).void
  | migrateUserRecord user => exact (migrateUserRecord_kept hP).void

section Treasury

variable {α : Type}

lemma routing_kept {m : Settings → Routing α} (hm : Tx.Ensures P (m cfg) fun _ => P) :
    Tx.Ensures (fun s : State => P s.traffic ∧ s.settings = cfg) (routing m)
      fun _ s => P s.traffic := by
  rintro s a t ⟨hs, rfl⟩ hr
  obtain ⟨v, hv, rfl⟩ := routing_ok.mp hr
  exact hm _ _ _ hs hv

lemma callYieldProtocol_kept (hP : Kept h licence P)
    (hy : ∀ contract, cfg.yieldProtocol = some contract → licence.invokes contract) :
    Tx.Ensures (fun s : State => P s.traffic ∧ s.settings = cfg) (callYieldProtocol h env)
      fun _ s => P s.traffic := by
  refine .read fun protocol => .unwrap fun contract hc => ?_
  rintro s reply t ⟨⟨hs, rfl⟩, hp⟩ hr
  exact routing_kept (invokeContract_kept hP (hy contract (hp.trans hc))) s reply t ⟨hs, rfl⟩ hr

lemma Traffic.prune_kept (hP : Kept h licence P) {leaf : ArchiveLeaf}
    (hl : leaf.recordType = .refundBalance → licence.prunes leaf.primaryKey leaf.secondaryKey)
    {t : Traffic} (ht : P t) : P (t.prune leaf) := by
  unfold Traffic.prune
  split
  · exact hP t _ (.quiet ⟨rfl, rfl, rfl⟩) ht
  · exact hP t _ (.quiet ⟨rfl, rfl, rfl⟩) ht
  · exact hP t _ (.pruned _ _ (hl ‹_›)) ht

lemma TreasuryOp.invoke_kept {op : TreasuryOp} (hP : Kept h ((Op.treasury op).licence cfg) P) :
    Tx.Ensures (fun s : State => P s.traffic ∧ s.settings = cfg) (op.invoke h env)
      fun _ s => P s.traffic := by
  cases op with
  | recoverTokens token amount =>
    refine .inspect reads_requireCircuitClosed fun _ => .inspect reads_requireRole fun _ => ?_
    exact routing_kept (token_kept hP trivial)
  | emergencyWithdraw token amount =>
    refine .inspect reads_requireRole fun _ => routing_kept (withGuard_kept hP ?_)
    refine .reject fun _ => hP.pass (.read _) fun _ => .reject fun _ => token_kept hP trivial
  | depositToYield token amount =>
    refine .inspect reads_requireCircuitClosed fun _ => .reject fun _ => ?_
    refine .inspect reads_requireRole fun _ => .inspect loadTreasury_reads fun _ => ?_
    refine .demand fun _ => ?_
    refine .bind (callYieldProtocol_kept hP fun _ hy => hy) fun _ => ?_
    refine .inspect (.read _) fun _ => ?_
    exact checkedI128_ensures (.update fun _ hs => hs)
  | withdrawFromYield token amount =>
    refine .inspect reads_requireCircuitClosed fun _ => .inspect (.read _) fun _ => ?_
    refine .reject fun _ => .inspect reads_requireRole fun _ => ?_
    refine .inspect loadTreasury_reads fun _ => ?_
    exact .bind (callYieldProtocol_kept hP fun _ hy => hy) fun _ => .update fun _ hs => hs
  | harvestYield =>
    refine .void (.inspect reads_requireCircuitClosed fun _ => ?_)
    refine .inspect reads_requireRole fun _ => .inspect loadTreasury_reads fun _ => ?_
    exact .bind (callYieldProtocol_kept hP fun _ hy => hy) fun _ => .pure fun _ hs => hs
  | pruneArchivedEntries committedEpoch leaves =>
    refine .void (.inspect respects_requireNotFrozen fun _ => ?_)
    refine .inspect reads_requireRole fun _ => .inspect (.read _) fun _ => ?_
    refine .reject fun _ => routing_kept ?_
    refine .fold (I := fun _ => P) fun removed leaf hm => hP.pass (.read _) fun held => ?_
    refine .bind (Q := fun _ => P) (.update fun s hs => ?_) fun _ => .pure fun _ hs => hs
    refine Traffic.prune_kept hP (fun hr => ?_) hs
    obtain ⟨recordType, primaryKey, secondaryKey⟩ := leaf
    obtain rfl : recordType = .refundBalance := hr
    exact hm

end Treasury

lemma step_kept {s : State} (call : Call) (hP : Kept h (call.op.licence s.settings) P)
    (hs : P s.traffic) : P (step h call s).traffic := by
  obtain ⟨env, op⟩ := call
  rcases step_cases h ⟨env, op⟩ s with he | hr
  · rwa [he]
  cases op with
  | administer op =>
    have ht := (AdminOp.invoke_administered hr).traffic
    exact hP _ _ (.quiet ⟨by rw [ht], by rw [ht], by rw [ht]⟩) hs
  | configure op =>
    obtain ⟨c, -, hc⟩ := ConfigOp.invoke_frame hr
    rw [hc]
    exact hs
  | timelock op =>
    refine TimelockOp.invoke_preserves (I := fun s => P s.traffic) (fun _ _ hs => hs)
      (fun s t action hs ha => ?_) hs hr
    exact hP _ _ (.quiet ⟨by rw [ha.traffic], by rw [ha.traffic], by rw [ha.traffic]⟩) hs
  | group op =>
    rw [(GroupOp.invoke_ok hr).2]
    exact hs
  | route op =>
    simp only [Op.invoke, routing_ok] at hr
    obtain ⟨v, hv, ht⟩ := hr
    rw [ht]
    exact RoutingOp.invoke_kept hP _ _ _ hs hv
  | treasury op => exact TreasuryOp.invoke_kept hP _ _ _ ⟨hs, rfl⟩ hr
  | outside call =>
    simp only [Op.invoke, modifyTraffic_ok] at hr
    rw [hr]
    exact hP _ _ (.outside [call]) hs

/-- What may be published under the licence. -/
def Licence.Allows (licence : Licence) : TrafficEvent → Prop
  | .moved call => call.IsTransfer
  | .invoked contract => licence.invokes contract
  | .credited _ _ amount => 0 < amount
  | .withdrawn user token amount => licence.withdraws user token ∧ 0 < amount
  | .pruned user token _ => licence.prunes user token

lemma allowed_kept (base : List TrafficEvent) : Kept h licence fun t =>
    ∃ new, t.journal = new ++ base ∧ ∀ event ∈ new, licence.Allows event := by
  have hpublish : ∀ (t : Traffic) (event : TrafficEvent), licence.Allows event →
      (∃ new, t.journal = new ++ base ∧ ∀ event ∈ new, licence.Allows event) →
        ∃ new, event :: t.journal = new ++ base ∧ ∀ event ∈ new, licence.Allows event := by
    rintro t event he ⟨new, ht, hnew⟩
    exact ⟨event :: new, by simp [ht], by simpa [he] using hnew⟩
  intro s t hd hs
  cases hd with
  | quiet hq =>
    rw [hq.journal]
    exact hs
  | outside calls => exact hs
  | moved call hc ledger hl => exact hpublish s _ hc hs
  | invoked contract hc calls => exact hpublish s _ hc hs
  | credited user token hn => exact hpublish s _ hn hs
  | withdrawn user token hl hn balance hb => exact hpublish s _ ⟨hl, hn⟩ hs
  | pruned user token hl => exact hpublish s _ hl hs

lemma step_journal (call : Call) (s : State) :
    ∃ new, (step h call s).traffic.journal = new ++ s.traffic.journal ∧
      ∀ event ∈ new, (call.op.licence s.settings).Allows event :=
  step_kept call (allowed_kept s.traffic.journal) ⟨[], rfl, by simp⟩

end StellarTags.Router
