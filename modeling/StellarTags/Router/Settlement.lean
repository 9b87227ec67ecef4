import StellarTags.Router.Custody
import StellarTags.Router.Frames

/-! Moving funds leaves nonces, used quotes, call counters and the heartbeat alone. -/

namespace StellarTags.Router

open Library.Transactions Library.Integers Library.Tokens Soroban

/-- Only records, refunds and tokens have changed. -/
structure Settles (s t : Traffic) : Prop where
  counter : t.rateLimitCounter = s.rateLimitCounter
  metaNonce : t.metaNonce = s.metaNonce
  usedQuote : t.usedQuote = s.usedQuote
  heartbeat : t.lastHeartbeat = s.lastHeartbeat

namespace Settles

instance : IsPreorder Traffic Settles where
  refl _ := ⟨rfl, rfl, rfl, rfl⟩
  trans _ _ _ hst htv :=
    ⟨htv.1.trans hst.1, htv.2.trans hst.2, htv.3.trans hst.3, htv.4.trans hst.4⟩

variable {h : Host} {cfg : Settings} {env : Env}
  {sender recipient tokenAddress platformTreasury user contract dex sellToken buyToken : Address}
  {amount feeBps feeCap remainder amountIn amountOut : ℤ}
  {call toRecipient toRouter : TokenCall Address Address}

section Primitives

lemma nextReply : Tx.Respects Settles (nextReply env) :=
  .bind (.read _) fun _ => .bind (.update fun _ => ⟨rfl, rfl, rfl, rfl⟩) fun _ => .pure _

lemma tryToken : Tx.Respects Settles (tryToken h env call) := by
  refine .bind nextReply fun reply => .bind (.read _) fun ledger => ?_
  cases ledger.apply call with
  | none => exact .pure _
  | some left =>
    dsimp only
    split_ifs
    · exact .bind (.update fun _ => ⟨rfl, rfl, rfl, rfl⟩) fun _ => .pure _
    · exact .pure _

lemma token : Tx.Respects Settles (Router.token h env call) :=
  .bind tryToken fun _ => .demand _

lemma invoke : Tx.Respects Settles (Router.invoke h env contract) := by
  refine .bind nextReply fun reply => ?_
  split_ifs
  · exact .bind (.update fun _ => ⟨rfl, rfl, rfl, rfl⟩) fun _ => .pure _
  · exact .pure _

lemma invokeContract : Tx.Respects Settles (Router.invokeContract h env contract) := by
  refine .bind invoke fun reply => ?_
  cases reply with
  | some reply => exact .pure _
  | none => exact .trap

lemma creditRefundBalance : Tx.Respects Settles (creditRefundBalance user tokenAddress amount) :=
  .bind (.read _) fun _ => .bind checkedI128_reads fun _ => .update fun _ => ⟨rfl, rfl, rfl, rfl⟩

lemma accrueUserRecord : Tx.Respects Settles (accrueUserRecord env sender amount) := by
  refine .bind (.read _) fun loaded => .bind (.bind (.demand _) fun _ => .pure _) fun elapsed => ?_
  refine .bind (.reject _ _) fun _ => .bind (.reject _ _) fun _ => ?_
  refine .bind (.update fun _ => ⟨rfl, rfl, rfl, rfl⟩) fun _ => ?_
  exact .bind (.whenever fun _ => .update fun _ => ⟨rfl, rfl, rfl, rfl⟩) fun _ => .pure _

end Primitives

section Payments

lemma deliver :
    Tx.Respects Settles (deliver h env sender tokenAddress remainder toRecipient toRouter) := by
  refine .whenever fun _ => .bind tryToken fun delivered => .whenever fun _ => ?_
  exact .bind tryToken fun held => .bind (.reject _ _) fun _ => creditRefundBalance

lemma processSinglePayment :
    Tx.Respects Settles (processSinglePayment h env sender recipient tokenAddress amount
      platformTreasury feeBps feeCap) := by
  refine .bind accrueUserRecord fun volume => .bind (.read _) fun balance => ?_
  refine .bind (.reject _ _) fun _ => .bind checkedI128_reads fun remainder => ?_
  refine .bind (.whenever fun _ => ?_) fun _ => deliver
  exact .bind tryToken fun paid => .reject _ _

lemma processSinglePaymentNoAuth :
    Tx.Respects Settles (processSinglePaymentNoAuth h cfg env sender recipient tokenAddress amount
      platformTreasury feeBps feeCap) := by
  refine .bind (.reject _ _) fun _ => .bind (.reject _ _) fun _ => .bind (.reject _ _) fun _ => ?_
  refine .bind (.reject _ _) fun _ => .bind verifyKycForAmount_reads fun _ => ?_
  refine .bind accrueUserRecord fun volume => .bind (.read _) fun balance => ?_
  refine .bind (.reject _ _) fun _ => .bind (.read _) fun allowance => ?_
  refine .bind (.reject _ _) fun _ => .bind checkedI128_reads fun remainder => ?_
  refine .bind (.whenever fun _ => ?_) fun _ => deliver
  exact .bind tryToken fun paid => .reject _ _

lemma withdrawRefund : Tx.Respects Settles (withdrawRefund h env user tokenAddress amount) := by
  refine .bind (.demand _) fun _ => .bind (.reject _ _) fun _ => .bind (.read _) fun balance => ?_
  exact .bind (.reject _ _) fun _ => .bind (.update fun _ => ⟨rfl, rfl, rfl, rfl⟩) fun _ => token

lemma claimAllRefunds : Tx.Respects Settles (claimAllRefunds h env user tokenAddress) := by
  refine .bind (.demand _) fun _ => .bind (.read _) fun balance => .bind (.reject _ _) fun _ => ?_
  exact .bind withdrawRefund fun _ => .pure _

lemma migrateUserRecord : Tx.Respects Settles (migrateUserRecord env user) := by
  refine .bind (.read _) fun loaded => ?_
  split_ifs
  · exact .pure _
  · refine .bind (.read _) fun packed => ?_
    refine .bind (.whenever fun _ => .update fun _ => ⟨rfl, rfl, rfl, rfl⟩) fun _ => ?_
    exact .bind (.update fun _ => ⟨rfl, rfl, rfl, rfl⟩) fun _ => .pure _

end Payments

section Swaps

lemma payOut : Tx.Respects Settles (payOut h env sender recipient tokenAddress platformTreasury
    amountOut feeBps feeCap) := by
  refine .bind (.bind checkedI128_reads fun _ => .bind checkedI128_reads fun _ => .pure _) ?_
  refine fun split => .bind (.whenever fun _ => token) fun _ => ?_
  refine .bind (.whenever fun _ => .bind tryToken fun delivered => ?_) fun _ => .pure _
  exact .whenever fun _ => creditRefundBalance

lemma invokeDexSwap : Tx.Respects Settles (invokeDexSwap h env dex) :=
  .bind invoke fun _ => .bind (.unwrap _ _) fun _ => .pure _

lemma invokeDexQuote : Tx.Respects Settles (invokeDexQuote h env dex) :=
  .bind invoke fun _ => .bind (.unwrap _ _) fun _ => .pure _

lemma swapExactTokensForTokens : Tx.Respects Settles (swapExactTokensForTokens h env dex) :=
  .bind invokeContract fun _ => .pure _

lemma processSingleSwapPayment {swap : SwapPayment} :
    Tx.Respects Settles (processSingleSwapPayment h cfg env swap platformTreasury feeBps
      feeCap) := by
  refine .bind (.demand _) fun _ => .bind (.reject _ _) fun _ => .bind validateSwap_reads fun _ => ?_
  refine .bind accrueUserRecord fun volume => .bind (.read _) fun balance => ?_
  refine .bind (.reject _ _) fun _ => .bind (.read _) fun before => .bind token fun _ => ?_
  refine .bind token fun _ => .bind invokeDexSwap fun output => .bind (.reject _ _) fun _ => ?_
  refine .bind (.read _) fun after => .bind checkedI128_reads fun amountOut => ?_
  exact .bind checkSlippage_reads fun _ => payOut

lemma swapSplit {progress : SplitProgress} {item : SplitRoute × Bool} :
    Tx.Respects Settles (swapSplit h env sellToken buyToken amountIn progress item) := by
  have hshare : Tx.Respects Settles (splitShare amountIn progress.allocatedIn item) := by
    unfold splitShare
    split_ifs
    · exact checkedI128_reads
    · exact .bind checkedI128_reads fun _ => .pure _
  refine .bind hshare fun share => .bind checkedI128_reads fun allocated => ?_
  refine .bind (.reject _ _) fun _ => .bind (.read _) fun before => .bind token fun _ => ?_
  refine .bind invokeDexSwap fun output => .bind (.read _) fun after => ?_
  refine .bind checkedI128_reads fun splitOut => .bind (.reject _ _) fun _ => ?_
  exact .bind (.reject _ _) fun _ => .pure _

lemma processSplitPaymentWithSwap {splits : List SplitRoute} :
    Tx.Respects Settles (processSplitPaymentWithSwap h cfg env sender recipient sellToken buyToken
      amountIn splits platformTreasury feeBps feeCap) := by
  refine .bind (.demand _) fun _ => .bind (.reject _ _) fun _ => .bind (.reject _ _) fun _ => ?_
  refine .bind (.fold fun total split _ => ?_) fun weight => .bind (.reject _ _) fun _ => ?_
  · refine .bind (.reject _ _) fun _ => .bind (.reject _ _) fun _ => ?_
    exact .bind (.reject _ _) fun _ => .pure _
  refine .bind (.reject _ _) fun _ => .bind (.reject _ _) fun _ => .bind (.reject _ _) fun _ => ?_
  refine .bind (.reject _ _) fun _ => .bind accrueUserRecord fun volume => ?_
  refine .bind (.read _) fun balance => .bind (.reject _ _) fun _ => .bind token fun _ => ?_
  exact .bind (.fold fun _ _ _ => swapSplit) fun progress => payOut

lemma swapHop {hop : Hop} : Tx.Respects Settles (swapHop h env sender dex amount hop) := by
  refine .bind (.read _) fun _ => .bind (.read _) fun _ => .bind token fun _ => ?_
  refine .bind swapExactTokensForTokens fun result => ?_
  split
  · refine .bind (.read _) fun _ => .bind (.read _) fun _ => .bind checkedI128_reads fun _ => ?_
    refine .bind checkedI128_reads fun _ => .bind (.reject _ _) fun _ => ?_
    exact .bind (.whenever fun _ => token) fun _ => .pure _
  · exact .fail _

lemma routePaymentWithSwapRaw {tokenIn tokenOut : Address} {path : List Address}
    {minAmountOut : ℤ} :
    Tx.Respects Settles (routePaymentWithSwapRaw h cfg env sender recipient dex tokenIn tokenOut
      amountIn path minAmountOut) := by
  have hpath : Tx.Respects Settles (validateSwapPath tokenIn tokenOut path minAmountOut) :=
    .bind (.reject _ _) fun _ => .bind (.reject _ _) fun _ => .bind (.reject _ _) fun _ =>
      .reject _ _
  have hopen : Tx.Respects Settles (requireOpen cfg) := .bind (.reject _ _) fun _ => .reject _ _
  refine .bind ?_ fun _ => .bind loadFeeConfig_reads fun fees => .bind token fun _ => ?_
  · refine .bind hopen fun _ => .bind (.reject _ _) fun _ => .bind (.reject _ _) fun _ => ?_
    refine .bind hpath fun _ => .bind (.reject _ _) fun _ => ?_
    exact .bind verifyKycForAmount_reads fun _ => .demand _
  refine .bind swapExactTokensForTokens fun result => ?_
  split
  · refine .bind (.reject _ _) fun _ => .bind (.whenever fun _ => token) fun _ => ?_
    exact processSinglePayment
  · exact .fail _

lemma quoteSwap : Tx.Respects Settles (quoteSwap h cfg env dex sellToken buyToken) := by
  refine .bind (.reject _ _) fun _ => .bind invokeDexQuote fun amountOut => ?_
  refine .bind (.reject _ _) fun _ => .bind pairMaxSlippageBps_reads fun bps => ?_
  exact .bind slippageFloor_reads fun floor => .pure _

end Swaps

section Guard

variable {α : Type} {m : Routing α}

lemma withGuard (hm : Tx.Respects Settles m) : Tx.Respects Settles (withGuard m) := by
  refine .bind (.read _) fun held => .bind (.reject _ _) fun _ => ?_
  refine .bind (.update fun _ => ⟨rfl, rfl, rfl, rfl⟩) fun _ => .bind hm fun result => ?_
  exact .bind (.update fun _ => ⟨rfl, rfl, rfl, rfl⟩) fun _ => .pure _

lemma routePaymentWithSwap {swap : SwapPayment} :
    Tx.Respects Settles (routePaymentWithSwap h cfg env swap) := by
  refine withGuard (.bind (.reject _ _) fun _ => .bind (.reject _ _) fun _ => ?_)
  exact .bind loadFeeConfig_reads fun fees => processSingleSwapPayment

lemma routePaymentsWithSwap {swaps : List SwapPayment} :
    Tx.Respects Settles (routePaymentsWithSwap h cfg env swaps) := by
  refine withGuard (.bind (.reject _ _) fun _ => .bind (.reject _ _) fun _ => ?_)
  refine .bind loadFeeConfig_reads fun fees => .fold fun total swap _ => ?_
  exact .bind processSingleSwapPayment fun delivered => checkedI128_reads

lemma routeSplitPaymentWithSwap {splits : List SplitRoute} :
    Tx.Respects Settles (routeSplitPaymentWithSwap h cfg env sender recipient sellToken buyToken
      amountIn splits) := by
  refine withGuard (.bind (.reject _ _) fun _ => .bind (.reject _ _) fun _ => ?_)
  exact .bind loadFeeConfig_reads fun fees => processSplitPaymentWithSwap

end Guard

lemma routePaymentMeta {payment : Payment} {signerPubkey : PublicKey} {nonce deadline : ℕ}
    {signature : Signature} {s t : Traffic} {u : Unit}
    (hr : routePaymentMeta h cfg env payment signerPubkey nonce deadline signature s =
      .ok (u, t)) :
    Settles
      { s with metaNonce := Function.update s.metaNonce payment.sender (some (nonce + 1)) } t := by
  simp [Router.routePaymentMeta, Router.withGuard, requireOpen, requireNotFullyHalted,
    Settings.loadFeeConfig] at hr
  obtain ⟨-, v, ⟨-, treasury, bps, cap, -, -, -, -, -, hv⟩, rfl⟩ := hr
  have hsettles := processSinglePaymentNoAuth _ _ _ hv
  exact ⟨hsettles.counter, hsettles.metaNonce, hsettles.usedQuote, hsettles.heartbeat⟩

lemma covers : Covers h env Settles where
  token _ := token
  contract _ := invokeContract
  guard _ _ := ⟨rfl, rfl, rfl, rfl⟩
  prune t leaf := by
    unfold Traffic.prune
    split <;> exact ⟨rfl, rfl, rfl, rfl⟩

end Settles

def State.Settles (s t : State) : Prop := Router.Settles s.traffic t.traffic

instance settlesPreorder : IsPreorder State State.Settles where
  refl s := refl_of Settles s.traffic
  trans _ _ _ hst htv := trans_of Settles hst htv

lemma TreasuryOp.invoke_settles {h : Host} {env : Env} {op : TreasuryOp} :
    Tx.Respects State.Settles (op.invoke h env) :=
  invoke_within Settles.covers (fun _ _ ht => ht) fun s _ => refl_of Settles s.traffic

end StellarTags.Router
