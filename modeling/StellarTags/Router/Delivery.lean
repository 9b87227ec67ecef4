import StellarTags.Library.Apportionment
import StellarTags.Router.Multihop
import StellarTags.Router.SlippageBounds

/-! What single and split swaps deliver, and what they leave in the router. -/

namespace StellarTags.Router

open Library.Transactions Library.Integers Library.Tokens Library.Shares Soroban

/-- What the slippage off a quote may be; a pair that is out of bounds stops its swaps. -/
def Settings.slippageBps (cfg : Settings) (tokenIn tokenOut : Address) : ℤ :=
  (cfg.pairSlippage tokenIn tokenOut).getD cfg.maxSlippageBpsOrDefault

def splitShares (amountIn : ℤ) (splits : List SplitRoute) : List ℤ :=
  shares amountIn totalWeightBps 0 (splits.map SplitRoute.weightBps)

/-- One exchange as it went: a share of the sell token for what the router's balance shows of the
other. -/
structure Exchanged (h : Host) (env : Env) (sellToken buyToken dex : Address) (share out : ℤ)
    (s t : Traffic) : Prop where
  swapped : ∃ sent, s.tokens.apply (.transfer sellToken h.self dex share) = some sent ∧
    t.tokens = sent.others h.self (env.reply (s.calls + 1)).calls
  output : out = t.tokens.balance buyToken h.self - s.tokens.balance buyToken h.self
  journal : t.journal =
    [.invoked dex, .moved (.transfer sellToken h.self dex share)] ++ s.journal
  refunds : t.refundBalance = s.refundBalance

/-- The exchanges of a split swap, one after another. -/
inductive Exchanges (h : Host) (env : Env) (sellToken buyToken : Address) :
    List SplitRoute → List ℤ → List ℤ → Traffic → Traffic → Prop
  | nil {s : Traffic} : Exchanges h env sellToken buyToken [] [] [] s s
  | cons {split : SplitRoute} {splits : List SplitRoute} {share out : ℤ} {given outputs : List ℤ}
    {s v t : Traffic} (positive : 0 < share) (floor : split.minAmountOut ≤ out)
    (first : Exchanged h env sellToken buyToken split.dexAddress share out s v)
    (rest : Exchanges h env sellToken buyToken splits given outputs v t) :
    Exchanges h env sellToken buyToken (split :: splits) (share :: given) (out :: outputs) s t

variable {h : Host} {cfg : Settings} {env : Env} {s t v w : Traffic}
  {sender recipient dex sellToken buyToken platformTreasury : Address}
  {share out fee amountIn amountOut feeBps feeCap : ℤ} {given outputs : List ℤ} {held : Bool}
  {splits : List SplitRoute} {swap : SwapPayment}

lemma splitShares_sum (hs : splits ≠ []) : (splitShares amountIn splits).sum = amountIn := by
  rw [splitShares, sum_shares (by simpa using hs), sub_zero]

lemma splitShares_fair (ha : 0 ≤ amountIn)
    (hw : (splits.map SplitRoute.weightBps).sum = totalWeightBps) :
    List.Forall₂ (fun split share => (amountIn * split.weightBps).tdiv totalWeightBps ≤ share)
      splits (splitShares amountIn splits) := by
  have hfair : List.Forall₂ (fun (weight : ℕ) share =>
      (amountIn * weight).tdiv totalWeightBps ≤ share) (splits.map SplitRoute.weightBps)
        (splitShares amountIn splits) :=
    shares_fair ha (by decide) (by simp [hw])
  rwa [List.forall₂_map_left_iff] at hfair

lemma pairMaxSlippageBps_ok {bps : ℤ}
    (hr : (cfg.pairMaxSlippageBps sellToken buyToken : Routing ℤ) s = .ok (bps, t)) :
    bps = cfg.slippageBps sellToken buyToken ∧ t = s := by
  unfold Settings.pairMaxSlippageBps at hr
  unfold Settings.slippageBps
  cases hp : cfg.pairSlippage sellToken buyToken with
  | none => simpa [hp] using hr
  | some stored =>
    simp only [hp] at hr
    split_ifs at hr
    · simpa using hr
    · simp at hr

lemma checkSlippage_ok {u : Unit} (hr : checkSlippage cfg swap amountOut s = .ok (u, t)) :
    swap.minAmountOut ≤ amountOut ∧ (0 < swap.expectedAmountOut →
      max 1 (swap.expectedAmountOut - (swap.expectedAmountOut *
        cfg.slippageBps swap.sellToken swap.buyToken).tdiv bpsDivisor) ≤ amountOut) ∧ t = s := by
  simp only [checkSlippage, Tx.reject_bind_ok, not_lt] at hr
  obtain ⟨hmin, hexpected⟩ := hr
  rcases Tx.whenever_ok.mp hexpected with ⟨-, hguard⟩ | ⟨hnone, rfl⟩
  · obtain ⟨bps, v, hbps, hfloor⟩ := Tx.bind_ok.mp hguard
    obtain ⟨rfl, rfl⟩ := pairMaxSlippageBps_ok hbps
    obtain ⟨floor, w, hw, hend⟩ := Tx.bind_ok.mp hfloor
    obtain ⟨-, -, rfl, rfl⟩ := slippageFloor_ok.mp hw
    obtain ⟨hle, rfl⟩ := Tx.reject_ok.mp hend
    exact ⟨hmin, fun _ => not_lt.mp hle, rfl⟩
  · exact ⟨hmin, fun he => absurd he hnone, rfl⟩

lemma invokeDexSwap_seen {output : Address × ℤ} (hr : invokeDexSwap h env dex s = .ok (output, t)) :
    t.tokens = s.tokens.others h.self (env.reply s.calls).calls ∧
      t.refundBalance = s.refundBalance ∧ t.journal = .invoked dex :: s.journal := by
  obtain ⟨answer, v, hv, hunwrap⟩ := Tx.bind_ok.mp hr
  simp only [Tx.unwrap_bind_ok, Tx.pure_ok] at hunwrap
  obtain ⟨reply, rfl, -, rfl⟩ := hunwrap
  obtain ⟨_, x, hx, hcall⟩ := Tx.bind_ok.mp hv
  obtain ⟨rfl, rfl⟩ := nextReply_ok.mp hx
  split_ifs at hcall
  · obtain ⟨-, rfl⟩ := Tx.pure_ok.mp hcall
    exact ⟨rfl, rfl, rfl⟩
  · simp at hcall

lemma exchanged_of_ok (buyToken : Address) {u : Unit} {output : Address × ℤ}
    (hsend : token h env (.transfer sellToken h.self dex share) s = .ok (u, v))
    (hswap : invokeDexSwap h env dex v = .ok (output, t)) :
    Exchanged h env sellToken buyToken dex share
      (t.tokens.balance buyToken h.self - s.tokens.balance buyToken h.self) s t := by
  obtain ⟨hsent, hcalls, hrefunds, hjournal⟩ := token_leaves_seen hsend
  obtain ⟨hswapped, hrefunds', hjournal'⟩ := invokeDexSwap_seen hswap
  rw [hcalls] at hswapped
  exact ⟨⟨v.tokens, hsent, hswapped⟩, rfl, by rw [hjournal', hjournal]; rfl,
    hrefunds'.trans hrefunds⟩

lemma splitShare_ok {allocatedIn : ℤ} {item : SplitRoute × Bool}
    (hr : splitShare amountIn allocatedIn item s = .ok (share, t)) :
    share = (if item.2 = true then amountIn - allocatedIn
      else (amountIn * item.1.weightBps).tdiv totalWeightBps) ∧ t = s := by
  unfold splitShare at hr
  split_ifs at hr with hlast
  · rw [if_pos hlast]
    simp only [checkedI128, Tx.demand_bind_ok, Tx.pure_ok] at hr
    exact hr.2
  · rw [if_neg hlast]
    simp only [checkedI128_bind_ok, Tx.pure_ok] at hr
    exact hr.2

lemma swapSplit_ok {progress next : SplitProgress} {item : SplitRoute × Bool}
    (hr : swapSplit h env sellToken buyToken amountIn progress item s = .ok (next, t)) :
    ∃ share out, share = (if item.2 = true then amountIn - progress.allocatedIn
        else (amountIn * item.1.weightBps).tdiv totalWeightBps) ∧ 0 < share ∧
      item.1.minAmountOut ≤ out ∧
      Exchanged h env sellToken buyToken item.1.dexAddress share out s t ∧
      next = ⟨progress.totalOut + out, progress.allocatedIn + share⟩ := by
  obtain ⟨share, v, hv, hbody⟩ := Tx.bind_ok.mp hr
  obtain ⟨hshare, rfl⟩ := splitShare_ok hv
  simp only [checkedI128_bind_ok, Tx.reject_bind_ok, not_le, balanceOf, Tx.read_bind] at hbody
  obtain ⟨-, hpos, hsend⟩ := hbody
  obtain ⟨_, w, hw, hswap⟩ := Tx.bind_ok.mp hsend
  obtain ⟨output, x, hx, hmeasure⟩ := Tx.bind_ok.mp hswap
  simp only [Tx.read_bind, checkedI128_bind_ok, Tx.reject_bind_ok, not_lt, Tx.pure_ok] at hmeasure
  obtain ⟨-, hmin, -, rfl, rfl⟩ := hmeasure
  exact ⟨share, _, hshare, hpos, hmin, exchanged_of_ok buyToken hw hx, rfl⟩

lemma swapSplits_ok {progress final : SplitProgress}
    (hr : Tx.fold (swapSplit h env sellToken buyToken amountIn) progress (markLast splits) s =
      .ok (final, t)) :
    ∃ outputs, Exchanges h env sellToken buyToken splits
        (shares amountIn totalWeightBps progress.allocatedIn (splits.map SplitRoute.weightBps))
        outputs s t ∧ final.totalOut = progress.totalOut + outputs.sum := by
  induction splits generalizing progress s with
  | nil =>
    obtain ⟨rfl, rfl⟩ := Tx.fold_nil.mp hr
    exact ⟨[], .nil, by simp⟩
  | cons split splits ih =>
    cases splits with
    | nil =>
      obtain ⟨next, v, hv, hend⟩ := Tx.fold_cons.mp hr
      obtain ⟨rfl, rfl⟩ := Tx.fold_nil.mp hend
      obtain ⟨share, out, rfl, hpos, hmin, hfirst, rfl⟩ := swapSplit_ok hv
      exact ⟨[out], .cons hpos hmin hfirst .nil, by simp⟩
    | cons second rest =>
      obtain ⟨next, v, hv, hlater⟩ := Tx.fold_cons.mp hr
      obtain ⟨share, out, rfl, hpos, hmin, hfirst, rfl⟩ := swapSplit_ok hv
      obtain ⟨outputs, hrest, hfinal⟩ := ih hlater
      refine ⟨out :: outputs, .cons hpos hmin hfirst hrest, ?_⟩
      rw [hfinal, List.sum_cons, add_assoc]

namespace Exchanged

lemma unlent (hx : Exchanged h env sellToken buyToken dex share out s t)
    (hu : s.tokens.Unlent h.self) : t.tokens.Unlent h.self := by
  obtain ⟨sent, hsent, hswapped⟩ := hx.swapped
  have hu' := Ledger.apply_transfer_unlent hu (c := .transfer sellToken h.self dex share)
    trivial hsent
  exact hswapped ▸ Ledger.others_unlent hu' _

/-- Nobody else can take from the router: it loses the share it hands over at most. -/
lemma sold (hx : Exchanged h env sellToken buyToken dex share out s t)
    (hu : s.tokens.Unlent h.self) (hpos : 0 ≤ share) :
    s.tokens.balance sellToken h.self - share ≤ t.tokens.balance sellToken h.self := by
  obtain ⟨sent, hsent, hswapped⟩ := hx.swapped
  have hu' := Ledger.apply_transfer_unlent hu (c := .transfer sellToken h.self dex share)
    trivial hsent
  have hgain := Ledger.others_balance hu' (env.reply (s.calls + 1)).calls sellToken
  rw [← hswapped, Ledger.apply_flow hsent] at hgain
  simp only [TokenCall.flow, true_and, if_true] at hgain
  split_ifs at hgain <;> omega

end Exchanged

namespace Exchanges

lemma refunds (hx : Exchanges h env sellToken buyToken splits given outputs s t) :
    t.refundBalance = s.refundBalance := by
  induction hx with
  | nil => rfl
  | cons positive floor first rest ih => rw [ih, first.refunds]

lemma given_pos (hx : Exchanges h env sellToken buyToken splits given outputs s t) :
    ∀ share ∈ given, 0 < share := by
  induction hx with
  | nil => simp
  | cons positive floor first rest ih => simpa [positive] using ih

lemma minimums (hx : Exchanges h env sellToken buyToken splits given outputs s t) :
    List.Forall₂ (fun split out => split.minAmountOut ≤ out) splits outputs := by
  induction hx with
  | nil => exact .nil
  | cons positive floor first rest ih => exact .cons floor ih

lemma bought (hx : Exchanges h env sellToken buyToken splits given outputs s t) :
    t.tokens.balance buyToken h.self = s.tokens.balance buyToken h.self + outputs.sum := by
  induction hx with
  | nil => simp
  | cons positive floor first rest ih =>
    rw [ih, List.sum_cons, first.output]
    ring

lemma sold (hx : Exchanges h env sellToken buyToken splits given outputs s t)
    (hu : s.tokens.Unlent h.self) :
    s.tokens.balance sellToken h.self - given.sum ≤ t.tokens.balance sellToken h.self := by
  induction hx with
  | nil => simp
  | cons positive floor first rest ih =>
    have hlater := ih (first.unlent hu)
    have hshare := first.sold hu positive.le
    rw [List.sum_cons]
    omega

end Exchanges

/-- What a swap leaves in the router: of the buy token just the refund it credits the sender, and of
the sell token all there was. -/
structure Delivered (h : Host) (sender sellToken buyToken : Address) (s t : Traffic) : Prop where
  bought : t.tokens.balance buyToken h.self - s.tokens.balance buyToken h.self =
    t.refund sender buyToken - s.refund sender buyToken
  sold : s.tokens.balance sellToken h.self ≤ t.tokens.balance sellToken h.self
  refunds : ∀ user token, ¬ (user = sender ∧ token = buyToken) →
    t.refund user token = s.refund user token

/-- The account of a single swap: `out` is what the router's balance showed of the exchange. -/
structure SwapSettles (h : Host) (cfg : Settings) (env : Env) (swap : SwapPayment)
    (platformTreasury : Address) (out fee : ℤ) (held : Bool) (s t : Traffic) : Prop where
  minimum : swap.minAmountOut ≤ out
  slippage : 0 < swap.expectedAmountOut →
    max 1 (swap.expectedAmountOut - (swap.expectedAmountOut *
      cfg.slippageBps swap.sellToken swap.buyToken).tdiv bpsDivisor) ≤ out
  fee_bounds : 0 ≤ fee ∧ fee ≤ out
  measured : ∃ v w, Posts [.moved (.transfer swap.sellToken swap.sender h.self swap.amountIn)] s v ∧
    Exchanged h env swap.sellToken swap.buyToken swap.dex swap.amountIn out v w ∧
    Posts (payOutEvents h swap.sender swap.recipient swap.buyToken platformTreasury out fee held) w t
  delivered : Delivered h swap.sender swap.sellToken swap.buyToken s t

/-- The swaps of a batch, one after another. -/
inductive SwapsSettle (h : Host) (cfg : Settings) (env : Env) (platformTreasury : Address) :
    List SwapPayment → Traffic → Traffic → Prop
  | nil {s t : Traffic} (quiet : Quiet s t) : SwapsSettle h cfg env platformTreasury [] s t
  | cons {swap : SwapPayment} {swaps : List SwapPayment} {out fee : ℤ} {held : Bool}
    {s v t : Traffic} (first : SwapSettles h cfg env swap platformTreasury out fee held s v)
    (rest : SwapsSettle h cfg env platformTreasury swaps v t) :
    SwapsSettle h cfg env platformTreasury (swap :: swaps) s t

/-- The account of a split swap: the shares that the splits were given, and what the router's balance
showed of each of them. -/
structure SplitSettles (h : Host) (env : Env) (sender recipient sellToken buyToken : Address)
    (amountIn : ℤ) (splits : List SplitRoute) (platformTreasury : Address) (given outputs : List ℤ)
    (fee : ℤ) (held : Bool) (s t : Traffic) : Prop where
  positive : ∀ share ∈ given, 0 < share
  total : given.sum = amountIn
  fair : List.Forall₂ (fun split share =>
    (amountIn * split.weightBps).tdiv totalWeightBps ≤ share) splits given
  minimums : List.Forall₂ (fun split out => split.minAmountOut ≤ out) splits outputs
  fee_bounds : 0 ≤ fee ∧ fee ≤ outputs.sum
  measured : ∃ v w, Posts [.moved (.transfer sellToken sender h.self amountIn)] s v ∧
    Exchanges h env sellToken buyToken splits given outputs v w ∧
    Posts (payOutEvents h sender recipient buyToken platformTreasury outputs.sum fee held) w t
  delivered : Delivered h sender sellToken buyToken s t

section Settlement

lemma delivered_of_parts (hs : sender ≠ h.self) (ht : platformTreasury ≠ h.self)
    (hrec : recipient ≠ h.self) (hne : sellToken ≠ buyToken)
    (hin : Posts [.moved (.transfer sellToken sender h.self amountIn)] s v)
    (hbought : w.tokens.balance buyToken h.self = v.tokens.balance buyToken h.self + out)
    (hsold : v.tokens.balance sellToken h.self - amountIn ≤ w.tokens.balance sellToken h.self)
    (hrefunds : w.refundBalance = v.refundBalance) (hf : 0 ≤ fee) (hle : fee ≤ out)
    (hpay : Posts (payOutEvents h sender recipient buyToken platformTreasury out fee held) w t) :
    Delivered h sender sellToken buyToken s t := by
  have hv (k : Address) : v.tokens.balance k h.self =
      s.tokens.balance k h.self + if k = sellToken then amountIn else 0 := by
    rw [hin.balance]
    simp [TrafficEvent.flow, TokenCall.flow, hs.symm]
  have ht (k : Address) : t.tokens.balance k h.self = w.tokens.balance k h.self +
      if k = buyToken then (if held = true then -fee else -out) else 0 := by
    rw [hpay.balance, flow_payOutEvents hf hle ht hrec]
  have hrefund (user k : Address) : t.refund user k = s.refund user k +
      if held = true ∧ sender = user ∧ buyToken = k then out - fee else 0 := by
    have hw : w.refund user k = v.refund user k := by
      rw [Traffic.refund, hrefunds, Traffic.refund]
    have hsame := hin.refund user k
    simp only [List.map_singleton, List.sum_singleton, TrafficEvent.claim, TrafficEvent.credit,
      TrafficEvent.withdrawal, TrafficEvent.pruning, sub_zero, add_zero] at hsame
    rw [hpay.refund, claim_payOutEvents hle, hw, hsame]
  refine ⟨?_, ?_, fun user k hk => ?_⟩
  · rw [ht, hbought, hv, hrefund, if_pos rfl, if_neg hne.symm]
    cases held <;> simp
    omega
  · rw [ht, if_neg hne, add_zero]
    rw [hv, if_pos rfl] at hsold
    omega
  · rw [hrefund, if_neg fun he => hk ⟨he.2.1.symm, he.2.2.symm⟩, add_zero]

lemma swapFee_bounds (ha : 0 ≤ amountOut) (hb : 0 ≤ feeBps) (hc : 0 ≤ feeCap) :
    0 ≤ swapFee amountOut feeBps feeCap ∧ swapFee amountOut feeBps feeCap ≤ amountOut :=
  ⟨capFee_nonneg (Int.tdiv_nonneg (mul_nonneg ha hb) (by decide)) hc ha, capFee_le⟩

lemma processSingleSwapPayment_unlent :
    Tx.Ensures (fun t => t.tokens.Unlent h.self) (processSingleSwapPayment h cfg env swap
      platformTreasury feeBps feeCap) fun _ t => t.tokens.Unlent h.self :=
  processSingleSwapPayment_kept
    (unlent_kept h ⟨fun _ => True, fun _ _ => False, fun _ _ => False⟩) (fun _ _ _ => trivial) swap

lemma processSingleSwapPayment_settles {delivered : ℤ} (hu : s.tokens.Unlent h.self)
    (ht : platformTreasury ≠ h.self) (hrec : swap.recipient ≠ h.self) (hb : 0 ≤ feeBps)
    (hc : 0 ≤ feeCap) (hadmits : cfg.AdmitsSwap h env swap)
    (hr : processSingleSwapPayment h cfg env swap platformTreasury feeBps feeCap s =
      .ok (delivered, t)) :
    ∃ out fee held, SwapSettles h cfg env swap platformTreasury out fee held s t := by
  have hs := authorises_ne hadmits.authorised
  simp only [processSingleSwapPayment, requireAuth, Tx.demand_bind_ok] at hr
  obtain ⟨_, v₀, hpause, hbody⟩ := Tx.bind_ok.mp hr.2
  obtain ⟨_, v₁, hvalid, hbody₁⟩ := Tx.bind_ok.mp hbody
  obtain ⟨userVolume, v, haccrue, hbody₂⟩ := Tx.bind_ok.mp hbody₁
  simp only [balanceOf, Tx.read_bind, Tx.reject_bind_ok] at hbody₂
  obtain ⟨_, w, hpull, hbody₃⟩ := Tx.bind_ok.mp hbody₂.2
  obtain ⟨_, x, hsend, hbody₄⟩ := Tx.bind_ok.mp hbody₃
  obtain ⟨output, y, hswap, hbody₅⟩ := Tx.bind_ok.mp hbody₄
  simp only [Tx.reject_bind_ok, Tx.read_bind, checkedI128_bind_ok] at hbody₅
  obtain ⟨_, z, hslippage, hpay⟩ := Tx.bind_ok.mp hbody₅.2.2
  obtain ⟨hmin, hfloor, rfl⟩ := checkSlippage_ok hslippage
  have hquiet : Quiet s v := by
    have hchecked : Quiet s v₁ := trans_of Quiet
      (Tx.Respects.reject (R := Quiet) _ _ _ _ _ hpause) (validateSwap_reads (R := Quiet) _ _ _ hvalid)
    exact trans_of Quiet hchecked (Quiet.accrueUserRecord _ _ _ haccrue)
  have hin : Posts [.moved (.transfer swap.sellToken swap.sender h.self swap.amountIn)] s w :=
    .after_quiet hquiet (token_posts hpull)
  have hsame : w.tokens.balance swap.buyToken h.self = v.tokens.balance swap.buyToken h.self := by
    rw [(token_posts hpull).balance]
    simp [TrafficEvent.flow, TokenCall.flow, hadmits.tokens.symm]
  have hexchanged := exchanged_of_ok swap.buyToken hsend hswap
  rw [hsame] at hexchanged
  have hunlent : w.tokens.Unlent h.self := by
    rw [← hquiet.tokens] at hu
    exact token_unlent hu hpull trivial
  obtain ⟨-, held, hpaid⟩ := payOut_posts hpay
  have hfee := swapFee_bounds (hadmits.floor.le.trans hmin)
    (effectiveFeeBps_nonneg hb : 0 ≤ effectiveFeeBps userVolume feeBps) hc
  refine ⟨_, _, held, hmin, hfloor, hfee, ⟨w, z, hin, hexchanged, hpaid⟩, ?_⟩
  refine delivered_of_parts hs ht hrec hadmits.tokens hin ?_
    (hexchanged.sold hunlent hadmits.payment.positive.le) hexchanged.refunds hfee.1 hfee.2 hpaid
  omega

lemma Quiet.refund (hq : Quiet s t) (user token : Address) :
    t.refund user token = s.refund user token := by
  rw [Traffic.refund, hq.refunds, Traffic.refund]

variable {r : Traffic}

lemma Delivered.between (hr : Quiet r s) (hd : Delivered h sender sellToken buyToken s t)
    (ht : Quiet t v) : Delivered h sender sellToken buyToken r v := by
  refine ⟨?_, ?_, fun user token hk => ?_⟩
  · rw [ht.tokens, ← hr.tokens, ht.refund, ← hr.refund]
    exact hd.bought
  · rw [ht.tokens, ← hr.tokens]
    exact hd.sold
  · rw [ht.refund, ← hr.refund]
    exact hd.refunds user token hk

lemma SwapSettles.between (hr : Quiet r s)
    (hs : SwapSettles h cfg env swap platformTreasury out fee held s t) (ht : Quiet t v) :
    SwapSettles h cfg env swap platformTreasury out fee held r v := by
  obtain ⟨x, y, hin, hexchanged, hpay⟩ := hs.measured
  exact { hs with
    measured := ⟨x, y, .after_quiet hr hin, hexchanged, hpay.then_quiet ht⟩
    delivered := hs.delivered.between hr ht }

lemma SplitSettles.between (hr : Quiet r s)
    (hs : SplitSettles h env sender recipient sellToken buyToken amountIn splits platformTreasury
      given outputs fee held s t) (ht : Quiet t v) :
    SplitSettles h env sender recipient sellToken buyToken amountIn splits platformTreasury given
      outputs fee held r v := by
  obtain ⟨x, y, hin, hexchanges, hpay⟩ := hs.measured
  exact { hs with
    measured := ⟨x, y, .after_quiet hr hin, hexchanges, hpay.then_quiet ht⟩
    delivered := hs.delivered.between hr ht }

/-- Up to the pull and after the pay-out a split swap moves nothing. -/
lemma processSplitPaymentWithSwap_ok {delivered : ℤ} (hr : processSplitPaymentWithSwap h cfg env
      sender recipient sellToken buyToken amountIn splits platformTreasury feeBps feeCap s =
        .ok (delivered, t)) :
    ∃ v w x progress userVolume, Quiet s v ∧
      token h env (.transfer sellToken sender h.self amountIn) v = .ok ((), w) ∧
      Tx.fold (swapSplit h env sellToken buyToken amountIn) {} (markLast splits) w =
        .ok (progress, x) ∧
      payOut h env sender recipient buyToken platformTreasury progress.totalOut
        (effectiveFeeBps userVolume feeBps) feeCap x = .ok (delivered, t) := by
  simp only [processSplitPaymentWithSwap, requireAuth, Tx.demand_bind_ok, Tx.reject_bind_ok] at hr
  obtain ⟨-, -, -, hweights⟩ := hr
  obtain ⟨totalWeight, v₀, hw, hchecks⟩ := Tx.bind_ok.mp hweights
  simp only [Tx.reject_bind_ok] at hchecks
  obtain ⟨-, -, -, -, -, hbody⟩ := hchecks
  obtain ⟨userVolume, v, haccrue, hbody₁⟩ := Tx.bind_ok.mp hbody
  simp only [balanceOf, Tx.read_bind, Tx.reject_bind_ok] at hbody₁
  obtain ⟨_, w, hpull, hbody₂⟩ := Tx.bind_ok.mp hbody₁.2
  obtain ⟨progress, x, hswaps, hpay⟩ := Tx.bind_ok.mp hbody₂
  have hquiet : Quiet s v₀ := by
    refine Tx.Respects.fold (R := Quiet) (fun total split _ => ?_) _ _ _ hw
    exact .bind (.reject _ _) fun _ => .bind (.reject _ _) fun _ =>
      .bind (.reject _ _) fun _ => .pure _
  exact ⟨v, w, x, progress, userVolume,
    trans_of Quiet hquiet (Quiet.accrueUserRecord _ _ _ haccrue), hpull, hswaps, hpay⟩

lemma outputs_nonneg (hx : Exchanges h env sellToken buyToken splits given outputs s t)
    (hm : ∀ split ∈ splits, 0 < split.minAmountOut) : 0 ≤ outputs.sum := by
  induction hx with
  | nil => exact le_rfl
  | cons positive floor first rest ih =>
    have hfirst := hm _ List.mem_cons_self
    have hrest := ih fun split hs => hm split (List.mem_cons_of_mem _ hs)
    rw [List.sum_cons]
    omega

lemma processSplitPaymentWithSwap_settles {delivered : ℤ} (hu : s.tokens.Unlent h.self)
    (ht : platformTreasury ≠ h.self) (hrec : recipient ≠ h.self) (hb : 0 ≤ feeBps)
    (hc : 0 ≤ feeCap)
    (hadmits : cfg.AdmitsSplit h env sender recipient sellToken buyToken amountIn splits)
    (hr : processSplitPaymentWithSwap h cfg env sender recipient sellToken buyToken amountIn splits
      platformTreasury feeBps feeCap s = .ok (delivered, t)) :
    ∃ outputs fee held, SplitSettles h env sender recipient sellToken buyToken amountIn splits
      platformTreasury (splitShares amountIn splits) outputs fee held s t := by
  have hs := authorises_ne hadmits.authorised
  obtain ⟨v, w, x, progress, userVolume, hquiet, hpull, hswaps, hpay⟩ :=
    processSplitPaymentWithSwap_ok hr
  obtain ⟨outputs, hexchanges, htotal⟩ := swapSplits_ok hswaps
  rw [htotal, zero_add] at hpay
  have hin : Posts [.moved (.transfer sellToken sender h.self amountIn)] s w :=
    .after_quiet hquiet (token_posts hpull)
  have hunlent : w.tokens.Unlent h.self := by
    rw [← hquiet.tokens] at hu
    exact token_unlent hu hpull trivial
  have hsum : (splitShares amountIn splits).sum = amountIn := splitShares_sum hadmits.nonempty
  have hsold := hexchanges.sold hunlent
  rw [← splitShares, hsum] at hsold
  obtain ⟨-, held, hpaid⟩ := payOut_posts hpay
  have hfee := swapFee_bounds
    (outputs_nonneg hexchanges fun split hm => (hadmits.routes split hm).2.1)
    (effectiveFeeBps_nonneg hb : 0 ≤ effectiveFeeBps userVolume feeBps) hc
  exact ⟨outputs, _, held, hexchanges.given_pos, hsum,
    splitShares_fair hadmits.payment.positive.le hadmits.weights, hexchanges.minimums, hfee,
    ⟨w, x, hin, hexchanges, hpaid⟩, delivered_of_parts hs ht hrec hadmits.tokens hin
      hexchanges.bought hsold hexchanges.refunds hfee.1 hfee.2 hpaid⟩

lemma guardedSwaps_ok {α : Type} {a : α} {body : Address × ℤ × ℤ → Routing α}
    (hr : withGuard (do
        Tx.reject (cfg.isFrozenInternal = true) Error.contractFrozen
        requireSwapsNotPaused cfg
        let fees ← cfg.loadFeeConfig
        body fees) s = .ok (a, t)) :
    ∃ fees v w, cfg.platformTreasury = some fees.1 ∧ cfg.feeBps = some fees.2.1 ∧
      cfg.feeCap = some fees.2.2 ∧ Quiet s v ∧ body fees v = .ok (a, w) ∧ Quiet w t := by
  obtain ⟨v, w, hbefore, hbody, hafter⟩ := withGuard_ok hr
  simp only [Tx.reject_bind_ok] at hbody
  obtain ⟨_, x, hpause, hload⟩ := Tx.bind_ok.mp hbody.2
  obtain ⟨fees, y, hfees, hpay⟩ := Tx.bind_ok.mp hload
  obtain ⟨htreasury, hbps, hcap, rfl⟩ := loadFeeConfig_ok hfees
  have hpassed := Tx.Respects.reject (R := Quiet) _ _ _ _ _ hpause
  exact ⟨fees, y, w, htreasury, hbps, hcap, trans_of Quiet hbefore hpassed, hpay, hafter⟩

lemma routePaymentWithSwap_settles {delivered : ℤ} (hu : s.tokens.Unlent h.self)
    (hn : cfg.FeesNonnegative) (ht : cfg.platformTreasury ≠ some h.self)
    (hrec : swap.recipient ≠ h.self)
    (hr : routePaymentWithSwap h cfg env swap s = .ok (delivered, t)) :
    ∃ platformTreasury out fee held, cfg.platformTreasury = some platformTreasury ∧
      SwapSettles h cfg env swap platformTreasury out fee held s t := by
  have hadmits := routePaymentWithSwap_shows _ _ _ hr
  obtain ⟨fees, v, w, htreasury, hbps, hcap, hbefore, hpay, hafter⟩ := guardedSwaps_ok hr
  rw [← hbefore.tokens] at hu
  obtain ⟨out, fee, held, hsettles⟩ := processSingleSwapPayment_settles hu
    (fun he => ht (by rw [htreasury, he])) hrec (hn.bps _ hbps) (hn.cap _ hcap) hadmits hpay
  exact ⟨fees.1, out, fee, held, htreasury, hsettles.between hbefore hafter⟩

lemma swaps_settle {payments : List SwapPayment} {total delivered : ℤ}
    (ht : platformTreasury ≠ h.self) (hrec : ∀ swap ∈ payments, swap.recipient ≠ h.self)
    (hb : 0 ≤ feeBps) (hc : 0 ≤ feeCap) (hadmits : ∀ swap ∈ payments, cfg.AdmitsSwap h env swap)
    (hu : s.tokens.Unlent h.self) (hq : Quiet r s)
    (hr : Tx.fold (fun totalDelivered payment => do
        let delivered ← processSingleSwapPayment h cfg env payment platformTreasury feeBps feeCap
        checkedI128 (totalDelivered + delivered)) total payments s = .ok (delivered, t))
    (hend : Quiet t v) : SwapsSettle h cfg env platformTreasury payments r v := by
  induction payments generalizing total s r with
  | nil =>
    obtain ⟨-, rfl⟩ := Tx.fold_nil.mp hr
    exact .nil (trans_of Quiet hq hend)
  | cons swap swaps ih =>
    obtain ⟨_, x, hx, hlater⟩ := Tx.fold_cons.mp hr
    obtain ⟨paid, y, hpay, hcount⟩ := Tx.bind_ok.mp hx
    obtain rfl := checkedI128_reads (R := Eq) _ _ _ hcount
    obtain ⟨out, fee, held, hfirst⟩ := processSingleSwapPayment_settles hu ht
      (hrec swap List.mem_cons_self) hb hc (hadmits swap List.mem_cons_self) hpay
    refine .cons (hfirst.between hq (refl_of Quiet _)) ?_
    exact ih (fun swap hs => hrec swap (List.mem_cons_of_mem _ hs))
      (fun swap hs => hadmits swap (List.mem_cons_of_mem _ hs))
      (processSingleSwapPayment_unlent _ _ _ hu hpay) (refl_of Quiet _) hlater

lemma routePaymentsWithSwap_settles {payments : List SwapPayment} {delivered : ℤ}
    (hu : s.tokens.Unlent h.self) (hn : cfg.FeesNonnegative)
    (ht : cfg.platformTreasury ≠ some h.self)
    (hrec : ∀ swap ∈ payments, swap.recipient ≠ h.self)
    (hr : routePaymentsWithSwap h cfg env payments s = .ok (delivered, t)) :
    ∃ platformTreasury, cfg.platformTreasury = some platformTreasury ∧
      SwapsSettle h cfg env platformTreasury payments s t := by
  have hadmits := routePaymentsWithSwap_shows _ _ _ hr
  obtain ⟨fees, v, w, htreasury, hbps, hcap, hbefore, hpay, hafter⟩ := guardedSwaps_ok hr
  rw [← hbefore.tokens] at hu
  exact ⟨fees.1, htreasury, swaps_settle (fun he => ht (by rw [htreasury, he])) hrec
    (hn.bps _ hbps) (hn.cap _ hcap) hadmits hu hbefore hpay hafter⟩

lemma routeSplitPaymentWithSwap_settles {delivered : ℤ} (hu : s.tokens.Unlent h.self)
    (hn : cfg.FeesNonnegative) (ht : cfg.platformTreasury ≠ some h.self) (hrec : recipient ≠ h.self)
    (hr : routeSplitPaymentWithSwap h cfg env sender recipient sellToken buyToken amountIn splits s =
      .ok (delivered, t)) :
    ∃ platformTreasury outputs fee held, cfg.platformTreasury = some platformTreasury ∧
      SplitSettles h env sender recipient sellToken buyToken amountIn splits platformTreasury
        (splitShares amountIn splits) outputs fee held s t := by
  have hadmits := routeSplitPaymentWithSwap_shows _ _ _ hr
  obtain ⟨fees, v, w, htreasury, hbps, hcap, hbefore, hpay, hafter⟩ := guardedSwaps_ok hr
  rw [← hbefore.tokens] at hu
  obtain ⟨outputs, fee, held, hsettles⟩ := processSplitPaymentWithSwap_settles hu
    (fun he => ht (by rw [htreasury, he])) hrec (hn.bps _ hbps) (hn.cap _ hcap) hadmits hpay
  exact ⟨fees.1, outputs, fee, held, htreasury, hsettles.between hbefore hafter⟩

end Settlement

/-- A swap that succeeds, split, single or one of a batch, hands all of its input out in positive
shares, meets its floors, and leaves the router with what it had and the refund it owes. -/
theorem swaps_delivered (h : Host) (tokens : Ledger Address Address) (calls : List Call) (env : Env)
    (hu : tokens.Unlent h.self) (hn : (after h tokens calls).settings.FeesNonnegative)
    (ht : (after h tokens calls).settings.platformTreasury ≠ some h.self) :
    let s := after h tokens calls
    let next := fun op : RoutingOp => (step h ⟨env, .route op⟩ s).traffic
    (∀ sender recipient sellToken buyToken amountIn splits, recipient ≠ h.self →
      let op := .routeSplitPaymentWithSwap sender recipient sellToken buyToken amountIn splits
      Tx.succeeds ((Op.route op).invoke h env) s = true →
        ∃ platformTreasury outputs fee held,
          s.settings.platformTreasury = some platformTreasury ∧
          SplitSettles h env sender recipient sellToken buyToken amountIn splits platformTreasury
            (splitShares amountIn splits) outputs fee held s.traffic (next op)) ∧
    (∀ swap : SwapPayment, swap.recipient ≠ h.self →
      let op := .routePaymentWithSwap swap
      Tx.succeeds ((Op.route op).invoke h env) s = true →
        ∃ platformTreasury out fee held, s.settings.platformTreasury = some platformTreasury ∧
          SwapSettles h s.settings env swap platformTreasury out fee held s.traffic (next op)) ∧
    (∀ payments : List SwapPayment, (∀ swap ∈ payments, swap.recipient ≠ h.self) →
      let op := .routePaymentsWithSwap payments
      Tx.succeeds ((Op.route op).invoke h env) s = true →
        ∃ platformTreasury, s.settings.platformTreasury = some platformTreasury ∧
          SwapsSettle h s.settings env platformTreasury payments s.traffic (next op)) := by
  intro s next
  have hunlent : s.traffic.tokens.Unlent h.self := after_unlent hu calls
  have hbody (op : RoutingOp) (hok : Tx.succeeds ((Op.route op).invoke h env) s = true) :
      op.invoke h env s.settings s.traffic = .ok ((), next op) := by
    obtain ⟨_, hr⟩ := Tx.succeeds_iff.mp hok
    obtain ⟨v, hv, hstep⟩ := route_ok hr
    have he : next op = v := congrArg State.traffic hstep
    rwa [he]
  refine ⟨?_, ?_, ?_⟩
  · intro sender recipient sellToken buyToken amountIn splits hrec op hok
    obtain ⟨delivered, hr⟩ := Tx.void_ok.mp (hbody op hok)
    exact routeSplitPaymentWithSwap_settles hunlent hn ht hrec hr
  · intro swap hrec op hok
    obtain ⟨delivered, hr⟩ := Tx.void_ok.mp (hbody op hok)
    exact routePaymentWithSwap_settles hunlent hn ht hrec hr
  · intro payments hrec op hok
    obtain ⟨delivered, hr⟩ := Tx.void_ok.mp (hbody op hok)
    exact routePaymentsWithSwap_settles hunlent hn ht hrec hr

section Examples

def fundedSwaps : List Call :=
  [⟨signedBy [⟨1⟩], .administer (.initializeRouter ⟨1⟩ ⟨9⟩ 1000 1000 1000)⟩,
    ⟨signedBy [⟨1⟩], .configure (.registerDex ⟨6⟩)⟩,
    ⟨{}, .outside (.mint ⟨20⟩ ⟨3⟩ 200)⟩, ⟨{}, .outside (.mint ⟨21⟩ ⟨6⟩ 200)⟩]

/-- The DEX pays in 30 whenever it is called, and the transfers listed as refused fail. -/
def payingThirty (dexCalls refused : List ℕ) : Env :=
  { signedBy [⟨3⟩] with
    reply := fun n =>
      { returns := true, accepts := decide (n ∉ refused), output := (⟨21⟩, 30),
        calls := if n ∈ dexCalls then [.transfer ⟨21⟩ ⟨6⟩ ⟨0⟩ 30] else [] } }

def thirds : List SplitRoute := [⟨⟨6⟩, 3333, 30⟩, ⟨⟨6⟩, 3333, 30⟩, ⟨⟨6⟩, 3334, 30⟩]

def thirtyFor (amountIn : ℤ) : SwapPayment := ⟨⟨3⟩, ⟨4⟩, ⟨20⟩, ⟨21⟩, amountIn, 20, 33, 0, ⟨6⟩⟩

theorem swaps_delivered_thirty :
    let s := after .sample emptyLedger fundedSwaps
    let split := payingThirty [2, 4, 6] [8]
    let batch := payingThirty [2, 7] []
    let next := fun env op => (step .sample ⟨env, .route op⟩ s).traffic
    (∃ outputs fee held, SplitSettles .sample split ⟨3⟩ ⟨4⟩ ⟨20⟩ ⟨21⟩ 100 thirds ⟨9⟩ [33, 33, 34]
        outputs fee held s.traffic
        (next split (.routeSplitPaymentWithSwap ⟨3⟩ ⟨4⟩ ⟨20⟩ ⟨21⟩ 100 thirds))) ∧
      (∃ out fee held, SwapSettles .sample s.settings batch (thirtyFor 40) ⟨9⟩ out fee held
        s.traffic (next batch (.routePaymentWithSwap (thirtyFor 40)))) ∧
      SwapsSettle .sample s.settings batch ⟨9⟩ [thirtyFor 40, thirtyFor 50] s.traffic
        (next batch (.routePaymentsWithSwap [thirtyFor 40, thirtyFor 50])) := by
  intro s split batch next
  have hbps : s.settings.feeBps = some 1000 := rfl
  have hcap : s.settings.feeCap = some 1000 := rfl
  have hfees := Settings.FeesNonnegative.of_eq hbps hcap (by norm_num) (by norm_num)
  have htreasury : s.settings.platformTreasury = some ⟨9⟩ := rfl
  have hshares : splitShares 100 thirds = [33, 33, 34] := by decide +kernel
  have hsplit := swaps_delivered .sample emptyLedger fundedSwaps split (fun _ _ => le_rfl) hfees
    (by decide)
  have hbatch := swaps_delivered .sample emptyLedger fundedSwaps batch (fun _ _ => le_rfl) hfees
    (by decide)
  refine ⟨?_, ?_, ?_⟩
  · obtain ⟨treasury, outputs, fee, held, ht, hs⟩ :=
      hsplit.1 ⟨3⟩ ⟨4⟩ ⟨20⟩ ⟨21⟩ 100 thirds (by decide) (by decide +kernel)
    obtain rfl := Option.some.inj (htreasury.symm.trans ht)
    rw [hshares] at hs
    exact ⟨outputs, fee, held, hs⟩
  · obtain ⟨treasury, out, fee, held, ht, hs⟩ :=
      hbatch.2.1 (thirtyFor 40) (by decide) (by decide +kernel)
    obtain rfl := Option.some.inj (htreasury.symm.trans ht)
    exact ⟨out, fee, held, hs⟩
  · obtain ⟨treasury, ht, hs⟩ :=
      hbatch.2.2 [thirtyFor 40, thirtyFor 50] (by decide) (by decide +kernel)
    obtain rfl := Option.some.inj (htreasury.symm.trans ht)
    exact hs

/-- The share of the last split is refused, and stays in the router as a refund. -/
example :
    let s := after .sample emptyLedger fundedSwaps
    let t := step .sample ⟨payingThirty [2, 4, 6] [8], .route
      (.routeSplitPaymentWithSwap ⟨3⟩ ⟨4⟩ ⟨20⟩ ⟨21⟩ 100 thirds)⟩ s
    t.traffic.refund ⟨3⟩ ⟨21⟩ = 81 ∧ t.traffic.tokens.balance ⟨21⟩ ⟨0⟩ = 81 := by
  decide +kernel

end Examples

end StellarTags.Router
