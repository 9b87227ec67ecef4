import StellarTags.Router.Multihop

/-! What a raw swap pays with: the proceeds it brought in, or the sender's own tokens. -/

namespace StellarTags.Router

open Library.Transactions Library.Integers Library.Tokens Soroban

def TrafficEvent.paidTo (token : Address) (payees : List Address) : TrafficEvent → ℤ
  | .moved (.transfer k _ target amount) | .moved (.transferFrom k _ _ target amount) =>
    if k = token ∧ target ∈ payees then amount else 0
  | _ => 0

section Settlement

variable {h : Host} {env : Env} {s t : Traffic} {call : TokenCall Address Address} {u : Unit}
  {done : Bool} {sender recipient token platformTreasury account k : Address}
  {amount share fee feeBps feeCap userVolume : ℤ} {held : Bool} {payees : List Address}

lemma tryToken_ok (hr : tryToken h env call s = .ok (done, t)) : t.calls = s.calls + 1 ∧
    (done = true ↔ (s.tokens.apply call).isSome ∧ (env.reply s.calls).accepts = true ∧
      consents h env call = true) ∧ (done = false → t.tokens = s.tokens) := by
  obtain ⟨reply, w, hw, hd⟩ := Tx.bind_ok.mp hr
  obtain ⟨rfl, rfl⟩ := nextReply_ok.mp hw
  rw [Tx.read_bind] at hd
  cases hl : s.tokens.apply call with
  | none =>
    simp only [hl, Tx.pure_ok] at hd
    obtain ⟨rfl, rfl⟩ := hd
    simp
  | some ledger =>
    simp only [hl] at hd
    split_ifs at hd with ha
    · obtain ⟨rfl, rfl⟩ := Tx.pure_ok.mp hd
      exact ⟨rfl, by simpa using ha, by simp⟩
    · obtain ⟨rfl, rfl⟩ := Tx.pure_ok.mp hd
      exact ⟨rfl, by simpa using ha, fun _ => rfl⟩

/-- The sender could pay either, so a share is held only when its recipient refuses it. -/
lemma deliver_settles (hr : deliver h env sender token share (.transfer token sender recipient share)
      (.transfer token sender h.self share) s = .ok (u, t)) :
    Posts (shareEvents sender token share (.transfer token sender recipient share)
      [.moved (.transfer token sender h.self share)] (!(env.reply s.calls).accepts)) s t := by
  unfold shareEvents
  rcases Tx.whenever_ok.mp hr with ⟨hpos, hsend⟩ | ⟨hz, rfl⟩
  · rw [if_pos hpos]
    obtain ⟨delivered, v, hv, hkeep⟩ := Tx.bind_ok.mp hsend
    obtain ⟨-, hdone, hsame⟩ := tryToken_ok hv
    have hdelivered := tryToken_posts hv
    rcases Tx.whenever_ok.mp hkeep with ⟨rfl, hback⟩ | ⟨hd, rfl⟩
    · obtain ⟨held, w, hw, hcredit⟩ := Tx.bind_ok.mp hback
      obtain ⟨hh, hlast⟩ := Tx.reject_bind_ok.mp hcredit
      rw [Bool.not_eq_false] at hh
      subst hh
      obtain ⟨-, hheld, -⟩ := tryToken_ok hw
      have hable := hheld.mp rfl
      rw [hsame rfl] at hable
      have haccepts : (env.reply s.calls).accepts = false := by
        rw [← Bool.not_eq_true]
        intro ha
        have hrefused := mt hdone.mpr (by simp)
        exact hrefused ⟨by simpa [Ledger.apply] using hable.1, ha, hable.2.2⟩
      have hkept := (hdelivered.trans (tryToken_posts hw)).trans (creditRefundBalance_posts hlast)
      simpa [haccepts] using hkept
    · rw [Bool.not_eq_false] at hd
      subst hd
      have haccepts := (hdone.mp rfl).2.1
      simpa [haccepts] using hdelivered
  · rw [if_neg hz]
    exact .quiet (refl_of Quiet _)

lemma accrueUserRecord_calls (hr : accrueUserRecord env sender amount s = .ok (userVolume, t)) :
    t.calls = s.calls := by
  simp only [accrueUserRecord, Tx.read_bind, subU64_bind_ok, Tx.reject_bind_ok,
    Tx.update_bind] at hr
  obtain ⟨_, w, hw, hend⟩ := Tx.bind_ok.mp hr.2.2.2
  obtain ⟨-, rfl⟩ := Tx.pure_ok.mp hend
  rcases Tx.whenever_ok.mp hw with ⟨-, hdrop⟩ | ⟨-, rfl⟩
  · rw [Tx.update_ok.mp hdrop]
    rfl
  · rfl

lemma fee_calls (hr : (Tx.whenever (0 < fee) do
      let paid ← tryToken h env call
      Tx.reject (paid = false) Error.limitExceeded) s = .ok (u, t)) :
    t.calls = s.calls + if 0 < fee then 1 else 0 := by
  rcases Tx.whenever_ok.mp hr with ⟨hpos, hpaid⟩ | ⟨hz, rfl⟩
  · obtain ⟨paid, v, hv, hend⟩ := Tx.bind_ok.mp hpaid
    obtain ⟨-, rfl⟩ := Tx.reject_ok.mp hend
    rw [if_pos hpos]
    exact (tryToken_ok hv).1
  · rw [if_neg hz, add_zero]

lemma processSinglePayment_settles (hr : processSinglePayment h env sender recipient token amount
      platformTreasury feeBps feeCap s = .ok (u, t)) :
    let fee := directFee amount (s.rate env sender feeBps) feeCap
    Posts (paymentEvents h (.transfer token sender) sender recipient token platformTreasury amount
      fee (!(env.reply (s.calls + if 0 < fee then 1 else 0)).accepts)) s t := by
  obtain ⟨userVolume, v, hv, hpay⟩ := Tx.bind_ok.mp hr
  have hcalls := accrueUserRecord_calls hv
  obtain ⟨rfl, hquiet⟩ := accrueUserRecord_ok hv
  simp only [balanceOf, Tx.read_bind, Tx.reject_bind_ok, checkedI128_bind_ok] at hpay
  obtain ⟨_, w, hw, hdeliver⟩ := Tx.bind_ok.mp hpay.2.2
  have hshare := deliver_settles hdeliver
  rw [fee_calls hw, hcalls] at hshare
  exact .after_quiet hquiet ((fee_posts hw).trans hshare)

end Settlement

/-- A raw swap as its sender asks for it. -/
structure RawSwap where
  sender : Address
  recipient : Address
  dexRouter : Address
  tokenIn : Address
  tokenOut : Address
  amountIn : ℤ
  path : List Address
  minAmountOut : ℤ

namespace RawSwap

def op (swap : RawSwap) : Op :=
  .route (.routePaymentWithSwapRaw swap.sender swap.recipient swap.dexRouter swap.tokenIn
    swap.tokenOut swap.amountIn swap.path swap.minAmountOut)

/-- The DEX answers the second outside call, and its report is taken at its word. -/
def dexReply (env : Env) (s : Traffic) : Reply := env.reply (s.calls + 1)

def received (env : Env) (s : Traffic) : ℤ := (dexReply env s).amounts.getD 0 0

def unused (env : Env) (s : Traffic) : ℤ := (dexReply env s).amounts.getD 1 0

def handed (swap : RawSwap) (s : Traffic) : Ledger Address Address :=
  s.tokens.move swap.tokenIn swap.sender swap.dexRouter swap.amountIn

def swapped (swap : RawSwap) (h : Host) (env : Env) (s : Traffic) : Ledger Address Address :=
  (swap.handed s).others h.self (dexReply env s).calls

def proceeds (swap : RawSwap) (h : Host) (env : Env) (s : Traffic) : ℤ :=
  (swap.swapped h env s).balance swap.tokenOut h.self -
    (swap.handed s).balance swap.tokenOut h.self

def fee (swap : RawSwap) (env : Env) (feeBps feeCap : ℤ) (s : Traffic) : ℤ :=
  directFee (received env s) (s.rate env swap.sender feeBps) feeCap

/-- Whether the share of the recipient is refused: the answer comes after those to the refund of
the unused input and to the fee. -/
def refused (env : Env) (fee : ℤ) (s : Traffic) : Bool :=
  !(env.reply (s.calls + 2 + (if 0 < unused env s then 1 else 0) +
    if 0 < fee then 1 else 0)).accepts

def settlement (swap : RawSwap) (h : Host) (env : Env) (platformTreasury : Address) (fee : ℤ)
    (s : Traffic) : List TrafficEvent :=
  paymentEvents h (.transfer swap.tokenOut swap.sender) swap.sender swap.recipient swap.tokenOut
    platformTreasury (received env s) fee (refused env fee s)

def payee (swap : RawSwap) (h : Host) (env : Env) (fee : ℤ) (s : Traffic) : Address :=
  if refused env fee s = true then h.self else swap.recipient

def charge (swap : RawSwap) (env : Env) (platformTreasury : Address) (fee : ℤ) (s : Traffic) : ℤ :=
  (received env s - fee) + if platformTreasury = swap.sender then 0 else max fee 0

def payment (swap : RawSwap) (h : Host) (env : Env) (platformTreasury : Address) (fee : ℤ)
    (s : Traffic) : ℤ :=
  max fee 0 + if swap.payee h env fee s ∈ [swap.recipient, platformTreasury] then
    received env s - fee else 0

end RawSwap

/-- The recipient and the treasury are paid, by what is `settled`, just what the DEX delivered to
the router, and the sender has given no more than its input for it. -/
structure PaidFromProceeds (h : Host) (env : Env) (swap : RawSwap) (platformTreasury : Address)
    (settled : List TrafficEvent) (s t : Traffic) : Prop where
  kept : s.tokens.balance swap.tokenOut swap.sender ≤ t.tokens.balance swap.tokenOut swap.sender
  debited : s.tokens.balance swap.tokenIn swap.sender - swap.amountIn ≤
    t.tokens.balance swap.tokenIn swap.sender
  delivered : (settled.map (TrafficEvent.paidTo swap.tokenOut
    [swap.recipient, platformTreasury])).sum = swap.proceeds h env s

/-- The DEX delivers to the router what will be paid out and hands the sender as much again. -/
structure PaidTwice (h : Host) (env : Env) (swap : RawSwap) (platformTreasury : Address) (fee : ℤ)
    (s : Traffic) : Prop where
  reimbursed : s.tokens.balance swap.tokenOut swap.sender +
      swap.charge env platformTreasury fee s ≤
    (swap.swapped h env s).balance swap.tokenOut swap.sender +
      if swap.tokenIn = swap.tokenOut then RawSwap.unused env s else 0
  spared : s.tokens.balance swap.tokenIn swap.sender ≤
    (swap.swapped h env s).balance swap.tokenIn swap.sender + RawSwap.unused env s + swap.amountIn
  reported : swap.payment h env platformTreasury fee s = swap.proceeds h env s

section Raw

variable {h : Host} {cfg : Settings} {env : Env} {s t v w : Traffic} {u : Unit} {swap : RawSwap}
  {platformTreasury k : Address} {fee : ℤ} {call : TokenCall Address Address}

lemma returned_calls (hr : Tx.whenever (0 < fee) (token h env call) s = .ok (u, t)) :
    t.calls = s.calls + (if 0 < fee then 1 else 0) ∧ t.rate = s.rate := by
  rcases Tx.whenever_ok.mp hr with ⟨hpos, hpaid⟩ | ⟨hz, rfl⟩
  · obtain ⟨ledger, -, -, rfl⟩ := token_ok hpaid
    rw [if_pos hpos]
    exact ⟨rfl, rfl⟩
  · rw [if_neg hz]
    exact ⟨rfl, rfl⟩

lemma routePaymentWithSwapRaw_ok (hr : routePaymentWithSwapRaw h cfg env swap.sender swap.recipient
      swap.dexRouter swap.tokenIn swap.tokenOut swap.amountIn swap.path swap.minAmountOut s =
        .ok (u, t)) :
    swap.sender ≠ h.self ∧ ∃ platformTreasury feeBps feeCap v w, cfg.platformTreasury = some platformTreasury ∧
      cfg.feeBps = some feeBps ∧ cfg.feeCap = some feeCap ∧ v.tokens = swap.swapped h env s ∧
      v.journal = [.invoked swap.dexRouter,
        .moved (.transfer swap.tokenIn swap.sender swap.dexRouter swap.amountIn)] ++ s.journal ∧
      0 ≤ RawSwap.unused env s ∧
      Posts (feeEvents (RawSwap.unused env s)
        (.transfer swap.tokenIn h.self swap.sender (RawSwap.unused env s))) v w ∧
      Posts (swap.settlement h env platformTreasury (swap.fee env feeBps feeCap s) s) w t := by
  obtain ⟨_, v₀, hvalid, hbody⟩ := Tx.bind_ok.mp hr
  obtain ⟨rfl, hs⟩ := validateSwapRaw_reads (P := (· = s)) s () v₀ rfl hvalid
  obtain ⟨fees, v₁, hload, hbody₁⟩ := Tx.bind_ok.mp hbody
  obtain ⟨htreasury, hbps, hcap, rfl⟩ := loadFeeConfig_ok hload
  obtain ⟨_, v₂, htaken, hbody₂⟩ := Tx.bind_ok.mp hbody₁
  obtain ⟨ledger, hledger, -, rfl⟩ := token_ok htaken
  simp only [Ledger.apply, Option.ite_none_right_eq_some, Option.some.injEq] at hledger
  obtain ⟨-, rfl⟩ := hledger
  obtain ⟨result, v₃, hswap, hbody₃⟩ := Tx.bind_ok.mp hbody₂
  obtain ⟨reply, v₄, hreply, hresult⟩ := Tx.bind_ok.mp hswap
  obtain ⟨hamounts, rfl⟩ := Tx.pure_ok.mp hresult
  obtain ⟨rfl, rfl⟩ := invokeContract_ok hreply
  split at hbody₃
  · rename_i amountReceived unusedInput
    simp only [Tx.reject_bind_ok, not_or, not_lt, not_le] at hbody₃
    obtain ⟨⟨-, -, hnonneg⟩, hbody₄⟩ := hbody₃
    obtain ⟨_, w, hback, hpay⟩ := Tx.bind_ok.mp hbody₄
    have hreceived : RawSwap.received env v₁ = amountReceived := (congrArg (·.getD 0 0) hamounts).symm
    have hunused : RawSwap.unused env v₁ = unusedInput := (congrArg (·.getD 1 0) hamounts).symm
    obtain ⟨hcalls, hrate⟩ := returned_calls hback
    have hsettled := processSinglePayment_settles hpay
    rw [hcalls, hrate, ← hreceived, ← hunused] at hsettled
    rw [← hunused] at hnonneg hback
    exact ⟨hs, fees.1, fees.2.1, fees.2.2, _, w, htreasury, hbps, hcap, rfl, rfl, hnonneg,
      charge_posts hback, hsettled⟩
  · simp at hbody₃

lemma sender_balance (hs : swap.sender ≠ h.self) (hne : swap.sender ≠ swap.recipient)
    (hv : v.tokens = swap.swapped h env s) (hunused : 0 ≤ RawSwap.unused env s)
    (hle : fee ≤ RawSwap.received env s)
    (hback : Posts (feeEvents (RawSwap.unused env s)
      (.transfer swap.tokenIn h.self swap.sender (RawSwap.unused env s))) v w)
    (hpay : Posts (swap.settlement h env platformTreasury fee s) w t) (k : Address) :
    t.tokens.balance k swap.sender = (swap.swapped h env s).balance k swap.sender +
      (if k = swap.tokenIn then RawSwap.unused env s else 0) -
        if k = swap.tokenOut then swap.charge env platformTreasury fee s else 0 := by
  have hw := hback.balance k swap.sender
  rw [flow_feeEvents hunused fun hz => by simp [TokenCall.flow, hz]] at hw
  have hpayee : swap.sender ≠ swap.payee h env fee s := by
    rw [RawSwap.payee]
    split_ifs
    · exact hs
    · exact hne
  have ht := hpay.balance k swap.sender
  rw [RawSwap.settlement, sum_paymentEvents (fun _ _ _ => rfl)
    (fun _ => by simp [TrafficEvent.flow, TokenCall.flow]) hle] at ht
  simp only [TrafficEvent.flow, TokenCall.flow, hs, and_true, and_false, if_false] at ht hw
  rw [ht, hw, hv, RawSwap.charge, ← RawSwap.payee]
  by_cases hk : k = swap.tokenOut
  · by_cases htreasury : platformTreasury = swap.sender
    · simp [hk, htreasury, hpayee]
      omega
    · simp [hk, htreasury, Ne.symm htreasury, hpayee]
      omega
  · simp [hk]

lemma paidTo_settlement (hle : fee ≤ RawSwap.received env s) :
    ((swap.settlement h env platformTreasury fee s).map (TrafficEvent.paidTo swap.tokenOut
      [swap.recipient, platformTreasury])).sum = swap.payment h env platformTreasury fee s := by
  rw [RawSwap.settlement, sum_paymentEvents (fun _ _ _ => rfl)
    (fun _ => by simp [TrafficEvent.paidTo]) hle, ← RawSwap.payee]
  simp [TrafficEvent.paidTo, RawSwap.payment]

lemma paidFromProceeds_iff (ha : 0 < swap.amountIn) (hle : fee ≤ RawSwap.received env s)
    (hbalance : ∀ k, t.tokens.balance k swap.sender =
      (swap.swapped h env s).balance k swap.sender +
        (if k = swap.tokenIn then RawSwap.unused env s else 0) -
          if k = swap.tokenOut then swap.charge env platformTreasury fee s else 0) :
    PaidFromProceeds h env swap platformTreasury
        (swap.settlement h env platformTreasury fee s) s t ↔
      PaidTwice h env swap platformTreasury fee s := by
  have hout := hbalance swap.tokenOut
  have hin := hbalance swap.tokenIn
  have hcharge : 0 ≤ swap.charge env platformTreasury fee s := by
    rw [RawSwap.charge]
    split_ifs <;> omega
  have hkept : s.tokens.balance swap.tokenOut swap.sender ≤
      t.tokens.balance swap.tokenOut swap.sender ↔
    s.tokens.balance swap.tokenOut swap.sender + swap.charge env platformTreasury fee s ≤
      (swap.swapped h env s).balance swap.tokenOut swap.sender +
        if swap.tokenIn = swap.tokenOut then RawSwap.unused env s else 0 := by
    rw [hout, if_pos rfl]
    simp only [eq_comm (a := swap.tokenOut)]
    omega
  have hdebited (hk : s.tokens.balance swap.tokenOut swap.sender ≤
      t.tokens.balance swap.tokenOut swap.sender) :
      s.tokens.balance swap.tokenIn swap.sender - swap.amountIn ≤
        t.tokens.balance swap.tokenIn swap.sender ↔
      s.tokens.balance swap.tokenIn swap.sender ≤
        (swap.swapped h env s).balance swap.tokenIn swap.sender + RawSwap.unused env s +
          swap.amountIn := by
    -- One token on both sides: what is kept of it is also what the input is taken from.
    by_cases he : swap.tokenIn = swap.tokenOut
    · simp only [he, if_true] at hin hk ⊢
      omega
    · simp only [he, if_true, if_false] at hin
      omega
  constructor
  · intro hp
    refine ⟨hkept.mp hp.kept, (hdebited hp.kept).mp hp.debited, ?_⟩
    rw [← paidTo_settlement hle, hp.delivered]
  · intro hp
    have hk := hkept.mpr hp.reimbursed
    refine ⟨hk, (hdebited hk).mpr hp.spared, ?_⟩
    rw [paidTo_settlement hle, hp.reported]

end Raw

/-- A raw swap that succeeds pays from its proceeds exactly when the DEX delivers twice: to the
router what will be paid out, and to the sender what is taken for it. -/
theorem raw_swap_proceeds_iff (h : Host) (env : Env) (swap : RawSwap) (s : State)
    (hok : Tx.succeeds (swap.op.invoke h env) s = true) :
    let t := step h ⟨env, swap.op⟩ s
    ∃ platformTreasury feeBps feeCap settled, s.settings.platformTreasury = some platformTreasury ∧
      s.settings.feeBps = some feeBps ∧ s.settings.feeCap = some feeCap ∧
      t.traffic.journal = settled ++ feeEvents (RawSwap.unused env s.traffic)
          (.transfer swap.tokenIn h.self swap.sender (RawSwap.unused env s.traffic)) ++
        [.invoked swap.dexRouter,
          .moved (.transfer swap.tokenIn swap.sender swap.dexRouter swap.amountIn)] ++
        s.traffic.journal ∧
      (PaidFromProceeds h env swap platformTreasury settled s.traffic t.traffic ↔
        PaidTwice h env swap platformTreasury (swap.fee env feeBps feeCap s.traffic) s.traffic) := by
  intro t
  obtain ⟨_, hr⟩ := Tx.succeeds_iff.mp hok
  obtain ⟨x, hraw, hstep⟩ := route_ok hr
  have ht : t.traffic = x := congrArg State.traffic hstep
  have hadmits := routePaymentWithSwapRaw_shows _ _ _ hraw
  obtain ⟨hs, platformTreasury, feeBps, feeCap, v, w, htreasury, hbps, hcap, hv, hjournal, hunused,
    hback, hpay⟩ := routePaymentWithSwapRaw_ok hraw
  have hle : swap.fee env feeBps feeCap s.traffic ≤ RawSwap.received env s.traffic := capFee_le
  have hbalance := sender_balance hs hadmits.payment.parties hv hunused hle hback hpay
  rw [ht]
  refine ⟨platformTreasury, feeBps, feeCap, _, htreasury, hbps, hcap, ?_,
    paidFromProceeds_iff hadmits.payment.positive hle hbalance⟩
  rw [hpay.journal, hback.journal, hjournal]
  simp only [List.append_assoc]

section Examples

/-- `⟨3⟩` holds 100 of what it sells and 95 of what it buys; DEX `⟨6⟩` holds 200 of the latter. -/
def fundedSwap : List Call :=
  [⟨signedBy [⟨1⟩], .administer (.initializeRouter ⟨1⟩ ⟨9⟩ 1000 1000 1000)⟩,
    ⟨{}, .outside (.mint ⟨20⟩ ⟨3⟩ 100)⟩, ⟨{}, .outside (.mint ⟨21⟩ ⟨3⟩ 95)⟩,
    ⟨{}, .outside (.mint ⟨21⟩ ⟨6⟩ 200)⟩]

def sellHundred : RawSwap := ⟨⟨3⟩, ⟨4⟩, ⟨6⟩, ⟨20⟩, ⟨21⟩, 100, [⟨20⟩, ⟨21⟩], 90⟩

/-- The DEX reports 90 and makes these transfers; the tokens accept all others. -/
def sellingThrough (calls : List (TokenCall Address Address)) : Env :=
  { signedBy [⟨3⟩] with
    reply := fun n => { returns := true, accepts := true, amounts := [90, 0],
                        calls := if n = 1 then calls else [] } }

theorem raw_swap_proceeds_reimbursed :
    let s := after .sample emptyLedger fundedSwap
    let env := sellingThrough [.transfer ⟨21⟩ ⟨6⟩ ⟨0⟩ 90, .transfer ⟨21⟩ ⟨6⟩ ⟨3⟩ 90]
    ∃ settled, PaidFromProceeds .sample env sellHundred ⟨9⟩ settled s.traffic
      (step .sample ⟨env, sellHundred.op⟩ s).traffic := by
  intro s env
  obtain ⟨platformTreasury, feeBps, feeCap, settled, htreasury, hbps, hcap, -, hiff⟩ :=
    raw_swap_proceeds_iff .sample env sellHundred s (by decide)
  obtain rfl : ⟨9⟩ = platformTreasury := Option.some.inj htreasury
  obtain rfl : 1000 = feeBps := Option.some.inj hbps
  obtain rfl : 1000 = feeCap := Option.some.inj hcap
  exact ⟨settled, hiff.mpr ⟨by decide, by decide, by decide⟩⟩

/-- An ordinary DEX delivers 90 to the router, which keeps them: `⟨3⟩` pays 90 of its own. -/
theorem raw_swap_sender_pays :
    let s := after .sample emptyLedger fundedSwap
    let env := sellingThrough [.transfer ⟨21⟩ ⟨6⟩ ⟨0⟩ 90]
    let t := step .sample ⟨env, sellHundred.op⟩ s
    Tx.succeeds (sellHundred.op.invoke .sample env) s = true ∧
      s.traffic.tokens.balance ⟨21⟩ ⟨3⟩ = 95 ∧ t.traffic.tokens.balance ⟨21⟩ ⟨3⟩ = 5 ∧
      t.traffic.tokens.balance ⟨21⟩ ⟨4⟩ = 81 ∧ t.traffic.tokens.balance ⟨21⟩ ⟨9⟩ = 9 ∧
      t.traffic.tokens.balance ⟨21⟩ ⟨0⟩ = 90 ∧ t.traffic.refund ⟨3⟩ ⟨21⟩ = 0 := by
  decide

end Examples

end StellarTags.Router
