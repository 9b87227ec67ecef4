import StellarTags.Router.RefundLedger

/-! What a payment posts: its fee, its share, and the refund that stands in for the share. -/

namespace StellarTags.Router

open Library.Transactions Library.Integers Library.Tokens Soroban

namespace TrafficEvent

def flow (token account : Address) : TrafficEvent → ℤ
  | .moved call => call.flow token account
  | _ => 0

def debit (token account : Address) : TrafficEvent → ℤ
  | .moved call => call.debit token account
  | _ => 0

def claim (user token : Address) (event : TrafficEvent) : ℤ :=
  event.credit user token - event.withdrawal user token - event.pruning user token

end TrafficEvent

/-- The events account for every balance and every refund that changed. -/
structure Posts (events : List TrafficEvent) (s t : Traffic) : Prop where
  journal : t.journal = events ++ s.journal
  balance : ∀ token account, t.tokens.balance token account =
    s.tokens.balance token account + (events.map (TrafficEvent.flow token account)).sum
  refund : ∀ user token, t.refund user token =
    s.refund user token + (events.map (TrafficEvent.claim user token)).sum

variable {h : Host} {cfg : Settings} {env : Env} {s t v : Traffic}
  {events more : List TrafficEvent} {call : TokenCall Address Address}

namespace Posts

lemma quiet (hq : Quiet s t) : Posts [] s t := by
  refine ⟨hq.journal, fun token account => ?_, fun user token => ?_⟩
  · simp [hq.tokens]
  · simp [Traffic.refund, hq.refunds]

lemma trans (hs : Posts events s t) (ht : Posts more t v) : Posts (more ++ events) s v := by
  refine ⟨?_, fun token account => ?_, fun user token => ?_⟩
  · rw [ht.journal, hs.journal, List.append_assoc]
  · rw [ht.balance, hs.balance, List.map_append, List.sum_append]
    ring
  · rw [ht.refund, hs.refund, List.map_append, List.sum_append]
    ring

lemma after_quiet (hq : Quiet s t) (ht : Posts events t v) : Posts events s v := by
  have hs := (quiet hq).trans ht
  rwa [List.append_nil] at hs

lemma then_quiet (hs : Posts events s t) (hq : Quiet t v) : Posts events s v :=
  hs.trans (quiet hq)

end Posts

section Primitives

variable {user token sender : Address} {amount remainder : ℤ} {u : Unit} {done : Bool}
  {toRecipient toRouter : TokenCall Address Address}

lemma moved_posts {ledger : Ledger Address Address} (hl : s.tokens.apply call = some ledger)
    (calls : ℕ) : Posts [.moved call] s
      (({ s with tokens := ledger, calls := calls } : Traffic).publish (.moved call)) := by
  refine ⟨rfl, fun token account => ?_, fun user token => ?_⟩
  · change ledger.balance token account = _
    simpa [TrafficEvent.flow] using Ledger.apply_flow hl token account
  · simp [Traffic.refund, Traffic.publish, TrafficEvent.claim, TrafficEvent.credit,
      TrafficEvent.withdrawal, TrafficEvent.pruning]

lemma token_posts (hr : Router.token h env call s = .ok (u, t)) : Posts [.moved call] s t := by
  obtain ⟨ledger, hl, -, rfl⟩ := token_ok hr
  exact moved_posts hl _

lemma tryToken_posts (hr : tryToken h env call s = .ok (done, t)) :
    Posts (if done = true then [.moved call] else []) s t := by
  obtain ⟨reply, w, hw, hr⟩ := Tx.bind_ok.mp hr
  obtain ⟨rfl, rfl⟩ := nextReply_ok.mp hw
  rw [Tx.read_bind] at hr
  cases hl : s.tokens.apply call with
  | none =>
    simp only [hl, Tx.pure_ok] at hr
    obtain ⟨rfl, rfl⟩ := hr
    exact .quiet ⟨rfl, rfl, rfl⟩
  | some ledger =>
    simp only [hl] at hr
    split_ifs at hr with ha
    · obtain ⟨rfl, rfl⟩ := Tx.pure_ok.mp hr
      exact moved_posts hl _
    · obtain ⟨rfl, rfl⟩ := Tx.pure_ok.mp hr
      exact .quiet ⟨rfl, rfl, rfl⟩

lemma withGuard_ok {α : Type} {m : Routing α} {a : α} (hr : withGuard m s = .ok (a, t)) :
    ∃ v w, Quiet s v ∧ m v = .ok (a, w) ∧ Quiet w t := by
  simp only [withGuard, Tx.read_bind, Tx.reject_bind_ok, Tx.update_bind] at hr
  obtain ⟨b, w, hw, hend⟩ := Tx.bind_ok.mp hr.2
  obtain ⟨rfl, rfl⟩ := Tx.pure_ok.mp hend
  refine ⟨_, w, ?_, hw, ?_⟩
  · exact ⟨rfl, rfl, rfl⟩
  · exact ⟨rfl, rfl, rfl⟩

lemma loadFeeConfig_ok {fees : Address × ℤ × ℤ}
    (hr : (cfg.loadFeeConfig : Routing _) s = .ok (fees, t)) :
    cfg.platformTreasury = some fees.1 ∧ cfg.feeBps = some fees.2.1 ∧
      cfg.feeCap = some fees.2.2 ∧ t = s := by
  simp only [Settings.loadFeeConfig, Tx.unwrap_bind_ok, Tx.pure_ok] at hr
  obtain ⟨treasury, ht, feeBps, hb, feeCap, hc, rfl, rfl⟩ := hr
  exact ⟨ht, hb, hc, rfl⟩

lemma creditRefundBalance_posts (hr : creditRefundBalance user token amount s = .ok (u, t)) :
    Posts [.credited user token amount] s t := by
  simp only [creditRefundBalance, Tx.read_bind, checkedI128_bind_ok, Tx.update_ok] at hr
  obtain ⟨-, rfl⟩ := hr
  refine ⟨rfl, fun k account => ?_, fun owner k => ?_⟩
  · simp [Traffic.publish, Traffic.setRefundBalance, TrafficEvent.flow]
  · change (s.setRefundBalance user token _).refund owner k = _
    rw [refund_set]
    simp only [List.map_cons, List.map_nil, List.sum_cons, List.sum_nil, TrafficEvent.claim,
      TrafficEvent.credit, TrafficEvent.withdrawal, TrafficEvent.pruning]
    split_ifs with he
    · obtain ⟨rfl, rfl⟩ := he
      simp
    · simp

/-- A share that is due reaches its recipient, or is held as a refund. -/
def shareEvents (sender token : Address) (share : ℤ) (toRecipient : TokenCall Address Address)
    (keeping : List TrafficEvent) (held : Bool) : List TrafficEvent :=
  if 0 < share then
    if held = true then .credited sender token share :: keeping else [.moved toRecipient]
  else []

def feeEvents (fee : ℤ) (toTreasury : TokenCall Address Address) : List TrafficEvent :=
  if 0 < fee then [.moved toTreasury] else []

lemma deliver_posts
    (hr : deliver h env sender token remainder toRecipient toRouter s = .ok (u, t)) :
    ∃ held, Posts (shareEvents sender token remainder toRecipient [.moved toRouter] held) s t := by
  unfold shareEvents
  rcases Tx.whenever_ok.mp hr with ⟨hpos, hr⟩ | ⟨hz, rfl⟩
  · obtain ⟨delivered, v, hv, hr⟩ := Tx.bind_ok.mp hr
    have hdelivered := tryToken_posts hv
    rcases Tx.whenever_ok.mp hr with ⟨rfl, hr⟩ | ⟨hd, rfl⟩
    · obtain ⟨held, w, hw, hr⟩ := Tx.bind_ok.mp hr
      obtain ⟨hh, hr⟩ := Tx.reject_bind_ok.mp hr
      rw [Bool.not_eq_false] at hh
      subst hh
      have hheld := (hdelivered.trans (tryToken_posts hw)).trans (creditRefundBalance_posts hr)
      exact ⟨true, by simpa [hpos] using hheld⟩
    · rw [Bool.not_eq_false] at hd
      subst hd
      exact ⟨false, by simpa [hpos] using hdelivered⟩
  · exact ⟨false, by simpa [hz] using Posts.quiet (refl_of Quiet _)⟩

end Primitives

def Traffic.rate (t : Traffic) (env : Env) (sender : Address) (feeBps : ℤ) : ℤ :=
  effectiveFeeBps (t.loadUserRecord sender env.timestamp).1.volume feeBps

def directFee (amount bps feeCap : ℤ) : ℤ :=
  capFee ((saturateI128 (amount * bps)).tdiv bpsDivisor) feeCap amount

def signedFee (amount bps feeCap : ℤ) : ℤ :=
  capFee ((if FitsI128 (amount * bps) then amount * bps else amount).tdiv bpsDivisor) feeCap amount

def swapFee (amount bps feeCap : ℤ) : ℤ := capFee ((amount * bps).tdiv bpsDivisor) feeCap amount

/-- What a payment posts whose transfers are asked for by `ask`. -/
def paymentEvents (h : Host) (ask : Address → ℤ → TokenCall Address Address)
    (sender recipient token platformTreasury : Address) (amount fee : ℤ) (held : Bool) :
    List TrafficEvent :=
  shareEvents sender token (amount - fee) (ask recipient (amount - fee))
      [.moved (ask h.self (amount - fee))] held ++
    feeEvents fee (ask platformTreasury fee)

/-- What the proceeds of a swap post: the router has them already. -/
def payOutEvents (h : Host) (sender recipient token platformTreasury : Address)
    (amountOut fee : ℤ) (held : Bool) : List TrafficEvent :=
  shareEvents sender token (amountOut - fee) (.transfer token h.self recipient (amountOut - fee))
      [] held ++
    feeEvents fee (.transfer token h.self platformTreasury fee)

section Payments

variable {sender recipient tokenAddress platformTreasury : Address} {amount feeBps feeCap : ℤ}
  {u : Unit} {userVolume : ℤ}

lemma accrueUserRecord_ok (hr : accrueUserRecord env sender amount s = .ok (userVolume, t)) :
    userVolume = (s.loadUserRecord sender env.timestamp).1.volume ∧ Quiet s t := by
  refine ⟨?_, Quiet.accrueUserRecord _ _ _ hr⟩
  simp only [accrueUserRecord, Tx.read_bind, subU64_bind_ok, Tx.reject_bind_ok,
    Tx.update_bind] at hr
  obtain ⟨_, w, -, hr⟩ := Tx.bind_ok.mp hr.2.2.2
  rw [(Tx.pure_ok.mp hr).1]
  split_ifs <;> rfl

lemma fee_posts {fee : ℤ} (hr : (Tx.whenever (0 < fee) do
      let paid ← tryToken h env call
      Tx.reject (paid = false) Error.limitExceeded) s = .ok (u, t)) :
    Posts (feeEvents fee call) s t := by
  unfold feeEvents
  rcases Tx.whenever_ok.mp hr with ⟨hpos, hr⟩ | ⟨hz, rfl⟩
  · obtain ⟨paid, v, hv, hr⟩ := Tx.bind_ok.mp hr
    obtain ⟨hp, rfl⟩ := Tx.reject_ok.mp hr
    have hpaid := tryToken_posts hv
    rw [if_pos (by simpa using hp)] at hpaid
    rwa [if_pos hpos]
  · rw [if_neg hz]
    exact .quiet (refl_of Quiet _)

lemma processSinglePayment_posts (hr : processSinglePayment h env sender recipient tokenAddress
      amount platformTreasury feeBps feeCap s = .ok (u, t)) :
    ∃ held, Posts (paymentEvents h (.transfer tokenAddress sender) sender recipient tokenAddress
      platformTreasury amount (directFee amount (s.rate env sender feeBps) feeCap) held) s t := by
  obtain ⟨userVolume, v, hv, hr⟩ := Tx.bind_ok.mp hr
  obtain ⟨rfl, hquiet⟩ := accrueUserRecord_ok hv
  simp only [balanceOf, Tx.read_bind, Tx.reject_bind_ok, checkedI128_bind_ok] at hr
  obtain ⟨_, w, hw, hr⟩ := Tx.bind_ok.mp hr.2.2
  obtain ⟨held, hshare⟩ := deliver_posts hr
  exact ⟨held, .after_quiet hquiet ((fee_posts hw).trans hshare)⟩

lemma processSinglePaymentNoAuth_posts (hr : processSinglePaymentNoAuth h cfg env sender recipient
      tokenAddress amount platformTreasury feeBps feeCap s = .ok (u, t)) :
    0 < amount ∧ ∃ held, Posts (paymentEvents h (.transferFrom tokenAddress h.self sender) sender
      recipient tokenAddress platformTreasury amount
        (signedFee amount (s.rate env sender feeBps) feeCap) held) s t := by
  simp only [processSinglePaymentNoAuth, Tx.reject_bind_ok] at hr
  obtain ⟨-, -, hamount, -, hr⟩ := hr
  obtain ⟨_, w, hw, hr⟩ := Tx.bind_ok.mp hr
  obtain rfl := verifyKycForAmount_reads (R := Eq) _ _ _ hw
  obtain ⟨userVolume, v, hv, hr⟩ := Tx.bind_ok.mp hr
  obtain ⟨rfl, hquiet⟩ := accrueUserRecord_ok hv
  simp only [balanceOf, Tx.read_bind, Tx.reject_bind_ok, checkedI128_bind_ok] at hr
  obtain ⟨_, w, hw, hr⟩ := Tx.bind_ok.mp hr.2.2.2
  obtain ⟨held, hshare⟩ := deliver_posts hr
  exact ⟨by omega, held, .after_quiet hquiet ((fee_posts hw).trans hshare)⟩

lemma charge_posts {fee : ℤ}
    (hr : Tx.whenever (0 < fee) (Router.token h env call) s = .ok (u, t)) :
    Posts (feeEvents fee call) s t := by
  unfold feeEvents
  rcases Tx.whenever_ok.mp hr with ⟨hpos, hr⟩ | ⟨hz, rfl⟩
  · rw [if_pos hpos]
    exact token_posts hr
  · rw [if_neg hz]
    exact .quiet (refl_of Quiet _)

lemma handOn_posts {share : ℤ} (hr : (Tx.whenever (0 < share) do
      let delivered ← tryToken h env call
      Tx.whenever (delivered = false) (creditRefundBalance sender tokenAddress share)) s =
        .ok (u, t)) :
    ∃ held, Posts (shareEvents sender tokenAddress share call [] held) s t := by
  unfold shareEvents
  rcases Tx.whenever_ok.mp hr with ⟨hpos, hr⟩ | ⟨hz, rfl⟩
  · obtain ⟨delivered, v, hv, hr⟩ := Tx.bind_ok.mp hr
    have hdelivered := tryToken_posts hv
    rcases Tx.whenever_ok.mp hr with ⟨rfl, hr⟩ | ⟨hd, rfl⟩
    · have hheld := hdelivered.trans (creditRefundBalance_posts hr)
      exact ⟨true, by simpa [hpos] using hheld⟩
    · rw [Bool.not_eq_false] at hd
      subst hd
      exact ⟨false, by simpa [hpos] using hdelivered⟩
  · exact ⟨false, by simpa [hz] using Posts.quiet (refl_of Quiet _)⟩

lemma payOut_posts {amountOut bps delivered : ℤ} (hr : payOut h env sender recipient tokenAddress
      platformTreasury amountOut bps feeCap s = .ok (delivered, t)) :
    delivered = amountOut - swapFee amountOut bps feeCap ∧ ∃ held, Posts (payOutEvents h
      sender recipient tokenAddress platformTreasury amountOut (swapFee amountOut bps feeCap)
        held) s t := by
  obtain ⟨split, v, hv, hr⟩ := Tx.bind_ok.mp hr
  simp only [calculateFee, checkedI128_bind_ok, Tx.pure_ok] at hv
  obtain ⟨-, -, rfl, hsame⟩ := hv
  rw [hsame] at hr
  obtain ⟨_, v, hv, hr⟩ := Tx.bind_ok.mp hr
  obtain ⟨_, w, hw, hr⟩ := Tx.bind_ok.mp hr
  obtain ⟨rfl, rfl⟩ := Tx.pure_ok.mp hr
  have hfee := charge_posts hv
  obtain ⟨held, hshare⟩ := handOn_posts hw
  exact ⟨rfl, held, hfee.trans hshare⟩

end Payments

section Totals

variable {sender recipient token platformTreasury account k user : Address} {amount fee share : ℤ}
  {held : Bool} {ask : Address → ℤ → TokenCall Address Address} {keeping : List TrafficEvent}

lemma flow_feeEvents (hf : 0 ≤ fee) (hz : fee = 0 → call.flow k account = 0) :
    ((feeEvents fee call).map (TrafficEvent.flow k account)).sum = call.flow k account := by
  unfold feeEvents
  split_ifs with hpos
  · simp [TrafficEvent.flow]
  · have hzero : fee = 0 := by omega
    simp [hz hzero]

lemma claim_feeEvents : ((feeEvents fee call).map (TrafficEvent.claim user k)).sum = 0 := by
  unfold feeEvents
  split_ifs <;> simp [TrafficEvent.claim, TrafficEvent.credit, TrafficEvent.withdrawal,
    TrafficEvent.pruning]

lemma claim_shareEvents (hs : 0 ≤ share)
    (hk : (keeping.map (TrafficEvent.claim user k)).sum = 0) :
    ((shareEvents sender token share call keeping held).map (TrafficEvent.claim user k)).sum =
      if held = true ∧ sender = user ∧ token = k then share else 0 := by
  unfold shareEvents
  by_cases hpos : 0 < share
  · rw [if_pos hpos]
    cases held
    · simp [TrafficEvent.claim, TrafficEvent.credit, TrafficEvent.withdrawal,
        TrafficEvent.pruning]
    · simp [TrafficEvent.claim, TrafficEvent.credit, TrafficEvent.withdrawal,
        TrafficEvent.pruning, hk]
  · obtain rfl : share = 0 := by omega
    simp

/-- A fee that is no charge moves nothing, and neither does a share of nothing. -/
lemma sum_paymentEvents {f : TrafficEvent → ℤ} (hf : ∀ user k n, f (.credited user k n) = 0)
    (hz : ∀ target, f (.moved (ask target 0)) = 0) (hle : fee ≤ amount) :
    ((paymentEvents h ask sender recipient token platformTreasury amount fee held).map f).sum =
      f (.moved (ask platformTreasury (max fee 0))) +
        f (.moved (ask (if held = true then h.self else recipient) (amount - fee))) := by
  have hfee : ((feeEvents fee (ask platformTreasury fee)).map f).sum =
      f (.moved (ask platformTreasury (max fee 0))) := by
    unfold feeEvents
    split_ifs with hpos
    · rw [max_eq_left hpos.le]
      simp
    · rw [max_eq_right (not_lt.mp hpos), hz]
      rfl
  have hshare : ((shareEvents sender token (amount - fee) (ask recipient (amount - fee))
      [.moved (ask h.self (amount - fee))] held).map f).sum =
        f (.moved (ask (if held = true then h.self else recipient) (amount - fee))) := by
    unfold shareEvents
    by_cases hpos : 0 < amount - fee
    · rw [if_pos hpos]
      cases held <;> simp [hf]
    · have hnone : amount - fee = 0 := by omega
      rw [if_neg hpos, hnone, hz]
      rfl
  rw [paymentEvents, List.map_append, List.sum_append, hshare, hfee, add_comm]

lemma flow_paymentEvents (hf : 0 ≤ fee) (hle : fee ≤ amount) (ha : ∀ target n,
      (ask target n).flow k account = (TokenCall.transfer token sender target n).flow k account) :
    ((paymentEvents h ask sender recipient token platformTreasury amount fee held).map
        (TrafficEvent.flow k account)).sum =
      if k = token then (if account = sender then -amount else 0) +
        (if account = platformTreasury then fee else 0) +
        (if account = (if held = true then h.self else recipient) then amount - fee else 0)
      else 0 := by
  have hmoved (target : Address) (n : ℤ) : TrafficEvent.flow k account (.moved (ask target n)) =
      (TokenCall.transfer token sender target n).flow k account := ha target n
  have hnothing (target : Address) : TrafficEvent.flow k account (.moved (ask target 0)) = 0 := by
    rw [hmoved]
    simp [TokenCall.flow]
  rw [sum_paymentEvents (fun _ _ _ => rfl) hnothing hle, max_eq_left hf, hmoved, hmoved]
  by_cases hk : k = token
  · simp only [TokenCall.flow, hk, true_and, if_true]
    by_cases hs : account = sender
    · simp only [hs, if_true]
      ring
    · simp only [hs, if_false]
      ring
  · simp [TokenCall.flow, hk]

lemma claim_paymentEvents (hle : fee ≤ amount) :
    ((paymentEvents h ask sender recipient token platformTreasury amount fee held).map
        (TrafficEvent.claim user k)).sum =
      if held = true ∧ sender = user ∧ token = k then amount - fee else 0 := by
  have hshare : 0 ≤ amount - fee := by omega
  rw [paymentEvents, List.map_append, List.sum_append, claim_feeEvents, add_zero]
  refine claim_shareEvents hshare ?_
  simp [TrafficEvent.claim, TrafficEvent.credit, TrafficEvent.withdrawal, TrafficEvent.pruning]

lemma claim_payOutEvents (hle : fee ≤ amount) :
    ((payOutEvents h sender recipient token platformTreasury amount fee held).map
        (TrafficEvent.claim user k)).sum =
      if held = true ∧ sender = user ∧ token = k then amount - fee else 0 := by
  have hshare : 0 ≤ amount - fee := by omega
  rw [payOutEvents, List.map_append, List.sum_append, claim_feeEvents, add_zero]
  exact claim_shareEvents hshare (by simp)

end Totals

end StellarTags.Router
