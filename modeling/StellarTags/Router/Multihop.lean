import StellarTags.Router.Checks
import StellarTags.Router.FeeBounds

/-! The money of a multi-hop swap, hop after hop. -/

namespace StellarTags.Router

open Library.Transactions Library.Integers Library.Runs Library.Tokens Soroban

/-- What a hop posts: the input handed to the DEX, its answer, and the input it left unused. -/
def hopEvents (h : Host) (sender dex : Address) (amount : ℤ) (hop : Hop) (unused : ℤ) :
    List TrafficEvent :=
  feeEvents unused (.transfer hop.tokenIn h.self sender unused) ++
    [.invoked dex, .moved (.transfer hop.tokenIn h.self dex amount)]

/-- One hop as it went: `swapped` is what the DEX left behind, and the output and the unused input
are what the router's balances show of it. -/
structure Hopped (h : Host) (env : Env) (sender dex : Address) (amount : ℤ) (hop : Hop)
    (out unused : ℤ) (sent swapped : Ledger Address Address) (s t : Traffic) : Prop where
  handed : s.tokens.apply (.transfer hop.tokenIn h.self dex amount) = some sent
  answered : swapped = sent.others h.self (env.reply (s.calls + 1)).calls
  output : out = swapped.balance hop.tokenOut h.self - s.tokens.balance hop.tokenOut h.self
  leftover : unused = swapped.balance hop.tokenIn h.self -
    (s.tokens.balance hop.tokenIn h.self - amount)
  returned : if 0 < unused then
      swapped.apply (.transfer hop.tokenIn h.self sender unused) = some t.tokens
    else t.tokens = swapped
  floor : hop.floor ≤ out
  positive : 0 < out
  unused_nonneg : 0 ≤ unused
  journal : t.journal = hopEvents h sender dex amount hop unused ++ s.journal
  refunds : t.refundBalance = s.refundBalance

/-- The hops one after another, each on the output measured of the one before. -/
inductive Hops (h : Host) (env : Env) (sender dex : Address) :
    ℤ → List Hop → List ℤ → List TrafficEvent → Traffic → Traffic → Prop
  | nil {amount : ℤ} {s : Traffic} : Hops h env sender dex amount [] [] [] s s
  | cons {amount out unused : ℤ} {hop : Hop} {hops : List Hop} {outputs : List ℤ}
    {events : List TrafficEvent} {sent swapped : Ledger Address Address} {s v t : Traffic}
    (first : Hopped h env sender dex amount hop out unused sent swapped s v)
    (rest : Hops h env sender dex out hops outputs events v t) :
    Hops h env sender dex amount (hop :: hops) (out :: outputs)
      (events ++ hopEvents h sender dex amount hop unused) s t

variable {h : Host} {cfg : Settings} {env : Env} {s t v : Traffic} {sender recipient dex : Address}
  {amount out unused : ℤ} {hop : Hop} {hops : List Hop} {outputs floors : List ℤ}
  {events : List TrafficEvent} {sent swapped : Ledger Address Address}

lemma token_leaves_seen {call : TokenCall Address Address} {u : Unit}
    (hr : token h env call s = .ok (u, t)) : s.tokens.apply call = some t.tokens ∧
      t.calls = s.calls + 1 ∧ t.refundBalance = s.refundBalance ∧
      t.journal = .moved call :: s.journal := by
  obtain ⟨ledger, hl, -, rfl⟩ := token_ok hr
  exact ⟨hl, rfl, rfl, rfl⟩

lemma swapExactTokensForTokens_seen {amounts : List ℤ}
    (hr : swapExactTokensForTokens h env dex s = .ok (amounts, t)) :
    t.tokens = s.tokens.others h.self (env.reply s.calls).calls ∧
      t.refundBalance = s.refundBalance ∧ t.journal = .invoked dex :: s.journal := by
  obtain ⟨reply, v, hv, hpure⟩ := Tx.bind_ok.mp hr
  obtain ⟨-, rfl⟩ := Tx.pure_ok.mp hpure
  obtain ⟨rfl, rfl⟩ := invokeContract_ok hv
  exact ⟨rfl, rfl, rfl⟩

lemma swapHop_ok (hr : swapHop h env sender dex amount hop s = .ok (out, t)) :
    ∃ unused sent swapped, Hopped h env sender dex amount hop out unused sent swapped s t := by
  simp only [swapHop, balanceOf, Tx.read_bind] at hr
  obtain ⟨_, v, hv, hswap⟩ := Tx.bind_ok.mp hr
  obtain ⟨hsent, hcalls, hrefunds, hjournal⟩ := token_leaves_seen hv
  obtain ⟨result, w, hw, hcheck⟩ := Tx.bind_ok.mp hswap
  obtain ⟨hswapped, hrefunds', hjournal'⟩ := swapExactTokensForTokens_seen hw
  rw [hcalls] at hswapped
  split at hcheck
  · simp only [Tx.read_bind, checkedI128_bind_ok, Tx.reject_bind_ok, not_or, not_lt, not_le,
      not_not] at hcheck
    obtain ⟨-, -, ⟨hnonneg, -, hunused, -, hfloor, hpos⟩, hback⟩ := hcheck
    obtain ⟨_, y, hy, hend⟩ := Tx.bind_ok.mp hback
    obtain ⟨rfl, rfl⟩ := Tx.pure_ok.mp hend
    rw [← hunused] at hnonneg
    refine ⟨_, v.tokens, w.tokens, ⟨hsent, hswapped, rfl, rfl, ?_, hfloor, hpos, hnonneg, ?_, ?_⟩⟩
    all_goals rcases Tx.whenever_ok.mp hy with ⟨hleft, hy'⟩ | ⟨hnone, rfl⟩
    · rw [if_pos hleft]
      exact (token_leaves_seen hy').1
    · rw [if_neg hnone]
    · rw [hopEvents, feeEvents, if_pos hleft, (token_leaves_seen hy').2.2.2, hjournal', hjournal]
      rfl
    · rw [hopEvents, feeEvents, if_neg hnone, hjournal', hjournal]
      rfl
    · rw [(token_leaves_seen hy').2.2.1, hrefunds', hrefunds]
    · rw [hrefunds', hrefunds]
  · simp at hcheck

lemma swapHops_ok (hr : Tx.fold (swapHop h env sender dex) amount hops s = .ok (out, t)) :
    ∃ outputs events, Hops h env sender dex amount hops outputs events s t ∧
      (amount :: outputs).getLast? = some out := by
  induction hops generalizing amount s with
  | nil =>
    obtain ⟨rfl, rfl⟩ := Tx.fold_nil.mp hr
    exact ⟨[], [], .nil, rfl⟩
  | cons hop hops ih =>
    obtain ⟨output, v, hv, hlater⟩ := Tx.fold_cons.mp hr
    obtain ⟨unused, sent, swapped, hfirst⟩ := swapHop_ok hv
    obtain ⟨outputs, events, hrest, hlast⟩ := ih hlater
    exact ⟨output :: outputs, _, .cons hfirst hrest, by simpa using hlast⟩

namespace Hopped

lemma router (hh : Hopped h env sender dex amount hop out unused sent swapped s t)
    (hu : s.tokens.Unlent h.self) (hne : hop.tokenIn ≠ hop.tokenOut) (hs : sender ≠ h.self) :
    t.tokens.Unlent h.self ∧ ∀ token, s.tokens.balance token h.self +
        (if token = hop.tokenOut then out else 0) ≤
      t.tokens.balance token h.self + if token = hop.tokenIn then amount else 0 := by
  have hsent := Ledger.apply_transfer_unlent hu (c := .transfer hop.tokenIn h.self dex amount)
    trivial hh.handed
  have hswapped : swapped.Unlent h.self := hh.answered ▸ Ledger.others_unlent hsent _
  have hgain : ∀ token, sent.balance token h.self ≤ swapped.balance token h.self := by
    intro token
    rw [hh.answered]
    exact Ledger.others_balance hsent _ token
  have hhanded : ∀ token, token ≠ hop.tokenIn →
      sent.balance token h.self = s.tokens.balance token h.self := by
    intro token hk
    rw [Ledger.apply_flow hh.handed]
    simp [TokenCall.flow, hk]
  have hreturned : t.tokens.Unlent h.self ∧ ∀ token, t.tokens.balance token h.self =
      swapped.balance token h.self - if token = hop.tokenIn then unused else 0 := by
    have hback := hh.returned
    split_ifs at hback with hpos
    · refine ⟨Ledger.apply_transfer_unlent hswapped
        (c := .transfer hop.tokenIn h.self sender unused) trivial hback, fun token => ?_⟩
      rw [Ledger.apply_flow hback]
      simp only [TokenCall.flow, hs.symm, and_true, and_false, if_false, add_zero]
      split_ifs <;> omega
    · have hzero : unused = 0 := by
        have := hh.unused_nonneg
        omega
      rw [hback]
      exact ⟨hswapped, fun token => by simp [hzero]⟩
  refine ⟨hreturned.1, fun token => ?_⟩
  rw [hreturned.2]
  have hout := hh.output
  have hleft := hh.leftover
  by_cases hin : token = hop.tokenIn
  · subst hin
    rw [if_neg hne, if_pos rfl, if_pos rfl]
    omega
  · rw [if_neg hin, if_neg hin]
    have hk := hgain token
    rw [hhanded token hin] at hk
    split_ifs with htoken
    · subst htoken
      omega
    · omega

end Hopped

namespace Hops

lemma journal (hh : Hops h env sender dex amount hops outputs events s t) :
    t.journal = events ++ s.journal := by
  induction hh with
  | nil => rfl
  | cons first rest ih => rw [ih, first.journal, List.append_assoc]

lemma refunds (hh : Hops h env sender dex amount hops outputs events s t) :
    t.refundBalance = s.refundBalance := by
  induction hh with
  | nil => rfl
  | cons first rest ih => rw [ih, first.refunds]

lemma floors_le (hh : Hops h env sender dex amount hops outputs events s t) :
    List.Forall₂ (· ≤ ·) (hops.map Hop.floor) outputs := by
  induction hh with
  | nil => exact .nil
  | cons first rest ih => exact .cons first.floor ih

lemma outputs_pos (hh : Hops h env sender dex amount hops outputs events s t) :
    ∀ output ∈ outputs, 0 < output := by
  induction hh with
  | nil => simp
  | cons first rest ih => simpa [first.positive] using ih

lemma debits (hh : Hops h env sender dex amount hops outputs events s t) {account : Address}
    (ha : account ≠ h.self) (token : Address) :
    (events.map (TrafficEvent.debit token account)).sum = 0 := by
  induction hh with
  | nil => rfl
  | cons first rest ih =>
    rw [List.map_append, List.sum_append, ih, hopEvents, feeEvents]
    split_ifs <;> simp [TrafficEvent.debit, TokenCall.debit, ha]

lemma router {first : Address} {rest : List Address}
    (hh : Hops h env sender dex amount (hopsOf (first :: rest) floors) outputs events s t)
    (hn : (first :: rest).Nodup) (hl : floors.length = rest.length)
    (hu : s.tokens.Unlent h.self) (hs : sender ≠ h.self) {last : Address} {out : ℤ}
    (hlast : (first :: rest).getLast? = some last) (hout : (amount :: outputs).getLast? = some out)
    (token : Address) : s.tokens.balance token h.self + (if token = last then out else 0) ≤
      t.tokens.balance token h.self + if token = first then amount else 0 := by
  induction rest generalizing first floors amount outputs events s with
  | nil =>
    cases hh
    obtain rfl : first = last := by simpa using hlast
    obtain rfl : amount = out := by simpa using hout
    exact le_rfl
  | cons next rest ih =>
    obtain ⟨floor, floors, rfl⟩ := List.exists_cons_of_length_eq_add_one hl
    obtain ⟨hfirst, hrest⟩ := List.nodup_cons.mp hn
    have hne : first ≠ next := fun he => hfirst (by simp [he])
    cases hh with
    | cons hop hops =>
      obtain ⟨hu', hhop⟩ := hop.router hu hne hs
      have hlater := ih hops hrest (by simpa using hl) hu'
        (by simpa [List.getLast?_cons_cons] using hlast)
        (by simpa [List.getLast?_cons_cons] using hout)
      have := hhop token
      dsimp only at this
      omega

end Hops

lemma hopsOf_floors {path : List Address} (hl : floors.length = path.length - 1) :
    (hopsOf path floors).map Hop.floor = floors := by
  have hlength : floors.length ≤ (path.zip path.tail).length := by
    rw [List.length_zip, List.length_tail]
    omega
  have hsnd : (hopsOf path floors).map Hop.floor =
      (((path.zip path.tail).zip floors).map Prod.snd) := by
    rw [hopsOf, List.map_map]
    rfl
  rw [hsnd, List.map_snd_zip hlength]

section PayOut

variable {token platformTreasury user k : Address} {fee : ℤ} {held : Bool}

/-- What an event hands over to others, in tokens of the router's or as a refund. -/
def TrafficEvent.handedOver (self token : Address) : TrafficEvent → ℤ
  | .moved call => call.debit token self
  | .credited _ k amount => if k = token then amount else 0
  | _ => 0

lemma handedOver_payOutEvents (hf : 0 ≤ fee) (hle : fee ≤ amount) :
    ((payOutEvents h sender recipient token platformTreasury amount fee held).map
      (TrafficEvent.handedOver h.self token)).sum = amount := by
  have hfee : ((feeEvents fee (.transfer token h.self platformTreasury fee)).map
      (TrafficEvent.handedOver h.self token)).sum = fee := by
    unfold feeEvents
    split_ifs with hpos
    · simp [TrafficEvent.handedOver, TokenCall.debit]
    · obtain rfl : fee = 0 := by omega
      rfl
  rw [payOutEvents, List.map_append, List.sum_append, hfee, shareEvents]
  by_cases hpos : 0 < amount - fee
  · rw [if_pos hpos]
    cases held <;> simp [TrafficEvent.handedOver, TokenCall.debit]
  · obtain rfl : amount = fee := by omega
    simp

lemma flow_payOutEvents (hf : 0 ≤ fee) (hle : fee ≤ amount) (ht : platformTreasury ≠ h.self)
    (hr : recipient ≠ h.self) :
    ((payOutEvents h sender recipient token platformTreasury amount fee held).map
      (TrafficEvent.flow k h.self)).sum =
        if k = token then (if held = true then -fee else -amount) else 0 := by
  have hfee : ((feeEvents fee (.transfer token h.self platformTreasury fee)).map
      (TrafficEvent.flow k h.self)).sum = if k = token then -fee else 0 := by
    rw [flow_feeEvents hf (by rintro rfl; simp [TokenCall.flow])]
    simp [TokenCall.flow, ht.symm]
  rw [payOutEvents, List.map_append, List.sum_append, hfee, shareEvents]
  by_cases hpos : 0 < amount - fee
  · rw [if_pos hpos]
    cases held with
    | true => simp [TrafficEvent.flow]
    | false =>
      by_cases hk : k = token
      · simp [TrafficEvent.flow, TokenCall.flow, hr.symm, hk]
        ring
      · simp [TrafficEvent.flow, TokenCall.flow, hk]
  · obtain rfl : amount = fee := by omega
    simp

lemma debit_payOutEvents_of_ne {account : Address} (ha : account ≠ h.self) :
    ((payOutEvents h sender recipient token platformTreasury amount fee held).map
      (TrafficEvent.debit k account)).sum = 0 := by
  rw [payOutEvents, List.map_append, List.sum_append, shareEvents, feeEvents]
  split_ifs <;> simp [TrafficEvent.debit, TokenCall.debit, ha]

end PayOut

section Unlent

lemma unlent_kept (h : Host) (licence : Licence) :
    Kept h licence fun t => t.tokens.Unlent h.self := by
  intro s t hd hs
  cases hd with
  | quiet hq =>
    rw [hq.tokens]
    exact hs
  | outside calls => exact Ledger.others_unlent hs calls
  | moved call hc ledger hl => exact Ledger.apply_transfer_unlent hs hc hl
  | invoked contract hc calls => exact Ledger.others_unlent hs calls
  | credited user token hn => exact hs
  | withdrawn user token hl hn balance hb => exact hs
  | pruned user token hl => exact hs

lemma after_unlent {tokens : Ledger Address Address} (hu : tokens.Unlent h.self)
    (calls : List Call) : (after h tokens calls).traffic.tokens.Unlent h.self :=
  reachable_invariant (I := fun s : State => s.traffic.tokens.Unlent h.self)
    (fun _ call hs => step_kept call (unlent_kept h _) hs) hu ⟨calls, rfl⟩

end Unlent

/-- The account of a multi-hop swap: `outputs` are what the router's balances showed after each hop,
and the last of them, `out`, is what the fee was taken from. -/
structure MultihopSettles (h : Host) (env : Env) (sender recipient dex platformTreasury : Address)
    (amountIn : ℤ) (path : List Address) (floors outputs : List ℤ) (out fee : ℤ) (held : Bool)
    (s t : Traffic) : Prop where
  measured : ∃ first last events v w, path.head? = some first ∧ path.getLast? = some last ∧
    Posts [.moved (.transfer first sender h.self amountIn)] s v ∧
    Hops h env sender dex amountIn (hopsOf path floors) outputs events v w ∧
    Posts (payOutEvents h sender recipient last platformTreasury out fee held) w t ∧
    ((payOutEvents h sender recipient last platformTreasury out fee held).map
      (TrafficEvent.handedOver h.self last)).sum = out
  floors : List.Forall₂ (· ≤ ·) floors outputs
  final : outputs.getLast? = some out
  fee_bounds : 0 ≤ fee ∧ fee ≤ out
  router : ∀ token, s.tokens.balance token h.self +
      (t.refund sender token - s.refund sender token) ≤ t.tokens.balance token h.self
  refunds : ∀ user token, user ≠ sender → t.refund user token = s.refund user token
  credited : ∀ token, s.refund sender token ≤ t.refund sender token
  sender : ∀ token, t.debited token sender = s.debited token sender +
    if path.head? = some token then amountIn else 0

section Settlement

variable {platformTreasury first last : Address} {amountIn fee : ℤ} {path rest : List Address}
  {held : Bool} {w : Traffic}

lemma multihop_refund (hin : Posts [.moved (.transfer first sender h.self amountIn)] s v)
    (hhops : Hops h env sender dex amountIn hops outputs events v w) (hle : fee ≤ out)
    (hpay : Posts (payOutEvents h sender recipient last platformTreasury out fee held) w t)
    (user token : Address) : t.refund user token = s.refund user token +
      if held = true ∧ sender = user ∧ last = token then out - fee else 0 := by
  have hw : w.refund user token = v.refund user token := by
    rw [Traffic.refund, hhops.refunds, Traffic.refund]
  have hv := hin.refund user token
  simp only [List.map_singleton, List.sum_singleton, TrafficEvent.claim, TrafficEvent.credit,
    TrafficEvent.withdrawal, TrafficEvent.pruning, sub_zero, add_zero] at hv
  rw [hpay.refund, claim_payOutEvents hle, hw, hv]

lemma multihop_debits (hs : sender ≠ h.self)
    (hin : Posts [.moved (.transfer first sender h.self amountIn)] s v)
    (hhops : Hops h env sender dex amountIn hops outputs events v w)
    (hpay : Posts (payOutEvents h sender recipient last platformTreasury out fee held) w t)
    (token : Address) : t.debited token sender = s.debited token sender +
      if token = first then amountIn else 0 := by
  have hw : w.debited token sender = v.debited token sender := by
    rw [Traffic.debited, hhops.journal, List.map_append, List.sum_append, hhops.debits hs, zero_add,
      Traffic.debited]
  rw [hpay.debited, debit_payOutEvents_of_ne hs, hw, hin.debited]
  simp [TrafficEvent.debit, TokenCall.debit]

lemma multihop_router (hs : sender ≠ h.self) (ht : platformTreasury ≠ h.self)
    (hr : recipient ≠ h.self) (hn : (first :: rest).Nodup) (hl : floors.length = rest.length)
    (hlast : (first :: rest).getLast? = some last) (hu : v.tokens.Unlent h.self)
    (hin : Posts [.moved (.transfer first sender h.self amountIn)] s v)
    (hhops : Hops h env sender dex amountIn (hopsOf (first :: rest) floors) outputs events v w)
    (hout : (amountIn :: outputs).getLast? = some out) (hf : 0 ≤ fee) (hle : fee ≤ out)
    (hpay : Posts (payOutEvents h sender recipient last platformTreasury out fee held) w t)
    (token : Address) : s.tokens.balance token h.self +
        (if held = true ∧ last = token then out - fee else 0) ≤ t.tokens.balance token h.self := by
  have hv : v.tokens.balance token h.self =
      s.tokens.balance token h.self + if token = first then amountIn else 0 := by
    rw [hin.balance]
    simp [TrafficEvent.flow, TokenCall.flow, hs.symm]
  have hw := hhops.router hn hl hu hs hlast hout token
  have hp := hpay.balance token h.self
  rw [flow_payOutEvents hf hle ht hr] at hp
  by_cases hk : token = last
  · subst hk
    cases held with
    | true =>
      simp only [if_true, and_self] at hp hw ⊢
      omega
    | false =>
      simp only [if_true, Bool.false_eq_true, if_false, false_and] at hp hw ⊢
      omega
  · rw [if_neg hk] at hp hw
    rw [if_neg fun he => hk he.2.symm]
    omega

lemma multihopSettles_of_parts (hs : sender ≠ h.self) (ht : platformTreasury ≠ h.self)
    (hr : recipient ≠ h.self) (hn : (first :: rest).Nodup) (hl : floors.length = rest.length)
    (hlong : floors ≠ []) (hlast : (first :: rest).getLast? = some last)
    (hin : Posts [.moved (.transfer first sender h.self amountIn)] s v)
    (huv : v.tokens.Unlent h.self)
    (hhops : Hops h env sender dex amountIn (hopsOf (first :: rest) floors) outputs events v w)
    (hout : (amountIn :: outputs).getLast? = some out) (hf : 0 ≤ fee) (hle : fee ≤ out)
    (hpay : Posts (payOutEvents h sender recipient last platformTreasury out fee held) w t) :
    MultihopSettles h env sender recipient dex platformTreasury amountIn (first :: rest) floors
      outputs out fee held s t := by
  have hfloors := hhops.floors_le
  rw [hopsOf_floors (by simpa using hl)] at hfloors
  have hrefund := multihop_refund hin hhops hle hpay
  refine ⟨⟨first, last, events, v, w, rfl, hlast, hin, hhops, hpay, handedOver_payOutEvents hf hle⟩,
    hfloors, ?_, ⟨hf, hle⟩, fun token => ?_, fun user token hne => ?_, fun token => ?_,
    fun token => ?_⟩
  · cases hfloors with
    | nil => exact absurd rfl hlong
    | cons hle hrest => simpa [List.getLast?_cons_cons] using hout
  · have hk := multihop_router hs ht hr hn hl hlast huv hin hhops hout hf hle hpay token
    rw [hrefund]
    simpa using hk
  · rw [hrefund, if_neg fun he => hne he.2.1.symm, add_zero]
  · rw [hrefund]
    split_ifs <;> omega
  · rw [multihop_debits hs hin hhops hpay]
    simp [eq_comm]

lemma token_unlent {call : TokenCall Address Address} {u : Unit} (hu : s.tokens.Unlent h.self)
    (hr : token h env call s = .ok (u, t)) (hc : call.IsTransfer) : t.tokens.Unlent h.self :=
  Ledger.apply_transfer_unlent hu hc (token_leaves_seen hr).1

/-- Outside its own transfers, its hops and its pay-out the swap moves nothing. -/
lemma routeMultihopSwap_ok {remainder : ℤ} (hr : routeMultihopSwap h cfg env sender recipient dex
      amountIn path floors s = .ok (remainder, t)) :
    ∃ platformTreasury feeBps feeCap userVolume first last out v w x y,
      cfg.platformTreasury = some platformTreasury ∧ cfg.feeBps = some feeBps ∧
      cfg.feeCap = some feeCap ∧ path.head? = some first ∧ path.getLast? = some last ∧ Quiet s v ∧
      token h env (.transfer first sender h.self amountIn) v = .ok ((), w) ∧
      Tx.fold (swapHop h env sender dex) amountIn (hopsOf path floors) w = .ok (out, x) ∧
      payOut h env sender recipient last platformTreasury out (effectiveFeeBps userVolume feeBps)
        feeCap x = .ok (remainder, y) ∧ Quiet y t := by
  obtain ⟨s', t', hs', hbody, ht'⟩ := withGuard_ok hr
  obtain ⟨_, v₀, hopen, hbody₁⟩ := Tx.bind_ok.mp hbody
  simp only [Tx.reject_bind_ok] at hbody₁
  obtain ⟨-, -, -, -, -, -, -, hbody₂⟩ := hbody₁
  obtain ⟨_, v₁, hkyc, hbody₃⟩ := Tx.bind_ok.mp hbody₂
  simp only [requireAuth, Tx.demand_bind_ok] at hbody₃
  obtain ⟨_, v₂, hlimit, hbody₄⟩ := Tx.bind_ok.mp hbody₃.2
  obtain ⟨fees, v₃, hload, hbody₅⟩ := Tx.bind_ok.mp hbody₄
  obtain ⟨userVolume, v₄, haccrue, hbody₆⟩ := Tx.bind_ok.mp hbody₅
  simp only [Tx.unwrap_bind_ok, balanceOf, Tx.read_bind, Tx.reject_bind_ok] at hbody₆
  obtain ⟨first, hfirst, -, hbody₇⟩ := hbody₆
  obtain ⟨_, w, htaken, hbody₈⟩ := Tx.bind_ok.mp hbody₇
  obtain ⟨out, x, hswaps, hbody₉⟩ := Tx.bind_ok.mp hbody₈
  simp only [Tx.unwrap_bind_ok] at hbody₉
  obtain ⟨last, hlast, hbody₁₀⟩ := hbody₉
  obtain ⟨paid, y, hpaid, hbody₁₁⟩ := Tx.bind_ok.mp hbody₁₀
  obtain ⟨_, z, hbump, hend⟩ := Tx.bind_ok.mp hbody₁₁
  obtain ⟨rfl, rfl⟩ := Tx.pure_ok.mp hend
  obtain ⟨htreasury, hbps, hcap, rfl⟩ := loadFeeConfig_ok hload
  have hadmitted : Quiet s v₃ := trans_of Quiet hs' <| trans_of Quiet
    (Quiet.requireOpen _ _ _ hopen) <| trans_of Quiet
      (verifyKycForAmount_reads (R := Quiet) _ _ _ hkyc) (Quiet.checkRateLimit _ _ _ hlimit)
  have hbefore : Quiet s v₄ := trans_of Quiet hadmitted (Quiet.accrueUserRecord _ _ _ haccrue)
  have hafter : Quiet y t := trans_of Quiet (Quiet.bumpHeartbeat _ _ _ hbump) ht'
  exact ⟨fees.1, fees.2.1, fees.2.2, userVolume, first, last, out, v₄, w, x, y, htreasury, hbps,
    hcap, hfirst, hlast, hbefore, htaken, hswaps, hpaid, hafter⟩

lemma routeMultihopSwap_settles {remainder : ℤ} (hu : s.tokens.Unlent h.self)
    (hn : cfg.FeesNonnegative) (ht : cfg.platformTreasury ≠ some h.self) (hrec : recipient ≠ h.self)
    (hr : routeMultihopSwap h cfg env sender recipient dex amountIn path floors s =
      .ok (remainder, t)) :
    ∃ platformTreasury outputs out fee held, cfg.platformTreasury = some platformTreasury ∧
      remainder = out - fee ∧ MultihopSettles h env sender recipient dex platformTreasury amountIn
        path floors outputs out fee held s t := by
  have hadmits := routeMultihopSwap_shows _ _ _ hr
  have hs := authorises_ne hadmits.authorised
  obtain ⟨platformTreasury, feeBps, feeCap, userVolume, first, last, out, v, w, x, y, htreasury,
    hbps, hcap, hfirst, hlast, hbefore, htaken, hswaps, hpaid, hafter⟩ := routeMultihopSwap_ok hr
  obtain ⟨rest, rfl⟩ := List.head?_eq_some_iff.mp hfirst
  obtain ⟨outputs, events, hhops, hout⟩ := swapHops_ok hswaps
  obtain ⟨hremainder, held, hpay⟩ := payOut_posts hpaid
  have hunlent : w.tokens.Unlent h.self := by
    rw [← hbefore.tokens] at hu
    exact token_unlent hu htaken trivial
  have hpositive : 0 < out := by
    rcases List.mem_cons.mp (List.mem_of_getLast? hout) with rfl | hmem
    · exact hadmits.payment.positive
    · exact hhops.outputs_pos out hmem
  have hlength : floors.length = rest.length := by simpa using hadmits.hops.2.2
  have hlong : floors ≠ [] := by
    rintro rfl
    have := hadmits.hops.1
    simp at hlength this
    omega
  have hfee := swapFee_nonneg hpositive
    (effectiveFeeBps_nonneg (hn.bps _ hbps) : 0 ≤ effectiveFeeBps userVolume feeBps) (hn.cap _ hcap)
  refine ⟨platformTreasury, outputs, out, _, held, htreasury, hremainder, ?_⟩
  exact multihopSettles_of_parts hs (fun he => ht (by rw [htreasury, he])) hrec hadmits.distinct
    hlength hlong hlast (.after_quiet hbefore (token_posts htaken)) hunlent hhops hout hfee
    capFee_le (hpay.then_quiet hafter)

end Settlement

/-- A multi-hop swap that succeeds leaves the router with all it held and all it newly owes, meets
every floor, takes no more than its input from the sender, and hands over just the last output. -/
theorem multihop_conserved (h : Host) (tokens : Ledger Address Address) (calls : List Call)
    (env : Env) (sender recipient dex : Address) (amountIn : ℤ) (path : List Address)
    (floors : List ℤ) (hu : tokens.Unlent h.self)
    (hn : (after h tokens calls).settings.FeesNonnegative)
    (ht : (after h tokens calls).settings.platformTreasury ≠ some h.self)
    (hrec : recipient ≠ h.self)
    (hok : Tx.succeeds ((Op.route (.routeMultihopSwap sender recipient dex amountIn path
      floors)).invoke h env) (after h tokens calls) = true) :
    let s := after h tokens calls
    let t := step h ⟨env, .route (.routeMultihopSwap sender recipient dex amountIn path floors)⟩ s
    ∃ platformTreasury outputs out fee held,
      s.settings.platformTreasury = some platformTreasury ∧
        MultihopSettles h env sender recipient dex platformTreasury amountIn path floors outputs out
          fee held s.traffic t.traffic := by
  intro s t
  obtain ⟨_, hr⟩ := Tx.succeeds_iff.mp hok
  obtain ⟨v, hv, hstep⟩ := route_ok hr
  obtain ⟨remainder, hswap⟩ := Tx.void_ok.mp hv
  obtain ⟨treasury, outputs, out, fee, held, htreasury, -, hsettles⟩ :=
    routeMultihopSwap_settles (after_unlent hu calls) hn ht hrec hswap
  have ht : t.traffic = v := congrArg State.traffic hstep
  rw [ht]
  exact ⟨treasury, outputs, out, fee, held, htreasury, hsettles⟩

section Examples

/-- DEX `⟨6⟩` holds what it sells, and `⟨3⟩` what it spends. -/
def fundedHops : List Call :=
  [⟨signedBy [⟨1⟩], .administer (.initializeRouter ⟨1⟩ ⟨9⟩ 1000 1000 1000)⟩,
    ⟨signedBy [⟨1⟩], .configure (.registerDex ⟨6⟩)⟩,
    ⟨{}, .outside (.mint ⟨20⟩ ⟨3⟩ 100)⟩, ⟨{}, .outside (.mint ⟨21⟩ ⟨6⟩ 90)⟩,
    ⟨{}, .outside (.mint ⟨22⟩ ⟨6⟩ 80)⟩]

/-- The first hop leaves 10 unused, and the recipient refuses the proceeds. -/
def hopReply : ℕ → Reply
  | 2 => { returns := true, amounts := [90, 10],
           calls := [.transfer ⟨21⟩ ⟨6⟩ ⟨0⟩ 90, .transfer ⟨20⟩ ⟨6⟩ ⟨0⟩ 10] }
  | 5 => { returns := true, amounts := [80, 0], calls := [.transfer ⟨22⟩ ⟨6⟩ ⟨0⟩ 80] }
  | 7 => {}
  | _ => { accepts := true }

def heldHops : Call :=
  ⟨{ signedBy [⟨3⟩] with reply := hopReply },
    .route (.routeMultihopSwap ⟨3⟩ ⟨4⟩ ⟨6⟩ 100 [⟨20⟩, ⟨21⟩, ⟨22⟩] [90, 80])⟩

theorem multihop_conserved_held :
    let s := after .sample emptyLedger fundedHops
    (∃ platformTreasury outputs out fee held,
      s.settings.platformTreasury = some platformTreasury ∧
        MultihopSettles .sample heldHops.env ⟨3⟩ ⟨4⟩ ⟨6⟩ platformTreasury 100 [⟨20⟩, ⟨21⟩, ⟨22⟩]
          [90, 80] outputs out fee held s.traffic (step .sample heldHops s).traffic) ∧
      (step .sample heldHops s).traffic.refund ⟨3⟩ ⟨22⟩ = 72 := by
  intro s
  refine ⟨?_, by decide⟩
  have hbps : s.settings.feeBps = some 1000 := rfl
  have hcap : s.settings.feeCap = some 1000 := rfl
  have hfees := Settings.FeesNonnegative.of_eq hbps hcap (by norm_num) (by norm_num)
  exact multihop_conserved .sample emptyLedger fundedHops heldHops.env ⟨3⟩ ⟨4⟩ ⟨6⟩ 100
    [⟨20⟩, ⟨21⟩, ⟨22⟩] [90, 80] (fun _ _ => le_rfl) hfees (by decide) (by decide) (by decide)

end Examples

end StellarTags.Router
