import StellarTags.Router.Delivery

/-! What a quote promises, and what the swap that follows it accepts. -/

namespace StellarTags.Router

open Library.Transactions Library.Integers Library.Tokens Soroban

section Floors

variable {a b c : ℤ}

def floorOf (expectedAmountOut maxSlippageBps : ℤ) : ℤ :=
  max 1 (expectedAmountOut - (expectedAmountOut * maxSlippageBps).tdiv bpsDivisor)

lemma floorOf_nonpos (ha : a ≤ 0) (hb : 0 ≤ b ∧ b ≤ maxSlippageBpsLimit) : floorOf a b = 1 := by
  obtain hneg | rfl := ha.lt_or_eq
  · have htolerated := (tolerated_le (neg_pos.mpr hneg) hb).2
    rw [neg_mul, Int.neg_tdiv] at htolerated
    exact max_eq_left (by omega)
  · rw [floorOf, zero_mul, Int.zero_tdiv]
    rfl

lemma floorOf_pos (ha : 0 < a) (hb : 0 ≤ b) : floorOf a b = max 1 (a - a * b / bpsDivisor) := by
  rw [floorOf, Int.tdiv_eq_ediv_of_nonneg (mul_nonneg ha.le hb)]

lemma floorOf_mono (hb : 0 ≤ b ∧ b ≤ maxSlippageBpsLimit) (hac : a ≤ c) :
    floorOf a b ≤ floorOf c b := by
  obtain hneg | hpos := le_or_gt a 0
  · rw [floorOf_nonpos hneg hb]
    exact le_max_left _ _
  · have hproduct : c * b ≤ a * b + (c - a) * bpsDivisor := by
      have hstep := mul_le_mul_of_nonneg_left (show b ≤ bpsDivisor from hb.2) (sub_nonneg.mpr hac)
      linarith only [hstep]
    have htolerated : c * b / bpsDivisor ≤ a * b / bpsDivisor + (c - a) := by
      calc c * b / bpsDivisor ≤ (a * b + (c - a) * bpsDivisor) / bpsDivisor :=
            Int.ediv_le_ediv (by decide) hproduct
        _ = a * b / bpsDivisor + (c - a) := Int.add_mul_ediv_right _ _ (by decide)
    rw [floorOf_pos hpos hb.1, floorOf_pos (hpos.trans_le hac) hb.1]
    apply max_le_max_left
    linarith only [htolerated]

lemma floorOf_antitone (hb : 0 ≤ b) (hbc : b ≤ c) (hc : c ≤ maxSlippageBpsLimit) :
    floorOf a c ≤ floorOf a b := by
  obtain hneg | hpos := le_or_gt a 0
  · rw [floorOf_nonpos hneg ⟨hb.trans hbc, hc⟩]
    exact le_max_left _ _
  · have htolerated : a * b / bpsDivisor ≤ a * c / bpsDivisor :=
      Int.ediv_le_ediv (by decide) (mul_le_mul_of_nonneg_left hbc hpos.le)
    rw [floorOf_pos hpos hb, floorOf_pos hpos (hb.trans hbc)]
    apply max_le_max_left
    exact sub_le_sub_left htolerated a

lemma floorOf_le (ha : 0 < a) (hb : 0 ≤ b ∧ b ≤ maxSlippageBpsLimit) : floorOf a b ≤ a := by
  have htolerated := (tolerated_le ha hb).1
  exact max_le (by omega) (by omega)

end Floors

section Execution

variable {h : Host} {cfg : Settings} {env : Env} {swap : SwapPayment} {q : SwapQuote}
  {dex sellToken buyToken platformTreasury : Address} {feeBps feeCap amountOut : ℤ}
  {s t v : Traffic}

/-- A swap as far as its slippage guards: the payer's volume, and what the DEX delivers. -/
def deliverSwap (h : Host) (cfg : Settings) (env : Env) (swap : SwapPayment) : Routing (ℤ × ℤ) := do
  requireAuth h env swap.sender
  requireSwapsNotPaused cfg
  validateSwap cfg env swap
  let userVolume ← accrueUserRecord env swap.sender swap.amountIn
  let balance ← balanceOf swap.sellToken swap.sender
  Tx.reject (balance < swap.amountIn) .insufficientBalance
  let buyBalanceBefore ← balanceOf swap.buyToken h.self
  token h env (.transfer swap.sellToken swap.sender h.self swap.amountIn)
  token h env (.transfer swap.sellToken h.self swap.dex swap.amountIn)
  let output ← invokeDexSwap h env swap.dex
  Tx.reject (output.1 ≠ swap.buyToken) Error.assetMismatch
  let buyBalanceAfter ← balanceOf swap.buyToken h.self
  let amountOut ← checkedI128 (buyBalanceAfter - buyBalanceBefore)
  pure (userVolume, amountOut)

lemma processSingleSwapPayment_eq :
    processSingleSwapPayment h cfg env swap platformTreasury feeBps feeCap =
      (deliverSwap h cfg env swap >>= fun delivered => do
        checkSlippage cfg swap delivered.2
        payOut h env swap.sender swap.recipient swap.buyToken platformTreasury delivered.2
          (effectiveFeeBps delivered.1 feeBps) feeCap) := by
  simp only [processSingleSwapPayment, deliverSwap, Tx.bind_assoc]
  rfl

/-- A swap between the tokens of a quote, with the amounts it named. -/
structure SwapPayment.Follows (swap : SwapPayment) (q : SwapQuote) (sellToken buyToken : Address) :
    Prop where
  sell : swap.sellToken = sellToken
  buy : swap.buyToken = buyToken
  expected : swap.expectedAmountOut = q.amountOut
  minimum : swap.minAmountOut = q.minAmountOut

lemma pairMaxSlippageBps_any {bps : ℤ}
    (hr : (cfg.pairMaxSlippageBps sellToken buyToken : Routing ℤ) s = .ok (bps, t)) (v : Traffic) :
    (cfg.pairMaxSlippageBps sellToken buyToken : Routing ℤ) v = .ok (bps, v) := by
  unfold Settings.pairMaxSlippageBps at hr ⊢
  cases hp : cfg.pairSlippage sellToken buyToken with
  | none =>
    simp only [hp] at hr ⊢
    exact Tx.pure_ok.mpr ⟨(Tx.pure_ok.mp hr).1, rfl⟩
  | some stored =>
    simp only [hp] at hr ⊢
    split_ifs at hr ⊢
    · exact Tx.pure_ok.mpr ⟨(Tx.pure_ok.mp hr).1, rfl⟩
    · simp at hr

/-- What a quote was made of, to be found again in any state with the same settings. -/
structure Quoted (cfg : Settings) (sellToken buyToken : Address) (q : SwapQuote) : Prop where
  positive : 0 < q.amountOut
  ceiling : ∀ v, (cfg.pairMaxSlippageBps sellToken buyToken : Routing ℤ) v =
    .ok (q.maxSlippageBps, v)
  floor : ∀ v, slippageFloor q.amountOut q.maxSlippageBps v = .ok (q.minAmountOut, v)

lemma quoteSwap_ok (hr : quoteSwap h cfg env dex sellToken buyToken s = .ok (q, t)) :
    Quoted cfg sellToken buyToken q := by
  obtain ⟨-, hr⟩ := Tx.reject_bind_ok.mp hr
  obtain ⟨amountOut, v, -, hr⟩ := Tx.bind_ok.mp hr
  obtain ⟨hpositive, hr⟩ := Tx.reject_bind_ok.mp hr
  obtain ⟨bps, w, hbps, hr⟩ := Tx.bind_ok.mp hr
  obtain ⟨floor, x, hfloor, hr⟩ := Tx.bind_ok.mp hr
  obtain ⟨rfl, -⟩ := Tx.pure_ok.mp hr
  obtain ⟨hproduct, hrest, hvalue, -⟩ := slippageFloor_ok.mp hfloor
  exact ⟨not_le.mp hpositive, pairMaxSlippageBps_any hbps,
    fun _ => slippageFloor_ok.mpr ⟨hproduct, hrest, hvalue, rfl⟩⟩

lemma slippageBps_bounded (hc : cfg.SlippageBounded) :
    0 ≤ cfg.slippageBps sellToken buyToken ∧ cfg.slippageBps sellToken buyToken ≤ maxSlippageBpsLimit := by
  rw [Settings.slippageBps]
  cases hp : cfg.pairSlippage sellToken buyToken with
  | none => exact hc.global
  | some bps =>
    obtain ⟨hlow, hhigh⟩ := hc.pair _ _ _ hp
    exact ⟨hlow, hhigh.trans (by decide)⟩

lemma Quoted.bounded (hq : Quoted cfg sellToken buyToken q) (hc : cfg.SlippageBounded) :
    0 ≤ q.maxSlippageBps ∧ q.maxSlippageBps ≤ maxSlippageBpsLimit := by
  rw [(pairMaxSlippageBps_ok (hq.ceiling { tokens := emptyLedger })).1]
  exact slippageBps_bounded hc

/-- The second guard works out the floor that the first was given. -/
lemma Quoted.checkSlippage (hq : Quoted cfg sellToken buyToken q)
    (hs : swap.Follows q sellToken buyToken) (amountOut : ℤ) (v : Traffic) :
    checkSlippage cfg swap amountOut v =
      if q.minAmountOut ≤ amountOut then .ok ((), v) else .error (.err .slippageExceeded) := by
  rw [Router.checkSlippage, Tx.reject_bind, hs.minimum]
  by_cases hshort : amountOut < q.minAmountOut
  · rw [if_pos hshort, if_neg hshort.not_ge]
  · rw [if_neg hshort, if_pos (not_lt.mp hshort), hs.expected, hs.sell, hs.buy, Tx.whenever,
      if_pos hq.positive, Tx.bind_of_ok (hq.ceiling v), Tx.bind_of_ok (hq.floor v)]
    exact Tx.reject_ok.mpr ⟨hshort, rfl⟩

/-- Once the DEX has delivered, a swap that follows a quote is paid out or stopped by the quote's
minimum alone. -/
lemma Quoted.processSingleSwapPayment {delivered : ℤ × ℤ} (hq : Quoted cfg sellToken buyToken q)
    (hs : swap.Follows q sellToken buyToken)
    (hd : deliverSwap h cfg env swap t = .ok (delivered, v)) :
    processSingleSwapPayment h cfg env swap platformTreasury feeBps feeCap t =
      if q.minAmountOut ≤ delivered.2 then
        payOut h env swap.sender swap.recipient swap.buyToken platformTreasury delivered.2
          (effectiveFeeBps delivered.1 feeBps) feeCap v
      else .error (.err .slippageExceeded) := by
  have hguard := hq.checkSlippage hs delivered.2 v
  rw [processSingleSwapPayment_eq, Tx.bind_of_ok hd]
  by_cases hle : q.minAmountOut ≤ delivered.2
  · rw [if_pos hle] at hguard ⊢
    rw [Tx.bind_of_ok hguard]
  · rw [if_neg hle] at hguard ⊢
    rw [Tx.bind_of_error hguard]

end Execution

/-- What the floor does over all amounts, and all settings in bounds. -/
structure FloorLaws : Prop where
  monotone : ∀ a c b f g (s t u v : Traffic), 0 ≤ b ∧ b ≤ maxSlippageBpsLimit → a ≤ c →
    slippageFloor a b s = .ok (f, t) → slippageFloor c b u = .ok (g, v) → f ≤ g
  antitone : ∀ a b c f g (s t u v : Traffic), 0 ≤ b → b ≤ c → c ≤ maxSlippageBpsLimit →
    slippageFloor a b s = .ok (f, t) → slippageFloor a c u = .ok (g, v) → g ≤ f
  positive : ∀ a b f (s t : Traffic), slippageFloor a b s = .ok (f, t) → 1 ≤ f
  within : ∀ a b f (s t : Traffic), 0 < a → 0 ≤ b ∧ b ≤ maxSlippageBpsLimit →
    slippageFloor a b s = .ok (f, t) → f ≤ a

lemma slippageFloor_value {a b f : ℤ} {s t : Traffic} (hr : slippageFloor a b s = .ok (f, t)) :
    f = floorOf a b := (slippageFloor_ok.mp hr).2.2.1

lemma floorLaws : FloorLaws := by
  constructor
  · intro a c b f g s t u v hb hac hf hg
    rw [slippageFloor_value hf, slippageFloor_value hg]
    exact floorOf_mono hb hac
  · intro a b c f g s t u v hb hbc hc hf hg
    rw [slippageFloor_value hf, slippageFloor_value hg]
    exact floorOf_antitone hb hbc hc
  · intro a b f s t hf
    rw [slippageFloor_value hf]
    exact le_max_left _ _
  · intro a b f s t ha hb hf
    rw [slippageFloor_value hf]
    exact floorOf_le ha hb

/-- A swap with the amounts of a quote passes its guards exactly when the DEX delivers the quote's
minimum, and the floors behind both keep to their laws. -/
theorem quote_matches_execution (h : Host) (cfg : Settings) (env : Env)
    (dex sellToken buyToken : Address) :
    (∀ s q t, quoteSwap h cfg env dex sellToken buyToken s = .ok (q, t) →
      (cfg.SlippageBounded → 0 ≤ q.maxSlippageBps ∧ q.maxSlippageBps ≤ maxSlippageBpsLimit) ∧
      ∀ swap : SwapPayment, swap.Follows q sellToken buyToken →
        (∀ amountOut v, checkSlippage cfg swap amountOut v =
          if q.minAmountOut ≤ amountOut then .ok ((), v) else .error (.err .slippageExceeded)) ∧
        ∀ later platformTreasury feeBps feeCap u delivered v,
          deliverSwap h cfg later swap u = .ok (delivered, v) →
          processSingleSwapPayment h cfg later swap platformTreasury feeBps feeCap u =
            if q.minAmountOut ≤ delivered.2 then
              payOut h later swap.sender swap.recipient swap.buyToken platformTreasury delivered.2
                (effectiveFeeBps delivered.1 feeBps) feeCap v
            else .error (.err .slippageExceeded)) ∧
      FloorLaws := by
  refine ⟨?_, floorLaws⟩
  intro s q t hr
  have hq := quoteSwap_ok hr
  refine ⟨hq.bounded, fun swap hs => ?_⟩
  constructor
  · exact hq.checkSlippage hs
  · intro later platformTreasury feeBps feeCap u delivered v hd
    exact hq.processSingleSwapPayment hs hd

section Examples

/-- The DEX quotes a hundred, off which the settings allow a tenth. -/
def quotedHundred : Env := { reply := fun _ => { returns := true, quoted := 100 } }

def oneDex : Settings := { registeredDex := fun dex => decide (dex = ⟨7⟩) }

def atMinimum : SwapPayment := ⟨⟨2⟩, ⟨4⟩, ⟨20⟩, ⟨21⟩, 50, 90, 100, 0, ⟨7⟩⟩

theorem quote_matches_execution_tenth :
    let s := (State.fresh emptyLedger).traffic
    checkSlippage oneDex atMinimum 90 s = .ok ((), s) ∧
      checkSlippage oneDex atMinimum 89 s = .error (.err .slippageExceeded) := by
  intro s
  have hquote : ∃ t, quoteSwap .sample oneDex quotedHundred ⟨7⟩ ⟨20⟩ ⟨21⟩ s =
      .ok (⟨100, 90, 1000⟩, t) := ⟨_, rfl⟩
  obtain ⟨t, hquote⟩ := hquote
  have hguard := ((quote_matches_execution .sample oneDex quotedHundred ⟨7⟩ ⟨20⟩ ⟨21⟩).1 _ _ _
    hquote).2 atMinimum ⟨rfl, rfl, rfl, rfl⟩
  exact ⟨hguard.1 90 s, hguard.1 89 s⟩

/-- Of an amount of zero the floor still asks for one. -/
theorem floor_above_nothing :
    ∃ floor t, slippageFloor 0 500 (State.fresh emptyLedger).traffic = .ok (floor, t) ∧
      ¬ (0 ≤ floor ∧ floor ≤ 0) :=
  ⟨1, _, rfl, by decide⟩

end Examples

end StellarTags.Router
