import StellarTags.Router.FeeBounds

/-! When the three ways to work a fee out agree. -/

namespace StellarTags.Router

open Library.Transactions Library.Integers Library.Tokens Soroban

variable {amount bps feeCap fee : ℤ} {s t : Traffic} {r : ℤ × ℤ}

def split (amount fee : ℤ) : Routing (ℤ × ℤ) := do
  let remainder ← checkedI128 (amount - fee)
  pure (fee, remainder)

def directSplit (amount bps feeCap : ℤ) : Routing (ℤ × ℤ) := split amount (directFee amount bps feeCap)

def signedSplit (amount bps feeCap : ℤ) : Routing (ℤ × ℤ) := split amount (signedFee amount bps feeCap)

section Steps

variable {h : Host} {cfg : Settings} {env : Env} {u : Unit} {feeBps : ℤ}
  {sender recipient token platformTreasury : Address}

lemma split_ok : split amount fee s = .ok (r, t) ↔
    FitsI128 (amount - fee) ∧ r = (fee, amount - fee) ∧ t = s := by
  rw [split, checkedI128_bind_ok, Tx.pure_ok]

lemma calculateFee_ok : (calculateFee amount bps feeCap : Routing (ℤ × ℤ)) s = .ok (r, t) ↔
    FitsI128 (amount * bps) ∧ FitsI128 (amount - swapFee amount bps feeCap) ∧
      r = (swapFee amount bps feeCap, amount - swapFee amount bps feeCap) ∧ t = s := by
  simp only [calculateFee, checkedI128_bind_ok, Tx.pure_ok]
  rfl

lemma processSinglePayment_split (hr : processSinglePayment h env sender recipient token amount
      platformTreasury feeBps feeCap s = .ok (u, t)) :
    ∃ r, directSplit amount (s.rate env sender feeBps) feeCap s = .ok (r, s) ∧ ∃ held,
      Posts (paymentEvents h (.transfer token sender) sender recipient token platformTreasury amount
        r.1 held) s t := by
  obtain ⟨held, hposts⟩ := processSinglePayment_posts hr
  obtain ⟨userVolume, v, hv, hr⟩ := Tx.bind_ok.mp hr
  obtain ⟨rfl, -⟩ := accrueUserRecord_ok hv
  simp only [balanceOf, Tx.read_bind, Tx.reject_bind_ok, checkedI128_bind_ok] at hr
  exact ⟨_, split_ok.mpr ⟨hr.2.1, rfl, rfl⟩, held, hposts⟩

lemma processSinglePaymentNoAuth_split (hr : processSinglePaymentNoAuth h cfg env sender recipient
      token amount platformTreasury feeBps feeCap s = .ok (u, t)) :
    ∃ r, signedSplit amount (s.rate env sender feeBps) feeCap s = .ok (r, s) ∧ ∃ held,
      Posts (paymentEvents h (.transferFrom token h.self sender) sender recipient token
        platformTreasury amount r.1 held) s t := by
  obtain ⟨-, held, hposts⟩ := processSinglePaymentNoAuth_posts hr
  simp only [processSinglePaymentNoAuth, Tx.reject_bind_ok] at hr
  obtain ⟨-, -, -, -, hr⟩ := hr
  obtain ⟨_, w, hw, hr⟩ := Tx.bind_ok.mp hr
  obtain rfl := verifyKycForAmount_reads (R := Eq) _ _ _ hw
  obtain ⟨userVolume, v, hv, hr⟩ := Tx.bind_ok.mp hr
  obtain ⟨rfl, -⟩ := accrueUserRecord_ok hv
  simp only [balanceOf, Tx.read_bind, Tx.reject_bind_ok, checkedI128_bind_ok] at hr
  exact ⟨_, split_ok.mpr ⟨hr.2.2.1, rfl, rfl⟩, held, hposts⟩

end Steps

section Agreement

/-- The three steps come to the same, or none of them comes to anything. -/
def Agree (amount bps feeCap : ℤ) : Prop :=
  ∀ (s t : Traffic) (r : ℤ × ℤ),
    (directSplit amount bps feeCap s = .ok (r, t) ↔
      (calculateFee amount bps feeCap : Routing (ℤ × ℤ)) s = .ok (r, t)) ∧
    (signedSplit amount bps feeCap s = .ok (r, t) ↔
      (calculateFee amount bps feeCap : Routing (ℤ × ℤ)) s = .ok (r, t))

lemma directFee_of_fits (hfits : FitsI128 (amount * bps)) :
    directFee amount bps feeCap = swapFee amount bps feeCap := by
  rw [directFee, swapFee, saturateI128, min_eq_left hfits.2, max_eq_right hfits.1]

lemma signedFee_of_fits (hfits : FitsI128 (amount * bps)) :
    signedFee amount bps feeCap = swapFee amount bps feeCap := by
  rw [signedFee, swapFee, if_pos hfits]

lemma signedFee_of_overflow (hover : ¬ FitsI128 (amount * bps)) :
    signedFee amount bps feeCap = capFee (amount.tdiv bpsDivisor) feeCap amount := by
  rw [signedFee, if_neg hover]

lemma sub_capFee (x : ℤ) :
    amount - capFee x feeCap amount = max (max (amount - x) (amount - feeCap)) 0 := by
  dsimp only [capFee]
  split_ifs <;> omega

lemma fits_sub_capFee {x : ℤ} :
    FitsI128 (amount - capFee x feeCap amount) ↔
      amount - x ≤ maxI128 ∧ amount - feeCap ≤ maxI128 := by
  rw [sub_capFee, FitsI128, max_le_iff, max_le_iff]
  constructor
  · rintro ⟨-, ⟨hrest, hcap⟩, -⟩
    exact ⟨hrest, hcap⟩
  · rintro ⟨hrest, hcap⟩
    refine ⟨le_max_of_le_right ?_, ⟨hrest, hcap⟩, ?_⟩
    · decide
    · decide

lemma sub_tdiv_le (hamount : FitsI128 amount) : amount - amount.tdiv bpsDivisor ≤ maxI128 := by
  obtain ⟨-, hmax⟩ := hamount
  obtain hneg | hpos := le_total amount 0
  · have hquot : amount ≤ amount.tdiv bpsDivisor := by
      rw [← neg_le_neg_iff, ← Int.neg_tdiv]
      exact Int.tdiv_le_self _ (neg_nonneg.mpr hneg)
    exact le_trans (sub_nonpos.mpr hquot) (by decide)
  · have hquot : 0 ≤ amount.tdiv bpsDivisor := Int.tdiv_nonneg hpos (by decide)
    exact le_trans (sub_le_self _ hquot) hmax

/-- What a fee of the amount itself leaves of it can only be too much because of the cap. -/
lemma fits_signedFee (hamount : FitsI128 amount) (hover : ¬ FitsI128 (amount * bps)) :
    FitsI128 (amount - signedFee amount bps feeCap) ↔ amount - feeCap ≤ maxI128 := by
  rw [signedFee_of_overflow hover, fits_sub_capFee]
  exact and_iff_right (sub_tdiv_le hamount)

lemma signedSplit_of_fits (hfits : FitsI128 (amount * bps)) :
    signedSplit amount bps feeCap s = .ok (r, t) ↔
      (calculateFee amount bps feeCap : Routing (ℤ × ℤ)) s = .ok (r, t) := by
  rw [signedSplit, split_ok, calculateFee_ok, signedFee_of_fits hfits, and_iff_right hfits]

lemma directSplit_of_fits (hfits : FitsI128 (amount * bps)) :
    directSplit amount bps feeCap s = .ok (r, t) ↔
      (calculateFee amount bps feeCap : Routing (ℤ × ℤ)) s = .ok (r, t) := by
  rw [directSplit, split_ok, calculateFee_ok, directFee_of_fits hfits, and_iff_right hfits]

/-- A cap so far below zero that the amount overflows when it is taken off stops every step. -/
lemma agree_of_cap (hcap : maxI128 < amount - feeCap) : Agree amount bps feeCap := by
  intro s t r
  have hnone (x : ℤ) : ¬ FitsI128 (amount - capFee x feeCap amount) := by
    rw [fits_sub_capFee, not_and]
    intro _
    exact not_le.mpr hcap
  have hquote : ¬ (calculateFee amount bps feeCap : Routing (ℤ × ℤ)) s = .ok (r, t) := by
    rw [calculateFee_ok]
    rintro ⟨-, hfits, -⟩
    exact hnone _ hfits
  refine ⟨iff_of_false ?_ hquote, iff_of_false ?_ hquote⟩
  · rw [directSplit, split_ok]
    rintro ⟨hfits, -⟩
    exact hnone _ hfits
  · rw [signedSplit, split_ok]
    rintro ⟨hfits, -⟩
    exact hnone _ hfits

lemma agree_iff (hamount : FitsI128 amount) :
    Agree amount bps feeCap ↔ FitsI128 (amount * bps) ∨ maxI128 < amount - feeCap := by
  constructor
  · intro hagree
    by_contra hneither
    rw [not_or, not_lt] at hneither
    obtain ⟨hover, hcap⟩ := hneither
    let s : Traffic := { tokens := emptyLedger }
    have hsigned : signedSplit amount bps feeCap s =
        .ok ((signedFee amount bps feeCap, amount - signedFee amount bps feeCap), s) :=
      split_ok.mpr ⟨(fits_signedFee hamount hover).mpr hcap, rfl, rfl⟩
    have hquote := (hagree _ _ _).2.mp hsigned
    exact hover (calculateFee_ok.mp hquote).1
  · rintro (hfits | hcap)
    · intro s t r
      exact ⟨directSplit_of_fits hfits, signedSplit_of_fits hfits⟩
    · exact agree_of_cap hcap

end Agreement

section Examples

/-- The admin opens the router to payments of up to `2 ^ 121`, at one percent and at most
`2 ^ 120`. -/
def onePercent : List Call :=
  [⟨signedBy [⟨1⟩], .administer (.initializeRouter ⟨1⟩ ⟨9⟩ 0 0 (2 ^ 121))⟩,
    ⟨signedBy [⟨1⟩], .configure (.setFeeConfig 100 (2 ^ 120))⟩]

end Examples

end StellarTags.Router
