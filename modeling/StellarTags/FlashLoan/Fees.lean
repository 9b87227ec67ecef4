import StellarTags.FlashLoan.Solvency

/-! How the fee moves with the amount and with the reserves. -/

namespace StellarTags.FlashLoan

open Library.Transactions Library.Integers Library.Tokens Soroban

variable {amount less larger reserves more n m : ℤ} {d : Host} {s t : State} {token : Address}

lemma tdiv_eq_ceil (hn : 0 ≤ n) (hm : 0 < m) : (n + (m - 1)).tdiv m = ⌈(n / m : ℚ)⌉ := by
  have hsum : 0 ≤ n + (m - 1) := by omega
  rw [Int.tdiv_eq_ediv_of_nonneg hsum, eq_comm, Int.ceil_eq_iff]
  have hcast : (0 : ℚ) < m := by exact_mod_cast hm
  have hdiv := Int.ediv_mul_le (n + (m - 1)) hm.ne'
  have hrest := Int.lt_ediv_add_one_mul_self (n + (m - 1)) hm
  constructor
  · rw [lt_div_iff₀ hcast]
    have hlow : ((n + (m - 1)) / m - 1) * m < n := by
      rw [sub_mul, one_mul]
      omega
    exact_mod_cast hlow
  · rw [div_le_iff₀ hcast]
    have hhigh : n ≤ (n + (m - 1)) / m * m := by
      rw [add_mul, one_mul] at hrest
      omega
    exact_mod_cast hhigh

section Utilization

lemma utilization_eq (ha : 0 < amount) (hr : 0 < reserves) :
    utilization amount reserves = ⌈((amount * bpsDivisor : ℤ) / reserves : ℚ)⌉ :=
  tdiv_eq_ceil (mul_nonneg ha.le (by decide)) hr

lemma utilization_nonneg (ha : 0 < amount) (hr : 0 < reserves) :
    0 ≤ utilization amount reserves := by
  rw [utilization_eq ha hr]
  apply Int.ceil_nonneg
  simp only [bpsDivisor]
  positivity

lemma utilization_le (ha : 0 < amount) (hr : amount ≤ reserves) :
    utilization amount reserves ≤ bpsDivisor := by
  have hpos : 0 < reserves := ha.trans_le hr
  rw [utilization_eq ha hpos, Int.ceil_le, div_le_iff₀ (by exact_mod_cast hpos)]
  have hle : amount * bpsDivisor ≤ bpsDivisor * reserves := by
    rw [mul_comm]
    exact mul_le_mul_of_nonneg_left hr (by decide)
  exact_mod_cast hle

lemma utilization_mono (hl : 0 < less) (h : less ≤ amount) (hr : 0 < reserves) :
    utilization less reserves ≤ utilization amount reserves := by
  rw [utilization_eq hl hr, utilization_eq (hl.trans_le h) hr]
  apply Int.ceil_le_ceil
  have hproduct : less * bpsDivisor ≤ amount * bpsDivisor := mul_le_mul_of_nonneg_right h (by decide)
  have hpos : (0 : ℚ) ≤ reserves := by exact_mod_cast hr.le
  exact div_le_div_of_nonneg_right (by exact_mod_cast hproduct) hpos

lemma utilization_antitone (ha : 0 < amount) (hr : 0 < reserves) (h : reserves ≤ more) :
    utilization amount more ≤ utilization amount reserves := by
  rw [utilization_eq ha hr, utilization_eq ha (hr.trans_le h)]
  apply Int.ceil_le_ceil
  have hproduct : 0 ≤ amount * bpsDivisor := mul_nonneg ha.le (by decide)
  exact div_le_div_of_nonneg_left (by exact_mod_cast hproduct) (by exact_mod_cast hr)
    (by exact_mod_cast h)

end Utilization

section Rates

variable {u v : ℤ}

/-- The rate of one unit more of utilization is no lower, at the kink too. -/
lemma feeBpsAt_mono (hu : 0 ≤ u) (h : u ≤ v) : feeBpsAt u ≤ feeBpsAt v := by
  have hbelow : 0 ≤ 5 * u + 7999 := by omega
  by_cases hv : v ≤ 8000
  · have hu' : u ≤ 8000 := h.trans hv
    have hbelow' : 0 ≤ 5 * v + 7999 := by omega
    simp only [feeBpsAt, feeSlope, kinkUtilizationBps, hu', hv, if_true, baseFeeBps]
    norm_num only
    rw [Int.tdiv_eq_ediv_of_nonneg hbelow, Int.tdiv_eq_ediv_of_nonneg hbelow']
    omega
  · have habove' : 0 ≤ 40 * (v - 8000) + 1999 := by omega
    by_cases hu' : u ≤ 8000
    · simp only [feeBpsAt, feeSlope, kinkUtilizationBps, hu', hv, if_true, if_false, baseFeeBps,
        kinkFeeBps, maxFeeBps, bpsDivisor]
      norm_num only
      rw [Int.tdiv_eq_ediv_of_nonneg hbelow, Int.tdiv_eq_ediv_of_nonneg habove']
      omega
    · have habove : 0 ≤ 40 * (u - 8000) + 1999 := by omega
      simp only [feeBpsAt, feeSlope, kinkUtilizationBps, hu', hv, if_false, kinkFeeBps, maxFeeBps,
        bpsDivisor]
      norm_num only
      rw [Int.tdiv_eq_ediv_of_nonneg habove, Int.tdiv_eq_ediv_of_nonneg habove']
      omega

lemma rate_mono (hu : 0 ≤ utilization less reserves)
    (h : utilization less reserves ≤ utilization amount more) :
    rate less reserves ≤ rate amount more :=
  min_le_min_right maxFeeBps (feeBpsAt_mono hu h)

lemma baseFeeBps_le_rate (ha : 0 < amount) (hr : 0 < reserves) :
    baseFeeBps ≤ rate amount reserves := by
  have hzero : feeBpsAt 0 = baseFeeBps := rfl
  have hmono := feeBpsAt_mono le_rfl (utilization_nonneg ha hr)
  exact le_min (hzero ▸ hmono) (by decide)

lemma slopeFits_of_utilization (hu : 0 ≤ u) (h : u ≤ bpsDivisor) : SlopeFits u := by
  simp only [bpsDivisor] at h
  by_cases hkink : u ≤ 8000
  · simp only [SlopeFits, feeSlope, kinkUtilizationBps, hkink, if_true, FitsI128, minI128, maxI128,
      baseFeeBps]
    omega
  · simp only [SlopeFits, feeSlope, kinkUtilizationBps, hkink, if_false, FitsI128, minI128, maxI128,
      maxFeeBps, kinkFeeBps, bpsDivisor]
    omega

end Rates

section Quotes

/-- A covered amount has a fee exactly when its utilization does not overflow. -/
lemma quotable_iff : Quotable amount reserves ↔
    0 < amount ∧ amount ≤ reserves ∧ FitsI128 (amount * bpsDivisor + (reserves - 1)) := by
  constructor
  · rintro ⟨hpos, hcovered, ⟨-, hfits⟩, -, -⟩
    exact ⟨hpos, hcovered, hfits⟩
  · rintro ⟨hpos, hcovered, hfits⟩
    have hreserves : 0 < reserves := hpos.trans_le hcovered
    have hmin : minI128 ≤ 0 := by decide
    have hscaled : 0 ≤ amount * bpsDivisor := mul_nonneg hpos.le (by decide)
    have hproduct : FitsI128 (amount * bpsDivisor) := ⟨by omega, by omega⟩
    have hbase := baseFeeBps_le_rate hpos hreserves
    have hlow : 0 ≤ amount * rate amount reserves :=
      mul_nonneg hpos.le (le_trans (by decide) hbase)
    have hhigh : amount * rate amount reserves ≤ amount * maxFeeBps :=
      mul_le_mul_of_nonneg_left (min_le_right _ _) hpos.le
    have hmax : amount * maxFeeBps + (bpsDivisor - 1) ≤ maxI128 := by
      have hbound := hproduct.2
      simp only [maxFeeBps, bpsDivisor, maxI128] at hbound ⊢
      omega
    have hunit : (0 : ℤ) ≤ bpsDivisor - 1 := by decide
    refine ⟨hpos, hcovered, ⟨hproduct, hfits⟩, ?_, ⟨by omega, by omega⟩, by omega, by omega⟩
    exact slopeFits_of_utilization (utilization_nonneg hpos hreserves) (utilization_le hpos hcovered)

lemma Quotable.of_le (h : Quotable amount reserves) (hl : 0 < less) (hle : less ≤ amount) :
    Quotable less reserves := by
  obtain ⟨-, hcovered, hfits⟩ := quotable_iff.mp h
  have hreserves : 0 < reserves := (hl.trans_le hle).trans_le hcovered
  have hscaled : 0 ≤ less * bpsDivisor := mul_nonneg hl.le (by decide)
  have hproduct : less * bpsDivisor ≤ amount * bpsDivisor :=
    mul_le_mul_of_nonneg_right hle (by decide)
  have hmin : minI128 ≤ 0 := by decide
  exact quotable_iff.mpr ⟨hl, hle.trans hcovered, by omega, by omega⟩

/-- What an amount costs at a rate. -/
def charge (amount feeBps : ℤ) : ℤ := (amount * feeBps + (bpsDivisor - 1)).tdiv bpsDivisor

lemma charge_eq (ha : 0 ≤ amount) {feeBps : ℤ} (hf : 0 ≤ feeBps) :
    charge amount feeBps = ⌈((amount * feeBps : ℤ) / (10000 : ℤ) : ℚ)⌉ :=
  tdiv_eq_ceil (mul_nonneg ha hf) (by decide)

lemma charge_mono {feeBps higher : ℤ} (hl : 0 ≤ less) (h : less ≤ amount) (hf : 0 ≤ feeBps)
    (hr : feeBps ≤ higher) : charge less feeBps ≤ charge amount higher := by
  rw [charge_eq hl hf, charge_eq (hl.trans h) (hf.trans hr)]
  apply Int.ceil_le_ceil
  have hproduct : less * feeBps ≤ amount * higher := mul_le_mul h hr hf (hl.trans h)
  exact div_le_div_of_nonneg_right (by exact_mod_cast hproduct) (by norm_num)

end Quotes

/-- For all amounts whose fees can be worked out, a larger amount costs no less, larger reserves
make it no dearer, and the fee that is quoted is the one a loan pays: at least the base fee, and at
most half a percent, rounded up. -/
theorem fees_monotone (d : Host) (token : Address) (s : State) (a b : ℤ) (ha : 0 < a) (hab : a ≤ b)
    (hb : b ≤ s.reserves d token) (hfits : FitsI128 (b * 10000 + (s.reserves d token - 1))) :
    ∃ fee feeOfMore base,
      getFlashLoanFee d a token s = .ok (fee, s) ∧
      getFlashLoanFee d b token s = .ok (feeOfMore, s) ∧
      flashFee a s = .ok (base, s) ∧
      fee ≤ feeOfMore ∧
      (∀ t later u, s.reserves d token ≤ t.reserves d token →
        getFlashLoanFee d a token t = .ok (later, u) → later ≤ fee) ∧
      (∀ env request onFlashLoan charged t, request.token = token → request.amount.val = a →
        flashLoan d env request onFlashLoan s = .ok (charged, t) → charged = fee) ∧
      base ≤ fee ∧ 0 < fee ∧ fee ≤ ⌈(50 * a / 10000 : ℚ)⌉ := by
  have hquotable : Quotable b (s.reserves d token) :=
    quotable_iff.mpr ⟨ha.trans_le hab, hb, hfits⟩
  have hless : Quotable a (s.reserves d token) := hquotable.of_le ha hab
  have hpos : 0 < s.reserves d token := ha.trans_le (hab.trans hb)
  have hbase := baseFeeBps_le_rate ha hpos
  have hrate : 0 ≤ rate a (s.reserves d token) := le_trans (by decide) hbase
  refine ⟨quote a (s.reserves d token), quote b (s.reserves d token), charge a baseFeeBps,
    calculateFee_ok.mpr ⟨hless, rfl, rfl⟩, calculateFee_ok.mpr ⟨hquotable, rfl, rfl⟩, ?_, ?_, ?_, ?_,
    ?_, quote_pos hless, ?_⟩
  · refine calculateAmountFee_ok.mpr ⟨ha, ?_, rfl, rfl⟩
    have hproduct := hless.fits.1
    simp only [FitsI128, minI128, maxI128, baseFeeBps, bpsDivisor] at hproduct ⊢
    omega
  · exact charge_mono ha.le hab hrate (rate_mono (utilization_nonneg ha hpos)
      (utilization_mono ha hab hpos))
  · intro t later u hmore hok
    obtain ⟨hquotable', rfl, -⟩ := calculateFee_ok.mp hok
    have hpos' : 0 < t.reserves d token := hpos.trans_le hmore
    exact charge_mono ha.le le_rfl (le_trans (by decide) (baseFeeBps_le_rate ha hpos'))
      (rate_mono (utilization_nonneg ha hpos') (utilization_antitone ha hpos hmore))
  · rintro env request onFlashLoan charged t rfl rfl hok
    obtain ⟨m, v, -, rfl, -⟩ := flashLoan_ok.mp hok
    rfl
  · exact charge_mono ha.le le_rfl (by decide) hbase
  · have hcap : quote a (s.reserves d token) ≤ charge a maxFeeBps :=
      charge_mono ha.le le_rfl hrate (min_le_right _ _)
    rw [charge_eq ha.le (by decide), maxFeeBps, mul_comm] at hcap
    exact_mod_cast hcap

section Examples

/-- A provider that holds a thousand units of `⟨9⟩`. -/
def funded : State := State.fresh ⟨fun token a => if token = ⟨9⟩ ∧ a = ⟨0⟩ then 1000 else 0,
  fun _ _ _ => 0⟩

theorem fees_monotone_funded :
    ∃ fee feeOfMore base,
      getFlashLoanFee Host.sample 800 ⟨9⟩ funded = .ok (fee, funded) ∧
      getFlashLoanFee Host.sample 801 ⟨9⟩ funded = .ok (feeOfMore, funded) ∧
      flashFee 800 funded = .ok (base, funded) ∧
      fee ≤ feeOfMore ∧
      (∀ t later u, funded.reserves Host.sample ⟨9⟩ ≤ t.reserves Host.sample ⟨9⟩ →
        getFlashLoanFee Host.sample 800 ⟨9⟩ t = .ok (later, u) → later ≤ fee) ∧
      (∀ env request onFlashLoan charged t, request.token = ⟨9⟩ → request.amount.val = 800 →
        flashLoan Host.sample env request onFlashLoan funded = .ok (charged, t) →
          charged = fee) ∧
      base ≤ fee ∧ 0 < fee ∧ fee ≤ ⌈(50 * (800 : ℤ) / 10000 : ℚ)⌉ :=
  fees_monotone Host.sample ⟨9⟩ funded 800 801 (by decide) (by decide) (by decide) (by decide)

end Examples

end StellarTags.FlashLoan
