import StellarTags.YieldEscrow.Portfolios
import StellarTags.YieldEscrow.Rebalancing

/-! Whether a rebalancing leaves anything that calls for another. -/

namespace StellarTags.YieldEscrow

open Library.Transactions Library.Integers Library.Apportionment Soroban

variable {token self : Address} {strategies : List StrategyAllocation} {total threshold : ℤ}
  {m m' : Machine Pools} {env : Env}

def drift (total : ℤ) (position : StrategyAllocation × ℤ) : ℤ :=
  if (position.1.weightBps : ℤ) ≤ (position.2 * bpsDenominator).tdiv total then
    (position.2 * bpsDenominator).tdiv total - position.1.weightBps
  else position.1.weightBps - (position.2 * bpsDenominator).tdiv total

/-- The drift can be worked out and is below the threshold. -/
structure Still (threshold total : ℤ) (position : StrategyAllocation × ℤ) : Prop where
  product : FitsI128 (position.2 * bpsDenominator)
  drift : FitsI128 (drift total position)
  below : YieldEscrow.drift total position < threshold

lemma drifted_false {W : Type} {m m' : Machine W} {places : List (StrategyAllocation × ℤ)} :
    drifted threshold total places m = .ok (false, m') ↔
      (∀ place ∈ places, Still threshold total place) ∧ m' = m := by
  induction places with
  | nil => simp [drifted]
  | cons place rest ih =>
    obtain ⟨s, balance⟩ := place
    have hdrift : (if (s.weightBps : ℤ) ≤ (balance * bpsDenominator).tdiv total then
        (balance * bpsDenominator).tdiv total - s.weightBps
      else s.weightBps - (balance * bpsDenominator).tdiv total) = drift total (s, balance) := rfl
    rw [drifted, checked_bind_ok, checkedI128_bind_ok, hdrift, List.forall_mem_cons]
    split_ifs with hover
    · rw [Tx.pure_ok]
      constructor
      · rintro ⟨-, -, hfalse, -⟩
        cases hfalse
      · rintro ⟨⟨hstill, -⟩, -⟩
        exact absurd hover hstill.below.not_ge
    · rw [ih]
      constructor
      · rintro ⟨hproduct, hdrift, hrest, hm⟩
        exact ⟨⟨⟨hproduct, hdrift, not_le.mp hover⟩, hrest⟩, hm⟩
      · rintro ⟨⟨hstill, hrest⟩, hm⟩
        exact ⟨hstill.product, hstill.drift, hrest, hm⟩

section Rounding

variable {weight i : ℕ} {cut : ℤ}

/-- What rounding does to a target is below the threshold, in parts of the total: the first ones get
a unit for what they lose, if that does not go beyond 128 bits, and the others just lose it. -/
def Negligible (threshold total cut : ℤ) (i weight : ℕ) : Prop :=
  if i * bpsDenominator < cut then
    bpsDenominator - total * weight % bpsDenominator < threshold * total ∧
      total * weight - total * weight % bpsDenominator + bpsDenominator ≤ maxI128
  else total * weight % bpsDenominator + total ≤ threshold * total

/-- No target's rounding counts as drift. -/
def Rests (threshold total : ℤ) (strategies : List StrategyAllocation) : Prop :=
  ∀ (i : ℕ) (s : StrategyAllocation), strategies[i]? = some s →
    Negligible threshold total (cuts total bpsDenominator (weights strategies)).sum i s.weightBps

lemma drift_eq {s : StrategyAllocation} {balance off : ℤ} (htotal : 0 < total)
    (hnonneg : 0 ≤ balance * bpsDenominator)
    (hoff : balance * bpsDenominator = off + total * s.weightBps) :
    drift total (s, balance) = |off / total| := by
  have hcurrent : (balance * bpsDenominator).tdiv total = off / total + s.weightBps := by
    rw [Int.tdiv_eq_ediv_of_nonneg hnonneg, hoff, Int.add_mul_ediv_left _ _ htotal.ne']
  rw [drift, hcurrent]
  dsimp only
  split_ifs with hle
  · rw [abs_of_nonneg (by omega)]
    ring
  · rw [abs_of_neg (by omega)]
    ring

lemma still_iff {s : StrategyAllocation} (htotal : 0 < total)
    (hproduct : total * s.weightBps ≤ maxI128) :
    Still threshold total (s, (total * s.weightBps).tdiv bpsDenominator +
        if i * bpsDenominator < cut then 1 else 0) ↔
      Negligible threshold total cut i s.weightBps := by
  have hnonneg : 0 ≤ total * s.weightBps := by positivity
  have hdiv := Int.mul_ediv_add_emod (total * s.weightBps) bpsDenominator
  have hlow := Int.emod_nonneg (total * s.weightBps) (b := bpsDenominator) (by decide)
  have hhigh := Int.emod_lt_of_pos (total * s.weightBps) (b := bpsDenominator) (by decide)
  have hfloor : 0 ≤ total * s.weightBps / bpsDenominator := Int.ediv_nonneg hnonneg (by decide)
  rw [Int.tdiv_eq_ediv_of_nonneg hnonneg, Negligible]
  generalize total * s.weightBps % bpsDenominator = c at *
  split_ifs with hi
  · have hoff : (total * s.weightBps / bpsDenominator + 1) * bpsDenominator =
        (bpsDenominator - c) + total * s.weightBps := by linarith
    have hbalance : 0 ≤ (total * s.weightBps / bpsDenominator + 1) * bpsDenominator :=
      mul_nonneg (by omega) (by decide)
    have hdrift := drift_eq htotal hbalance hoff
    have hquotient : 0 ≤ (bpsDenominator - c) / total := Int.ediv_nonneg (by omega) htotal.le
    have hsmall : (bpsDenominator - c) / total ≤ bpsDenominator - c :=
      Int.ediv_le_self _ (by omega)
    rw [abs_of_nonneg hquotient] at hdrift
    have hbelow : drift total (s, total * s.weightBps / bpsDenominator + 1) < threshold ↔
        bpsDenominator - c < threshold * total := by
      rw [hdrift, Int.ediv_lt_iff_lt_mul htotal]
    have hmax : bpsDenominator ≤ maxI128 := by decide
    constructor
    · intro h
      have hfits := h.product.2
      dsimp only at hfits
      exact ⟨hbelow.mp h.below, by omega⟩
    · rintro ⟨hless, hfits⟩
      refine ⟨(fitsI128_of_nonneg hbalance).mpr ?_, ?_, hbelow.mpr hless⟩
      · omega
      · rw [hdrift, fitsI128_of_nonneg hquotient]
        omega
  · have hoff : (total * s.weightBps / bpsDenominator + 0) * bpsDenominator =
        -c + total * s.weightBps := by linarith
    have hbalance : 0 ≤ (total * s.weightBps / bpsDenominator + 0) * bpsDenominator :=
      mul_nonneg (by omega) (by decide)
    have hdrift := drift_eq htotal hbalance hoff
    have hquotient : -c / total ≤ 0 := Int.ediv_nonpos_of_nonpos_of_neg (by omega) htotal
    have hsmall : -c ≤ -c / total := by
      rw [Int.le_ediv_iff_mul_le htotal]
      nlinarith
    rw [abs_of_nonpos hquotient] at hdrift
    have hbelow : drift total (s, total * s.weightBps / bpsDenominator + 0) < threshold ↔
        c + total ≤ threshold * total := by
      have hceil : -(-c / total) < threshold ↔ -threshold + 1 ≤ -c / total := by omega
      rw [hdrift, hceil, Int.le_ediv_iff_mul_le htotal]
      constructor <;> intro h <;> linarith
    have hmax : bpsDenominator ≤ maxI128 := by decide
    constructor
    · exact fun h => hbelow.mp h.below
    · intro hless
      refine ⟨(fitsI128_of_nonneg hbalance).mpr ?_, ?_, hbelow.mpr hless⟩
      · omega
      · rw [hdrift, fitsI128_of_nonneg (by omega)]
        omega

end Rounding

section Trigger

variable {balances : List ℤ}

lemma checkRebalanceNeeded_honest :
    checkRebalanceNeeded (honest self) token m = .ok (false, m') ↔
      m.store.initialized = true ∧
      (m.store.emergencyVaultMode = true ∨ m.store.getStrategies.length ≤ 1 ∨
        (m.world.balances token m.store.getStrategies).sum ≤ maxI128 ∧
        (0 < (m.world.balances token m.store.getStrategies).sum →
          ∀ place ∈ m.store.getStrategies.zip (m.world.balances token m.store.getStrategies),
            Still m.store.getRebalanceThreshold
              (m.world.balances token m.store.getStrategies).sum place)) ∧ m' = m := by
  rw [checkRebalanceNeeded, requireInitialized_bind_ok, view_bind, view_bind]
  apply and_congr_right
  intro _
  split_ifs with hidle
  · rw [Tx.pure_ok]
    constructor
    · rintro ⟨-, hm⟩
      exact ⟨by tauto, hm⟩
    · rintro ⟨-, hm⟩
      exact ⟨rfl, hm⟩
  · rw [view_bind, Tx.bind_iff fun _ _ => strategyBalances_honest]
    dsimp only
    rw [not_or] at hidle
    split_ifs with hnone
    · rw [Tx.pure_ok]
      constructor
      · rintro ⟨hmax, -, hm⟩
        exact ⟨Or.inr (Or.inr ⟨hmax, fun hpos => absurd hpos hnone.not_gt⟩), hm⟩
      · rintro ⟨hemergency | hfew | ⟨hmax, -⟩, hm⟩
        · exact absurd hemergency hidle.1
        · exact absurd hfew hidle.2
        · exact ⟨hmax, rfl, hm⟩
    · rw [drifted_false]
      constructor
      · rintro ⟨hmax, hstill, hm⟩
        exact ⟨Or.inr (Or.inr ⟨hmax, fun _ => hstill⟩), hm⟩
      · rintro ⟨hemergency | hfew | ⟨hmax, hstill⟩, hm⟩
        · exact absurd hemergency hidle.1
        · exact absurd hfew hidle.2
        · exact ⟨hmax, hstill (not_le.mp hnone), hm⟩

lemma still_targets (htotal : 0 < total) (hvalid : ValidPortfolio strategies)
    (hdivisible : Divisible total strategies) :
    (∀ place ∈ strategies.zip (targets total strategies), Still threshold total place) ↔
      Rests threshold total strategies := by
  have hsum := sum_weights hvalid
  have hpos : 0 < (weights strategies).sum := by
    rw [hsum]
    decide
  have hgoal (i : ℕ) (s : StrategyAllocation) (hs : strategies[i]? = some s) :
      (targets total strategies)[i]? = some ((total * s.weightBps).tdiv bpsDenominator +
        if i * bpsDenominator < (cuts total bpsDenominator (weights strategies)).sum then 1 else 0) := by
    have hweight : (weights strategies)[i]? = some (s.weightBps : ℤ) := by
      rw [weights, List.getElem?_map, hs, Option.map_some]
    rw [targets, getElem?_apportioned total i hpos, hweight, Option.map_some, hsum]
  have hproduct (i : ℕ) (s : StrategyAllocation) (hs : strategies[i]? = some s) :
      total * s.weightBps ≤ maxI128 :=
    (hdivisible.products _ (List.mem_map_of_mem (List.mem_of_getElem? hs))).2
  constructor
  · intro h i s hs
    rw [← still_iff htotal (hproduct i s hs)]
    apply h
    exact List.mem_iff_getElem?.mpr ⟨i, List.getElem?_zip_eq_some.mpr ⟨hs, hgoal i s hs⟩⟩
  · intro h place hplace
    obtain ⟨s, goal⟩ := place
    obtain ⟨i, hi⟩ := List.mem_iff_getElem?.mp hplace
    obtain ⟨hs, hfound⟩ := List.getElem?_zip_eq_some.mp hi
    rw [hgoal i s hs] at hfound
    obtain rfl := Option.some.inj hfound
    exact (still_iff htotal (hproduct i s hs)).mpr (h i s hs)

/-- After a rebalancing the trigger is off exactly when nothing that the targets' rounding leaves counts
as drift. -/
theorem rebalance_settles_iff (owner token : Address) (env : Env) (m m' : Machine Pools)
    (hvalid : ValidPortfolio m.store.getStrategies)
    (h : rebalance (honest owner) env token m = .ok ((), m')) :
    (∃ m'', checkRebalanceNeeded (honest owner) token m' = .ok (false, m'')) ↔
      (1 < m.store.getStrategies.length →
        0 < (m.world.balances token m.store.getStrategies).sum →
        Rests m.store.getRebalanceThreshold (m.world.balances token m.store.getStrategies).sum
          m.store.getStrategies) := by
  simp only [checkRebalanceNeeded_honest]
  obtain ⟨hinit, hnormal, ⟨hfew, rfl⟩ | ⟨hmany, r, m₁, hread, h⟩⟩ := (rebalance_ok hvalid).mp h
  · exact ⟨fun _ hmany => absurd hmany hfew.not_gt, fun _ => ⟨m', hinit, Or.inr (Or.inl hfew), rfl⟩⟩
  · obtain ⟨hmax, rfl, rfl⟩ := strategyBalances_honest.mp hread
    rcases h with ⟨hnone, rfl⟩ | ⟨hpos, h⟩
    · exact ⟨fun _ _ hpos => absurd hpos hnone.not_gt, fun _ =>
        ⟨m', hinit, Or.inr (Or.inr ⟨hmax, fun hpos => absurd hpos hnone.not_gt⟩), rfl⟩⟩
    · obtain ⟨hbalances, -⟩ := h.outcome hvalid
      have hstore := h.store
      have hstrategies : m'.store.getStrategies = m₁.store.getStrategies := by
        rw [hstore]
        rfl
      have hthreshold : m'.store.getRebalanceThreshold = m₁.store.getRebalanceThreshold := by
        rw [hstore]
        rfl
      have hemergency : m'.store.emergencyVaultMode = false := by rwa [hstore]
      have hstarted : m'.store.initialized = true := by rwa [hstore]
      rw [hstrategies, hthreshold, hbalances, sum_targets hpos.le hvalid,
        still_targets hpos hvalid h.divisible]
      constructor
      · rintro ⟨_, -, halarm | hfew | ⟨-, hrests⟩, -⟩ _ _
        · rw [hemergency] at halarm
          cases halarm
        · exact absurd hmany hfew.not_gt
        · exact hrests hpos
      · intro hrests
        exact ⟨m', hstarted, Or.inr (Or.inr ⟨hmax, fun _ => hrests hmany hpos⟩), rfl⟩

end Trigger

section Examples

def lopsided (threshold amount : ℕ) : List (Move Pools) :=
  [.call signed (.initialise ⟨1⟩ ⟨6⟩), .call signed (.setStrategies thirds),
    .call signed (.setRebalanceThreshold threshold), .outside (Pools.accrue ⟨6⟩ ⟨9⟩ amount)]

/-- What the check says, of a rebalanced contract. -/
def neededAgain (m : Machine Pools) : Option Bool :=
  (checkRebalanceNeeded (honest ⟨0⟩) ⟨9⟩ (Tx.commit (rebalance (honest ⟨0⟩) signed ⟨9⟩) m)).toOption.map
    Prod.fst

theorem rebalance_settles_iff_lopsided :
    ∃ m', rebalance (honest ⟨0⟩) signed ⟨9⟩ (after (honest ⟨0⟩) tenth (lopsided 100 1000001)) =
        .ok ((), m') ∧
      ((∃ m'', checkRebalanceNeeded (honest ⟨0⟩) ⟨9⟩ m' = .ok (false, m'')) ↔
        (1 < (after (honest ⟨0⟩) tenth (lopsided 100 1000001)).store.getStrategies.length →
          0 < ((after (honest ⟨0⟩) tenth (lopsided 100 1000001)).world.balances ⟨9⟩
            (after (honest ⟨0⟩) tenth (lopsided 100 1000001)).store.getStrategies).sum →
          Rests (after (honest ⟨0⟩) tenth (lopsided 100 1000001)).store.getRebalanceThreshold
            ((after (honest ⟨0⟩) tenth (lopsided 100 1000001)).world.balances ⟨9⟩
              (after (honest ⟨0⟩) tenth (lopsided 100 1000001)).store.getStrategies).sum
            (after (honest ⟨0⟩) tenth (lopsided 100 1000001)).store.getStrategies)) := by
  have hok : Tx.succeeds (rebalance (honest ⟨0⟩) signed ⟨9⟩)
      (after (honest ⟨0⟩) tenth (lopsided 100 1000001)) = true := by decide +kernel
  have hvalid := (after_portfolio (honest ⟨0⟩) tenth (lopsided 100 1000001)).valid (by decide +kernel)
  obtain ⟨m', h⟩ := Tx.succeeds_unit.mp hok
  exact ⟨m', h, rebalance_settles_iff ⟨0⟩ ⟨9⟩ signed _ m' hvalid h⟩

/-- A threshold of one basis point is accepted, and what two strategies lose of a million is one; three
units are too few for any threshold below a third. -/
theorem rebalance_needed_again :
    (Tx.succeeds (rebalance (honest ⟨0⟩) signed ⟨9⟩)
        (after (honest ⟨0⟩) tenth (lopsided 1 1000001)) = true ∧
      (after (honest ⟨0⟩) tenth (lopsided 1 1000001)).store.getRebalanceThreshold = 1 ∧
      neededAgain (after (honest ⟨0⟩) tenth (lopsided 1 1000001)) = some true) ∧
    Tx.succeeds (rebalance (honest ⟨0⟩) signed ⟨9⟩)
        (after (honest ⟨0⟩) tenth (lopsided defaultRebalanceThreshold 3)) = true ∧
      neededAgain (after (honest ⟨0⟩) tenth (lopsided defaultRebalanceThreshold 3)) = some true := by
  decide +kernel

end Examples

end StellarTags.YieldEscrow
