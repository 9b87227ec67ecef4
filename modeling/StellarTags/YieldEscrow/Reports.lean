import StellarTags.YieldEscrow.Redemption

/-! Strategies that report any balance and take any order, and what a redemption asks of them. -/

namespace StellarTags.YieldEscrow

open Library.Transactions Library.Integers Library.Apportionment Soroban

/-- What each strategy reports of each token, and the orders given so far. -/
structure Reports where
  balance : Address × Address → I128
  withdrawn : List (Address × ℤ) := []
  deposited : List (Address × ℤ) := []

def reporting (self : Address) : Deployment Reports where
  self := self
  deposit strategy _ _ amount w := some { w with deposited := w.deposited ++ [(strategy, amount)] }
  withdraw strategy _ _ amount w := some { w with withdrawn := w.withdrawn ++ [(strategy, amount)] }
  harvest _ _ _ w := some (⟨0, fitsI128_zero⟩, w)
  yieldRateBps _ _ w := some (⟨0, Nat.zero_le _⟩, w)
  getBalance strategy token w := some (w.balance (strategy, token), w)
  balance _ _ w := some (⟨0, fitsI128_zero⟩, w)
  transfer _ _ _ _ w := some w

def Reports.balances (w : Reports) (token : Address) (strategies : List StrategyAllocation) :
    List ℤ := strategies.map fun s => (w.balance (s.address, token)).val

def Machine.withdrawing (m : Machine Reports) (asked : List (Address × ℤ)) : Machine Reports :=
  { m with world := { m.world with withdrawn := m.world.withdrawn ++ asked } }

variable {self token : Address} {strategies : List StrategyAllocation} {m m' : Machine Reports}
  {record : Escrow}

section Orders

lemma getBalance_reporting {strategy : Address} {k : ℤ} :
    getBalance (reporting self) strategy token m = .ok (k, m') ↔
      True ∧ k = (m.world.balance (strategy, token)).val ∧ m' = m := by
  simp only [getBalance, Tx.bind_ok, ask_ok, Tx.pure_ok, reporting]
  constructor
  · rintro ⟨_, _, ⟨_, h, rfl⟩, rfl, rfl⟩
    obtain ⟨rfl, rfl⟩ := Prod.mk.inj (Option.some.inj h)
    exact ⟨trivial, rfl, rfl⟩
  · rintro ⟨-, rfl, rfl⟩
    exact ⟨_, _, ⟨_, rfl, rfl⟩, rfl, rfl⟩

lemma strategyBalances_reporting {r : List ℤ × ℤ} :
    strategyBalances (reporting self) token strategies m = .ok (r, m') ↔
      AddsUp 0 (m.world.balances token strategies) ∧
        r = (m.world.balances token strategies, (m.world.balances token strategies).sum) ∧
        m' = m := by
  rw [strategyBalances, fold_adds (C := fun _ => True)
    fun s => (m.world.balance (s.address, token)).val]
  · simp [Reports.balances]
  · intro found s r m'
    simp only [Tx.bind_iff fun _ _ => getBalance_reporting, checked_bind_ok, Tx.pure_ok]

lemma withdraw_reporting {strategy : Address} {n : ℤ} {u : Unit} :
    Tx.whenever (0 < n) (withdraw (reporting self) strategy token n) m = .ok (u, m') ↔
      m' = m.withdrawing ([(strategy, n)].filter fun ask => 0 < ask.2) := by
  rw [Tx.whenever_ok, withdraw, order_ok]
  by_cases hn : 0 < n
  · simp [hn, reporting, Machine.withdrawing]
  · simp [hn, Machine.withdrawing]

lemma harvest_reporting {strategy : Address} {k : ℤ} :
    harvest (reporting self) strategy token m = .ok (k, m') ↔ True ∧ k = 0 ∧ m' = m := by
  simp only [harvest, Tx.bind_ok, ask_ok, Tx.pure_ok, reporting]
  constructor
  · rintro ⟨_, _, ⟨_, h, rfl⟩, rfl, rfl⟩
    obtain ⟨rfl, rfl⟩ := Prod.mk.inj (Option.some.inj h)
    exact ⟨trivial, rfl, rfl⟩
  · rintro ⟨-, rfl, rfl⟩
    exact ⟨_, _, ⟨_, rfl, rfl⟩, rfl, rfl⟩

lemma redeemShares_reporting (self token : Address) (m m' : Machine Reports)
    {shares : List ((StrategyAllocation × ℤ) × ℕ)} {remainder k : ℤ}
    (hshares : ∀ s ∈ shares, FitsI128 s.1.2) :
    redeemShares (reporting self) token remainder shares m = .ok (k, m') ↔
      (∀ s ∈ shares, FitsI128 (drawn remainder s).2) ∧ k = 0 ∧
        m' = m.withdrawing ((shares.map (drawn remainder)).filter fun ask => 0 < ask.2) := by
  rw [redeemShares]
  induction shares generalizing m with
  | nil => simp [Machine.withdrawing]
  | cons share rest ih =>
    obtain ⟨hshare, hrest⟩ := List.forall_mem_cons.mp hshares
    have hcons : (share :: rest).map (drawn remainder) =
        [drawn remainder share] ++ rest.map (drawn remainder) := rfl
    rw [Tx.fold_cons, List.forall_mem_cons, hcons, List.filter_append]
    simp only [topUp_bind_ok hshare, Tx.bind_unit_ok, withdraw_reporting,
      Tx.bind_iff fun _ _ => harvest_reporting, Tx.reject_ok, checked_ok, true_and, zero_add]
    constructor
    · rintro ⟨_, _, ⟨hfits, _, rfl, _, ⟨-, rfl⟩, -, rfl, rfl⟩, h⟩
      obtain ⟨htail, hk, rfl⟩ := (ih _ hrest).mp h
      refine ⟨⟨hfits, htail⟩, hk, ?_⟩
      simp only [Machine.withdrawing, List.append_assoc]
      rfl
    · rintro ⟨⟨hfits, htail⟩, hk, rfl⟩
      refine ⟨_, _, ⟨hfits, _, rfl, _, ⟨lt_irrefl 0, rfl⟩, fitsI128_zero, rfl, rfl⟩,
        (ih _ hrest).mpr ⟨htail, hk, ?_⟩⟩
      simp only [Machine.withdrawing, List.append_assoc]
      rfl

end Orders

section Positions

variable {amount whole principal : ℤ} {parts : List ℤ}

lemma fits_floors (hw : 0 < whole) (hproducts : ∀ part ∈ parts, FitsI128 (amount * part)) :
    ∀ share ∈ floors amount whole parts, FitsI128 share := by
  intro share hshare
  obtain ⟨part, hpart, rfl⟩ := List.mem_map.mp hshare
  obtain ⟨hlow, hhigh⟩ := hproducts part hpart
  have habs := Int.natAbs_tdiv_le_natAbs (amount * part) whole
  have hpos : 0 ≤ amount * part → 0 ≤ (amount * part).tdiv whole := (Int.tdiv_nonneg · hw.le)
  have hneg : amount * part ≤ 0 → (amount * part).tdiv whole ≤ 0 := by
    intro h
    have hflipped := Int.tdiv_nonneg (neg_nonneg.mpr h) hw.le
    rwa [Int.neg_tdiv, neg_nonneg] at hflipped
  simp only [FitsI128, minI128, maxI128] at hlow hhigh ⊢
  constructor <;> omega

/-- The shares of a position, as the code first has them. -/
def spread (principal : ℤ) (balances : List ℤ) (strategies : List StrategyAllocation) : List ℤ :=
  if 0 < balances.sum then floors principal balances.sum balances
  else floors principal bpsDenominator (weights strategies)

/-- What is asked of the strategies: their shares, topped up, but for those of nothing. -/
def asks (principal : ℤ) (balances : List ℤ) (strategies : List StrategyAllocation) :
    List (Address × ℤ) :=
  ((strategies.map StrategyAllocation.address).zip (topped
    (principal - (spread principal balances strategies).sum) (spread principal balances strategies)
    0)).filter fun ask => 0 < ask.2

lemma redemption_reporting {r : List ℤ × ℤ} (principal : ℤ) (balances : List ℤ) :
    redemption principal balances.sum strategies balances m = .ok (r, m') ↔
      ((∀ part ∈ if 0 < balances.sum then balances else weights strategies,
        FitsI128 (principal * part)) ∧ AddsUp 0 (spread principal balances strategies)) ∧
      r = (spread principal balances strategies, (spread principal balances strategies).sum) ∧
      m' = m := by
  rw [redemption, spread]
  rw [and_assoc]
  split_ifs <;> exact allocate_ok

lemma redeemPosition_reporting (self : Address) (record : Escrow) (m m' : Machine Reports)
    (r : ℤ × ℤ) {balances : List ℤ}
    (hbalances : balances = m.world.balances record.token m.store.getStrategies) :
    redeemPosition (reporting self) record m = .ok (r, m') ↔ AddsUp 0 balances ∧
      (∀ part ∈ if 0 < balances.sum then balances else weights m.store.getStrategies,
        FitsI128 (record.principal * part)) ∧
      AddsUp 0 (spread record.principal balances m.store.getStrategies) ∧
      FitsI128 (record.principal - (spread record.principal balances m.store.getStrategies).sum) ∧
      (∀ share ∈ topped
        (record.principal - (spread record.principal balances m.store.getStrategies).sum)
        (spread record.principal balances m.store.getStrategies) 0, FitsI128 share) ∧
      r = (record.principal, 0) ∧
      m' = m.withdrawing (asks record.principal balances m.store.getStrategies) := by
  have hlength : (spread record.principal balances m.store.getStrategies).length =
      m.store.getStrategies.length := by
    rw [spread]
    split_ifs <;> simp [hbalances, Reports.balances, weights]
  rw [redeemPosition, view_bind]
  rw [Tx.bind_iff fun _ _ => strategyBalances_reporting, ← hbalances]
  apply and_congr_right
  intro _
  dsimp only
  rw [Tx.bind_iff fun _ _ => redemption_reporting record.principal balances, and_assoc]
  apply and_congr_right
  intro hproducts
  apply and_congr_right
  intro _
  have hfits : ∀ share ∈ spread record.principal balances m.store.getStrategies, FitsI128 share := by
    rw [spread]
    split_ifs at hproducts ⊢ with hpos
    · exact fits_floors hpos hproducts
    · exact fits_floors (by decide) hproducts
  have hshares : ∀ s ∈ (m.store.getStrategies.zip
      (spread record.principal balances m.store.getStrategies)).zipIdx, FitsI128 s.1.2 := by
    intro s hs
    exact hfits _ (List.of_mem_zip (List.fst_mem_of_mem_zipIdx hs)).2
  rw [asks]
  generalize spread record.principal balances m.store.getStrategies = shares at *
  have hmap := map_drawn m.store.getStrategies shares (record.principal - shares.sum) 0
  have hdrawn : (∀ s ∈ (m.store.getStrategies.zip shares).zipIdx,
      FitsI128 (drawn (record.principal - shares.sum) s).2) ↔
        ∀ share ∈ topped (record.principal - shares.sum) shares 0, FitsI128 share := by
    have hzip := List.map_snd_zip (show (topped (record.principal - shares.sum) shares 0).length ≤
      (m.store.getStrategies.map StrategyAllocation.address).length by simp [hlength])
    rw [← hzip, ← hmap, List.map_map]
    simp only [List.forall_mem_map, Function.comp_apply]
  dsimp only
  rw [checkedI128_bind_ok]
  apply and_congr_right
  intro _
  simp only [Tx.bind_ok, redeemShares_reporting self record.token m _ hshares, Tx.pure_ok, hmap,
    hdrawn]
  constructor
  · rintro ⟨_, _, ⟨hfits, rfl, rfl⟩, rfl, rfl⟩
    exact ⟨hfits, rfl, rfl⟩
  · rintro ⟨hfits, rfl, rfl⟩
    exact ⟨_, _, ⟨hfits, rfl, rfl⟩, rfl, rfl⟩

end Positions

section Feasibility

variable {principal : ℤ} {balances : List ℤ}

/-- A redemption goes through where strategies take every order, and asks them for the principal, none
of them for more than it reports. -/
def Feasible (self : Address) (record : Escrow) (m : Machine Reports) : Prop :=
  ∃ r m' asked, redeemPosition (reporting self) record m = .ok (r, m') ∧
    m'.world.withdrawn = m.world.withdrawn ++ asked ∧
    (asked.map Prod.snd).sum = record.principal ∧
    ∀ ask ∈ asked, ask.2 ≤ (m.world.balance (ask.1, record.token)).val

/-- The amounts can be worked out, and nothing is asked of a strategy that reports nothing. -/
structure Redeemable (principal : ℤ) (balances : List ℤ) : Prop where
  nonneg : 0 ≤ principal
  total : AddsUp 0 balances
  products : ∀ balance ∈ balances, FitsI128 (principal * balance)
  cut : 0 < principal → 0 ≤ (cuts principal balances.sum balances).sum
  idle : 0 < principal → ∀ (i : ℕ) (balance : ℤ), balances[i]? = some balance → balance ≤ 0 →
    Unasked principal balances.sum (cuts principal balances.sum balances).sum i balance

lemma feasible_iff_asks (hbalances : balances = m.world.balances record.token m.store.getStrategies) :
    Feasible self record m ↔
      (∃ r m', redeemPosition (reporting self) record m = .ok (r, m')) ∧
      ((asks record.principal balances m.store.getStrategies).map Prod.snd).sum = record.principal ∧
      ∀ ask ∈ asks record.principal balances m.store.getStrategies,
        ask.2 ≤ (m.world.balance (ask.1, record.token)).val := by
  constructor
  · rintro ⟨r, m', asked, hok, hasked, hsum, hwithin⟩
    obtain ⟨-, -, -, -, -, -, rfl⟩ := (redeemPosition_reporting self record m m' r hbalances).mp hok
    obtain rfl := List.append_cancel_left hasked
    exact ⟨⟨r, _, hok⟩, hsum, hwithin⟩
  · rintro ⟨⟨r, m', hok⟩, hsum, hwithin⟩
    have hm := (redeemPosition_reporting self record m m' r hbalances).mp hok
    exact ⟨r, m', _, hok, by rw [hm.2.2.2.2.2.2]; rfl, hsum, hwithin⟩

lemma map_asks (principal : ℤ) (hlength : balances.length = strategies.length)
    (hpos : 0 < balances.sum) : (asks principal balances strategies).map Prod.snd =
      (apportioned principal balances).filter (0 < ·) := by
  have hzip := List.map_snd_zip (show (apportioned principal balances).length ≤
    (strategies.map StrategyAllocation.address).length by simp [length_apportioned, hlength])
  rw [asks, spread, if_pos hpos, ← apportioned]
  nth_rewrite 2 [← hzip]
  rw [List.filter_map]
  rfl

lemma affordable_iff_asks {w : Reports} (principal : ℤ) (hbalances : balances = w.balances token strategies)
    (hpos : 0 < balances.sum) : Affordable principal balances ↔
      ((asks principal balances strategies).map Prod.snd).sum = principal ∧
        ∀ ask ∈ asks principal balances strategies, ask.2 ≤ (w.balance (ask.1, token)).val := by
  have hlength : balances.length = strategies.length := by simp [hbalances, Reports.balances]
  rw [map_asks principal hlength hpos]
  have hpart (i : ℕ) (part : ℤ) : balances[i]? = some part ↔
      ∃ s, strategies[i]? = some s ∧ (w.balance (s.address, token)).val = part := by
    rw [hbalances, Reports.balances, List.getElem?_map, Option.map_eq_some_iff]
  have hmem (ask : Address × ℤ) : ask ∈ asks principal balances strategies ↔
      (∃ (i : ℕ) (s : StrategyAllocation), strategies[i]? = some s ∧ s.address = ask.1 ∧
        (apportioned principal balances)[i]? = some ask.2) ∧ 0 < ask.2 := by
    rw [asks, spread, if_pos hpos, ← apportioned, List.mem_filter, List.mem_iff_getElem?]
    refine and_congr (exists_congr fun i => ?_) (by simp)
    rw [List.getElem?_zip_eq_some, List.getElem?_map, Option.map_eq_some_iff]
    constructor
    · rintro ⟨⟨s, hs, haddress⟩, hshare⟩
      exact ⟨s, hs, haddress, hshare⟩
    · rintro ⟨s, hs, haddress, hshare⟩
      exact ⟨⟨s, hs, haddress⟩, hshare⟩
  constructor
  · rintro ⟨hsum, hwithin⟩
    refine ⟨hsum, fun ask hask => ?_⟩
    obtain ⟨⟨i, s, hs, haddress, hshare⟩, hask⟩ := (hmem ask).mp hask
    rw [← haddress]
    exact hwithin i _ _ ((hpart i _).mpr ⟨s, hs, rfl⟩) hshare hask
  · rintro ⟨hsum, hwithin⟩
    refine ⟨hsum, fun i part share hi hshare hask => ?_⟩
    obtain ⟨s, hs, rfl⟩ := (hpart i part).mp hi
    exact hwithin (s.address, share) ((hmem _).mpr ⟨⟨i, s, hs, rfl, hshare⟩, hask⟩)

lemma spread_zero (balances : List ℤ) (strategies : List StrategyAllocation) :
    ∀ share ∈ spread 0 balances strategies, share = 0 := by
  intro share hshare
  rw [spread] at hshare
  split_ifs at hshare <;>
  · obtain ⟨part, -, rfl⟩ := List.mem_map.mp hshare
    simp

lemma asks_pos : ∀ ask ∈ asks principal balances strategies, 0 < ask.2 := by
  intro ask hask
  simpa using (List.mem_filter.mp hask).2

lemma feasible_zero (hbalances : balances = m.world.balances record.token m.store.getStrategies)
    (hzero : record.principal = 0) : Feasible self record m ↔ AddsUp 0 balances := by
  have hspread := spread_zero balances m.store.getStrategies
  have hsum : (spread 0 balances m.store.getStrategies).sum = 0 := List.sum_eq_zero hspread
  have hadds : AddsUp 0 (spread 0 balances m.store.getStrategies) := by
    rw [addsUp_of_nonneg le_rfl (by decide) fun share hshare => (hspread share hshare).ge, hsum]
    decide
  have htopped : topped (0 - (spread 0 balances m.store.getStrategies).sum)
      (spread 0 balances m.store.getStrategies) 0 = spread 0 balances m.store.getStrategies := by
    rw [hsum, sub_self, topped_zero]
  have hnone : asks 0 balances m.store.getStrategies = [] := by
    rw [asks, htopped, List.filter_eq_nil_iff]
    intro ask hask
    simp [hspread _ (List.of_mem_zip hask).2]
  have hfits : ∀ share ∈ topped (0 - 0) (spread 0 balances m.store.getStrategies) 0,
      FitsI128 share := by
    intro share hshare
    rw [sub_self, topped_zero] at hshare
    rw [hspread share hshare]
    exact fitsI128_zero
  rw [feasible_iff_asks hbalances, hzero, hnone]
  simp only [redeemPosition_reporting self record m _ _ hbalances, hzero, hnone, hsum, zero_mul]
  constructor
  · rintro ⟨⟨_, _, htotal, -⟩, -⟩
    exact htotal
  · intro htotal
    exact ⟨⟨_, _, htotal, fun _ _ => fitsI128_zero, hadds, fitsI128_zero, hfits, rfl, rfl⟩, rfl,
      by simp⟩

lemma feasible_pos (hbalances : balances = m.world.balances record.token m.store.getStrategies)
    (hfew : m.store.getStrategies.length ≤ 4) (hpos : 0 < record.principal)
    (hle : record.principal ≤ balances.sum) : Feasible self record m ↔
      (AddsUp 0 balances ∧ ∀ balance ∈ balances, FitsI128 (record.principal * balance)) ∧
        Affordable record.principal balances := by
  have hw : 0 < balances.sum := hpos.trans_le hle
  have hlength : balances.length ≤ 4 := by simpa [hbalances, Reports.balances] using hfew
  have hspread : spread record.principal balances m.store.getStrategies =
      floors record.principal balances.sum balances := if_pos hw
  rw [feasible_iff_asks hbalances, ← affordable_iff_asks record.principal hbalances hw]
  simp only [redeemPosition_reporting self record m _ _ hbalances, if_pos hw, hspread]
  apply and_congr_left
  intro hpays
  constructor
  · rintro ⟨_, _, htotal, hproducts, -⟩
    exact ⟨htotal, hproducts⟩
  · rintro ⟨htotal, hproducts⟩
    refine ⟨_, _, htotal, hproducts, addsUp_floors hpos hle hlength htotal hproducts,
      fits_remainder hpos hle hlength, fun share hshare => ?_, rfl, rfl⟩
    obtain ⟨i, hi⟩ := List.mem_iff_getElem?.mp hshare
    rw [← apportioned] at hi
    have hshare := hi
    rw [getElem?_apportioned record.principal i hw] at hshare
    obtain ⟨part, hpart, rfl⟩ := Option.map_eq_some_iff.mp hshare
    have hwithin := hpays.within i part _ hpart hi
    obtain ⟨hlow, hhigh⟩ := fits_floors hw hproducts _
      (List.mem_map_of_mem (List.mem_of_getElem? hpart))
    obtain ⟨-, hmax⟩ := hproducts part (List.mem_of_getElem? hpart)
    have hmore (h : 0 < part) : part ≤ record.principal * part := le_mul_of_one_le_left h.le hpos
    simp only [FitsI128, minI128, maxI128] at hlow hhigh hmax ⊢
    split_ifs at hwithin ⊢ <;> constructor <;> omega

/-- What a redemption asks adds up to the principal and is within the balances exactly when nothing is
asked of the strategies that have nothing, of all that rounding leaves over for the first ones. -/
theorem redemption_feasible_iff (self : Address) (record : Escrow) (m : Machine Reports)
    (hvalid : ValidPortfolio m.store.getStrategies)
    (hle : record.principal ≤ (m.world.balances record.token m.store.getStrategies).sum) :
    Feasible self record m ↔
      Redeemable record.principal (m.world.balances record.token m.store.getStrategies) := by
  generalize hbalances : m.world.balances record.token m.store.getStrategies = balances at hle ⊢
  rcases lt_trichotomy record.principal 0 with hneg | hzero | hpos
  · constructor
    · rw [feasible_iff_asks hbalances.symm]
      rintro ⟨-, hsum, -⟩
      have hnonneg : 0 ≤ ((asks record.principal balances m.store.getStrategies).map Prod.snd).sum := by
        apply List.sum_nonneg
        simp only [List.forall_mem_map]
        exact fun ask hask => (asks_pos ask hask).le
      omega
    · intro h
      exact absurd h.nonneg hneg.not_ge
  · rw [feasible_zero hbalances.symm hzero, hzero]
    constructor
    · intro htotal
      refine ⟨le_rfl, htotal, fun balance _ => ?_, fun h => absurd h (lt_irrefl 0),
        fun h => absurd h (lt_irrefl 0)⟩
      rw [zero_mul]
      exact fitsI128_zero
    · exact Redeemable.total
  · rw [feasible_pos hbalances.symm hvalid.few hpos hle, affordable_iff hpos hle]
    constructor
    · rintro ⟨⟨htotal, hproducts⟩, hcut, hidle⟩
      exact ⟨hpos.le, htotal, hproducts, fun _ => hcut, fun _ => hidle⟩
    · intro h
      exact ⟨⟨h.total, h.products⟩, h.cut hpos, h.idle hpos⟩

end Feasibility

section Examples

def position : Escrow := ⟨⟨2⟩, ⟨3⟩, ⟨9⟩, 1001, 10, 5000, 0, false, false⟩

def thirds : List StrategyAllocation := [⟨⟨6⟩, 3334⟩, ⟨⟨7⟩, 3333⟩, ⟨⟨8⟩, 3333⟩]

lemma thirds_valid : ValidPortfolio thirds where
  nonempty := by decide
  few := by decide
  distinct := by decide
  positive := by decide
  total := by decide

def reported (first second third : I128) : Machine Reports where
  store := { initialized := true, strategies := some thirds }
  transfers := []
  world := { balance := fun slot => if slot.1 = ⟨6⟩ then first else if slot.1 = ⟨7⟩ then second else third }

theorem redemption_feasible_iff_last :
    Feasible ⟨0⟩ position (reported ⟨1001, by decide⟩ ⟨1001, by decide⟩ ⟨0, by decide⟩) ↔
      Redeemable 1001 [1001, 1001, 0] :=
  redemption_feasible_iff ⟨0⟩ position _ thirds_valid (by decide)

/-- The strategies have twice the principal, and the empty one is asked for a unit. -/
theorem empty_strategy_asked :
    ValidPortfolio thirds ∧
    1001 ≤ ((reported ⟨0, by decide⟩ ⟨1001, by decide⟩ ⟨1001, by decide⟩).world.balances ⟨9⟩ thirds).sum ∧
    ¬ Feasible ⟨0⟩ position (reported ⟨0, by decide⟩ ⟨1001, by decide⟩ ⟨1001, by decide⟩) := by
  refine ⟨thirds_valid, by decide, ?_⟩
  rw [feasible_iff_asks rfl]
  rintro ⟨-, -, hwithin⟩
  have hasked := hwithin (⟨6⟩, 1) (by decide)
  exact absurd hasked (by decide)

end Examples

end StellarTags.YieldEscrow
