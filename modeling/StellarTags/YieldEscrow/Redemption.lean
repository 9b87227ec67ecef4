import StellarTags.YieldEscrow.Pools
import StellarTags.YieldEscrow.Sums

/-! What a position gets back from honest strategies. -/

namespace StellarTags.YieldEscrow

open Library.Transactions Library.Integers Library.Apportionment Soroban

variable {self token : Address} {strategies : List StrategyAllocation} {m m' : Machine Pools} {n : ℤ}

def Pools.balances (w : Pools) (token : Address) (strategies : List StrategyAllocation) : List ℤ :=
  strategies.map fun s => (w.balance (s.address, token) : ℤ)

lemma balances_nonneg (w : Pools) (token : Address) (strategies : List StrategyAllocation) :
    ∀ b ∈ w.balances token strategies, 0 ≤ b := by
  intro b hb
  obtain ⟨s, -, rfl⟩ := List.mem_map.mp hb
  positivity

lemma strategyBalances_honest {r : List ℤ × ℤ} :
    strategyBalances (honest self) token strategies m = .ok (r, m') ↔
      (m.world.balances token strategies).sum ≤ maxI128 ∧
        r = (m.world.balances token strategies, (m.world.balances token strategies).sum) ∧
        m' = m := by
  have hnonneg := balances_nonneg m.world token strategies
  rw [strategyBalances, fold_adds (C := fun s => (m.world.balance (s.address, token) : ℤ) ≤ maxI128)
    fun s => (m.world.balance (s.address, token) : ℤ)]
  · rw [← Pools.balances, addsUp_of_nonneg le_rfl (by decide) hnonneg, zero_add, List.nil_append,
      and_iff_right_of_imp]
    rintro ⟨hsum, -⟩ s hs
    exact (List.single_le_sum hnonneg _ (List.mem_map_of_mem hs)).trans hsum
  · intro found s r m'
    simp only [Tx.bind_iff fun _ _ => getBalance_honest, checked_bind_ok, Tx.pure_ok]

lemma allocate_honest {amount whole : ℤ} {parts : List ℤ} {r : List ℤ × ℤ} (ha : 0 ≤ amount)
    (hw : 0 ≤ whole) (hparts : ∀ part ∈ parts, 0 ≤ part) :
    allocate amount whole parts m = .ok (r, m') ↔ (∀ part ∈ parts, amount * part ≤ maxI128) ∧
      (floors amount whole parts).sum ≤ maxI128 ∧
      r = (floors amount whole parts, (floors amount whole parts).sum) ∧ m' = m := by
  rw [allocate_ok, addsUp_of_nonneg le_rfl (by decide) (floors_nonneg ha hw hparts), zero_add]
  apply and_congr_left
  intro _
  apply forall₂_congr
  intro part hpart
  exact fitsI128_of_nonneg (mul_nonneg ha (hparts part hpart))

/-- What is withdrawn for a share, and from whom. -/
def drawn (remainder : ℤ) (share : (StrategyAllocation × ℤ) × ℕ) : Address × ℤ :=
  (share.1.1.address, if (share.2 : ℤ) < remainder then share.1.2 + 1 else share.1.2)

lemma topUp_bind_ok {W β : Type} {m m' : Machine W} {r : β} {j : ℤ → Tx (Machine W) Error β}
    {remainder : ℤ} {share : (StrategyAllocation × ℤ) × ℕ} (hshare : FitsI128 share.1.2) :
    (topUp remainder share.1.2 share.2 >>= j) m = .ok (r, m') ↔
      FitsI128 (drawn remainder share).2 ∧ j (drawn remainder share).2 m = .ok (r, m') := by
  rw [topUp, drawn]
  dsimp only
  split_ifs
  · rw [checkedI128_bind_ok]
  · rw [Tx.pure_bind, and_iff_right hshare]

lemma drawn_nonneg {remainder : ℤ} {share : (StrategyAllocation × ℤ) × ℕ} (h : 0 ≤ share.1.2) :
    0 ≤ (drawn remainder share).2 := by
  rw [drawn]
  dsimp only
  split_ifs <;> omega

lemma redeemShare_ok {remainder interest k : ℤ} {share : (StrategyAllocation × ℤ) × ℕ}
    (hshare : 0 ≤ share.1.2) (hhigh : (drawn remainder share).2 ≤ maxI128) (hlow : 0 ≤ interest) :
    (do
      let amount ← topUp remainder share.1.2 share.2
      Tx.whenever (0 < amount) (withdraw (honest self) share.1.1.address token amount)
      let harvested ← harvest (honest self) share.1.1.address token
      Tx.reject (harvested < 0) .invalidInterest
      checked (interest + harvested)) m = .ok (k, m') ↔
      (drawn remainder share).2 ≤ m.world.balance ((drawn remainder share).1, token) ∧
        interest + m.world.yieldLeft token (drawn remainder share) ≤ maxI128 ∧
        k = interest + m.world.yieldLeft token (drawn remainder share) ∧
        m' = m.turn (m.world.draw self token (drawn remainder share)) := by
  have haddress : share.1.1.address = (drawn remainder share).1 := rfl
  have hleft : (0 : ℤ) ≤ m.world.yieldLeft token (drawn remainder share) := by positivity
  have htotal := fitsI128_of_nonneg (add_nonneg hlow hleft)
  have hle : share.1.2 ≤ (drawn remainder share).2 := by
    rw [drawn]
    dsimp only
    split_ifs <;> omega
  have hfits := (fitsI128_of_nonneg hshare).mpr (hle.trans hhigh)
  have hdrawn := (fitsI128_of_nonneg (drawn_nonneg hshare)).mpr hhigh
  rw [topUp_bind_ok hfits, and_iff_right hdrawn, haddress, draw_bind_ok (drawn_nonneg hshare),
    Tx.reject_bind_ok, checked_ok, htotal]
  constructor
  · rintro ⟨hle, -, -, hfits, rfl, rfl⟩
    exact ⟨hle, hfits, rfl, rfl⟩
  · rintro ⟨hle, hfits, rfl, rfl⟩
    exact ⟨hle, by linarith, by omega, hfits, rfl, rfl⟩

lemma redeemShares_from (self token : Address) (m m' : Machine Pools) {shares : List ((StrategyAllocation × ℤ) × ℕ)} {remainder interest k : ℤ}
    (hdistinct : ((shares.map (drawn remainder)).map Prod.fst).Nodup)
    (hshares : ∀ s ∈ shares, 0 ≤ s.1.2 ∧ (drawn remainder s).2 ≤ maxI128) (hlow : 0 ≤ interest)
    (hhigh : interest ≤ maxI128) :
    Tx.fold (fun interest share => do
      let amount ← topUp remainder share.1.2 share.2
      Tx.whenever (0 < amount) (withdraw (honest self) share.1.1.address token amount)
      let harvested ← harvest (honest self) share.1.1.address token
      Tx.reject (harvested < 0) .invalidInterest
      checked (interest + harvested)) interest shares m = .ok (k, m') ↔
      (∀ d ∈ shares.map (drawn remainder), d.2 ≤ m.world.balance (d.1, token)) ∧
        interest + ((shares.map (drawn remainder)).map (m.world.yieldLeft token)).sum ≤ maxI128 ∧
        k = interest + ((shares.map (drawn remainder)).map (m.world.yieldLeft token)).sum ∧
        m' = m.turn (m.world.draws self token (shares.map (drawn remainder))) := by
  induction shares generalizing interest m with
  | nil => simp [Pools.draws, Machine.turn, hhigh]
  | cons share rest ih =>
    obtain ⟨⟨hshare, hfits⟩, hrest⟩ := List.forall_mem_cons.mp hshares
    rw [List.map_cons, List.map_cons, List.nodup_cons] at hdistinct
    rw [Tx.fold_cons, List.map_cons, List.forall_mem_cons, List.map_cons, List.sum_cons, Nat.cast_add,
      ← add_assoc]
    simp only [redeemShare_ok hshare hfits hlow]
    generalize drawn remainder share = d at *
    have hne (other : Address × ℤ) (hother : other ∈ rest.map (drawn remainder)) : other.1 ≠ d.1 := by
      intro heq
      exact hdistinct.1 (heq ▸ List.mem_map_of_mem hother)
    have hbalance : (∀ e ∈ rest.map (drawn remainder),
        e.2 ≤ ((m.world.draw self token d).balance (e.1, token) : ℤ)) ↔
          ∀ e ∈ rest.map (drawn remainder), e.2 ≤ m.world.balance (e.1, token) := by
      apply forall₂_congr
      intro e he
      rw [Pools.balance_draw (hne e he)]
    have hleft : (rest.map (drawn remainder)).map ((m.world.draw self token d).yieldLeft token) =
        (rest.map (drawn remainder)).map (m.world.yieldLeft token) := by
      apply List.map_congr_left
      intro e he
      exact Pools.yieldLeft_draw (hne e he)
    have hd : (0 : ℤ) ≤ m.world.yieldLeft token d := by positivity
    have htail : (0 : ℤ) ≤ ((rest.map (drawn remainder)).map (m.world.yieldLeft token)).sum := by
      positivity
    have hfold (htotal : interest + m.world.yieldLeft token d ≤ maxI128) :=
      ih (m := m.turn (m.world.draw self token d)) hdistinct.2 hrest (add_nonneg hlow hd) htotal
    simp only [Machine.turn, hbalance, hleft] at hfold
    constructor
    · rintro ⟨_, _, ⟨hle, htotal, rfl, rfl⟩, h⟩
      obtain ⟨hothers, hsum, rfl, rfl⟩ := (hfold htotal).mp h
      exact ⟨⟨hle, hothers⟩, hsum, rfl, rfl⟩
    · rintro ⟨⟨hle, hothers⟩, hsum, rfl, rfl⟩
      have htotal : interest + m.world.yieldLeft token d ≤ maxI128 := by linarith
      exact ⟨_, _, ⟨hle, htotal, rfl, rfl⟩, (hfold htotal).mpr ⟨hothers, hsum, rfl, rfl⟩⟩

section Positions

/-- What a position gets of each strategy: its balance's part, to the unit. -/
def Pools.parts (w : Pools) (token : Address) (strategies : List StrategyAllocation) (principal : ℤ) :
    List (Address × ℤ) :=
  (strategies.map StrategyAllocation.address).zip
    (apportioned principal (w.balances token strategies))

variable {w : Pools} {principal : ℤ} {draw : Address × ℤ}

lemma map_drawn (strategies : List StrategyAllocation) (shares : List ℤ) (remainder : ℤ) (first : ℕ) :
    ((strategies.zip shares).zipIdx first).map (drawn remainder) =
      (strategies.map StrategyAllocation.address).zip (topped remainder shares first) := by
  induction strategies generalizing shares first with
  | nil => rfl
  | cons s rest ih =>
    cases shares with
    | nil => rfl
    | cons share shares =>
      rw [List.zip_cons_cons, List.zipIdx_cons, List.map_cons, ih]
      rfl

lemma length_parts : (strategies.map StrategyAllocation.address).length =
    (apportioned principal (w.balances token strategies)).length := by
  simp [apportioned, topped, Pools.balances]

lemma fst_parts (w : Pools) (token : Address) (strategies : List StrategyAllocation)
    (principal : ℤ) : (w.parts token strategies principal).map Prod.fst =
    strategies.map StrategyAllocation.address := List.map_fst_zip length_parts.le

lemma snd_parts : (w.parts token strategies principal).map Prod.snd =
    apportioned principal (w.balances token strategies) := List.map_snd_zip length_parts.ge

lemma parts_nonneg (hp : 0 ≤ principal) (hd : draw ∈ w.parts token strategies principal) :
    0 ≤ draw.2 :=
  apportioned_nonneg hp (balances_nonneg w _ _) _ (List.of_mem_zip hd).2

lemma sum_parts (hp : 0 ≤ principal) (htotal : 0 < (w.balances token strategies).sum) :
    ((w.parts token strategies principal).map Prod.snd).sum = principal := by
  rw [snd_parts]
  exact sum_apportioned hp htotal (balances_nonneg w _ _)

lemma sum_parts_toNat (w : Pools) (token : Address) (strategies : List StrategyAllocation) (hp : 0 ≤ principal) (htotal : 0 < (w.balances token strategies).sum) :
    ((w.parts token strategies principal).map fun d => d.2.toNat).sum = principal := by
  have hsum := sum_parts hp htotal
  rw [Nat.cast_list_sum, List.map_map]
  refine Eq.trans (congrArg List.sum (List.map_congr_left ?_)) hsum
  intro d hd
  exact Int.toNat_of_nonneg (parts_nonneg hp hd)

lemma parts_le (hp : 0 ≤ principal) (htotal : 0 < (w.balances token strategies).sum)
    (hd : draw ∈ w.parts token strategies principal) : draw.2 ≤ principal := by
  rw [← sum_parts hp htotal]
  apply List.single_le_sum
  · intro x hx
    obtain ⟨d, hd, rfl⟩ := List.mem_map.mp hx
    exact parts_nonneg hp hd
  · exact List.mem_map_of_mem hd

/-- What the strategies keep of the token: of what was deposited, and of what it yielded. -/
def Pools.deposits (w : Pools) (token : Address) (strategies : List StrategyAllocation) : ℕ :=
  (strategies.map fun s => w.principal (s.address, token)).sum

def Pools.yields (w : Pools) (token : Address) (strategies : List StrategyAllocation) : ℕ :=
  (strategies.map fun s => w.accrued (s.address, token)).sum

lemma sum_balances : (w.balances token strategies).sum =
    w.deposits token strategies + w.yields token strategies := by
  induction strategies with
  | nil => rfl
  | cons s rest ih =>
    simp only [Pools.balances, Pools.deposits, Pools.yields, List.map_cons, List.sum_cons,
      Nat.cast_add] at ih ⊢
    rw [ih, Pools.balance, Nat.cast_add]
    ring

lemma sum_parts_map (w : Pools) (token : Address) (strategies : List StrategyAllocation)
    (principal : ℤ) (f : Address → ℕ) : ((w.parts token strategies principal).map fun d => f d.1).sum =
    (strategies.map fun s => f s.address).sum := by
  have h := congrArg (fun l => (l.map f).sum) (fst_parts w token strategies principal)
  simpa only [List.map_map, Function.comp_def] using h

/-- What there is to harvest once the position is withdrawn. -/
def Pools.gathered (w : Pools) (token : Address) (strategies : List StrategyAllocation)
    (principal : ℤ) : ℕ :=
  ((w.parts token strategies principal).map (w.yieldLeft token)).sum

lemma gathered_le (w : Pools) (token : Address) (strategies : List StrategyAllocation)
    (principal : ℤ) : w.gathered token strategies principal ≤ w.yields token strategies := by
  rw [Pools.gathered, Pools.yields, ← sum_parts_map w token strategies principal
    fun a => w.accrued (a, token)]
  apply List.sum_le_sum
  intro d _
  exact Nat.sub_le _ _

def Pools.shares (w : Pools) (token : Address) (strategies : List StrategyAllocation)
    (principal : ℤ) : List ℤ :=
  floors principal (w.balances token strategies).sum (w.balances token strategies)

lemma shares_nonneg (w : Pools) (token : Address) (strategies : List StrategyAllocation) (hp : 0 ≤ principal) : ∀ s ∈ w.shares token strategies principal, 0 ≤ s :=
  floors_nonneg hp (List.sum_nonneg (balances_nonneg w _ _)) (balances_nonneg w _ _)

lemma sum_shares_le (hp : 0 ≤ principal) (htotal : 0 < (w.balances token strategies).sum) :
    (w.shares token strategies principal).sum ≤ principal := by
  have hfloors := (sum_floors hp htotal (balances_nonneg w token strategies)).1
  exact le_of_mul_le_mul_right hfloors htotal

lemma redemption_honest {r : List ℤ × ℤ} (hp : 0 ≤ principal) (hmax : principal ≤ maxI128)
    (htotal : 0 < (w.balances token strategies).sum) :
    redemption principal (w.balances token strategies).sum strategies (w.balances token strategies) m =
      .ok (r, m') ↔ (∀ b ∈ w.balances token strategies, principal * b ≤ maxI128) ∧
        r = (w.shares token strategies principal, (w.shares token strategies principal).sum) ∧
        m' = m := by
  have hsum := (sum_shares_le hp htotal).trans hmax
  rw [redemption, if_pos htotal, allocate_honest hp htotal.le (balances_nonneg w _ _)]
  rw [Pools.shares] at hsum ⊢
  simp [hsum]

lemma redeemShares_honest {k : ℤ} (hdistinct : (strategies.map StrategyAllocation.address).Nodup)
    (hp : 0 ≤ principal) (hmax : principal ≤ maxI128)
    (htotal : 0 < (m.world.balances token strategies).sum)
    (hfits : (m.world.balances token strategies).sum ≤ maxI128) :
    redeemShares (honest self) token (principal - (m.world.shares token strategies principal).sum)
      (strategies.zip (m.world.shares token strategies principal)).zipIdx m = .ok (k, m') ↔
      (∀ d ∈ m.world.parts token strategies principal, d.2 ≤ m.world.balance (d.1, token)) ∧
        k = m.world.gathered token strategies principal ∧
        m' = m.turn (m.world.draws self token (m.world.parts token strategies principal)) := by
  have hparts : ((strategies.zip (m.world.shares token strategies principal)).zipIdx).map
      (drawn (principal - (m.world.shares token strategies principal).sum)) =
        m.world.parts token strategies principal := map_drawn _ _ _ _
  have hgathered : (m.world.gathered token strategies principal : ℤ) ≤ maxI128 := by
    have hle := gathered_le m.world token strategies principal
    rw [sum_balances] at hfits
    omega
  have hshares : ∀ s ∈ (strategies.zip (m.world.shares token strategies principal)).zipIdx,
      0 ≤ s.1.2 ∧
        (drawn (principal - (m.world.shares token strategies principal).sum) s).2 ≤ maxI128 := by
    intro s hs
    have hmem := List.fst_mem_of_mem_zipIdx hs
    have hdrawn := List.mem_map_of_mem (f := drawn
      (principal - (m.world.shares token strategies principal).sum)) hs
    rw [hparts] at hdrawn
    exact ⟨shares_nonneg m.world token strategies hp _ (List.of_mem_zip hmem).2, (parts_le hp htotal hdrawn).trans hmax⟩
  have hfold := redeemShares_from self token m m' (k := k)
    (by rw [hparts, fst_parts]; exact hdistinct) hshares le_rfl (by decide)
  rw [hparts, zero_add, ← Pools.gathered] at hfold
  rw [redeemShares, hfold]
  simp [hgathered]

lemma redeemPosition_honest (self : Address) (record : Escrow) (r : ℤ × ℤ) (m' : Machine Pools)
    (hdistinct : (m.store.getStrategies.map StrategyAllocation.address).Nodup)
    (hp : 0 < record.principal)
    (hle : record.principal ≤ (m.world.balances record.token m.store.getStrategies).sum) :
    redeemPosition (honest self) record m = .ok (r, m') ↔
      (m.world.balances record.token m.store.getStrategies).sum ≤ maxI128 ∧
      (∀ b ∈ m.world.balances record.token m.store.getStrategies, record.principal * b ≤ maxI128) ∧
      (∀ d ∈ m.world.parts record.token m.store.getStrategies record.principal,
        d.2 ≤ m.world.balance (d.1, record.token)) ∧
      r = (record.principal,
        (m.world.gathered record.token m.store.getStrategies record.principal : ℤ)) ∧
      m' = m.turn (m.world.draws self record.token
        (m.world.parts record.token m.store.getStrategies record.principal)) := by
  rw [redeemPosition, view_bind]
  generalize m.store.getStrategies = strategies at *
  rw [Tx.bind_iff fun _ _ => strategyBalances_honest]
  apply and_congr_right
  intro hfits
  have htotal := hp.trans_le hle
  have hmax := hle.trans hfits
  have hleft : FitsI128 (record.principal -
      (m.world.shares record.token strategies record.principal).sum) := by
    have hshares := sum_shares_le hp.le htotal
    have hsum := List.sum_nonneg (shares_nonneg m.world record.token strategies hp.le)
    rw [fitsI128_of_nonneg (by omega)]
    omega
  dsimp only
  rw [Tx.bind_iff fun _ _ => redemption_honest hp.le hmax htotal]
  dsimp only
  rw [checkedI128_bind_ok, and_iff_right hleft,
    Tx.bind_iff fun _ _ => redeemShares_honest hdistinct hp.le hmax htotal hfits, Tx.pure_ok]

end Positions

section Rates

def Pools.weighted (w : Pools) (token : Address) (strategies : List StrategyAllocation) : ℕ :=
  (strategies.map fun s => (w.rate (s.address, token)).val * s.weightBps).sum

/-- No strategy reports a rate beyond the bound. -/
def Pools.Moderate (w : Pools) (token : Address) (strategies : List StrategyAllocation) : Prop :=
  ∀ s ∈ strategies, (w.rate (s.address, token)).val ≤ maxYieldRateBps

lemma yieldRateBps_honest {strategy : Address} {k : ℕ} :
    yieldRateBps (honest self) strategy token m = .ok (k, m') ↔
      True ∧ k = (m.world.rate (strategy, token)).val ∧ m' = m := by
  simp only [yieldRateBps, Tx.bind_ok, ask_ok, Tx.pure_ok, honest]
  constructor
  · rintro ⟨_, _, ⟨_, h, rfl⟩, rfl, rfl⟩
    obtain ⟨rfl, rfl⟩ := Prod.mk.inj (Option.some.inj h)
    exact ⟨trivial, rfl, rfl⟩
  · rintro ⟨-, rfl, rfl⟩
    exact ⟨_, _, ⟨_, rfl, rfl⟩, rfl, rfl⟩

lemma rates_from {total k : ℕ} (hroom : total + maxYieldRateBps *
      (strategies.map StrategyAllocation.weightBps).sum < 2 ^ 128) :
    Tx.fold (fun (total : ℕ) (strategy : StrategyAllocation) => do
      let rate ← yieldRateBps (honest self) strategy.address token
      Tx.reject (maxYieldRateBps < rate) .invalidYieldRate
      Tx.reject (2 ^ 128 ≤ total + rate * strategy.weightBps) .mathOverflow
      pure (total + rate * strategy.weightBps)) total strategies m = .ok (k, m') ↔
      m.world.Moderate token strategies ∧ k = total + m.world.weighted token strategies ∧
        m' = m := by
  induction strategies generalizing total with
  | nil => simp [Pools.Moderate, Pools.weighted]
  | cons s rest ih =>
    rw [List.map_cons, List.sum_cons, mul_add, ← add_assoc] at hroom
    rw [Tx.fold_cons, Pools.Moderate, List.forall_mem_cons, ← Pools.Moderate]
    simp only [Tx.bind_iff fun _ _ => yieldRateBps_honest, Tx.reject_bind_ok, Tx.pure_ok, true_and,
      not_lt, not_le]
    have hsum : m.world.weighted token (s :: rest) =
        (m.world.rate (s.address, token)).val * s.weightBps + m.world.weighted token rest :=
      List.sum_cons
    have hs (hrate : (m.world.rate (s.address, token)).val ≤ maxYieldRateBps) :
        (m.world.rate (s.address, token)).val * s.weightBps ≤ maxYieldRateBps * s.weightBps :=
      Nat.mul_le_mul_right _ hrate
    rw [hsum]
    constructor
    · rintro ⟨_, _, ⟨hrate, -, rfl, rfl⟩, h⟩
      obtain ⟨hmoderate, rfl, rfl⟩ := (ih (by have := hs hrate; omega)).mp h
      exact ⟨⟨hrate, hmoderate⟩, by ring, rfl⟩
    · rintro ⟨⟨hrate, hmoderate⟩, rfl, rfl⟩
      have hproduct := hs hrate
      exact ⟨_, _, ⟨hrate, by omega, rfl, rfl⟩,
        (ih (by omega)).mpr ⟨hmoderate, by ring, rfl⟩⟩

lemma currentYieldRate_honest {k : ℕ} (hvalid : ValidPortfolio m.store.getStrategies) :
    currentYieldRate (honest self) token m = .ok (k, m') ↔
      m.world.Moderate token m.store.getStrategies ∧
        k = m.world.weighted token m.store.getStrategies / 10000 % 2 ^ 32 ∧ m' = m := by
  have hroom : 0 + maxYieldRateBps *
      (m.store.getStrategies.map StrategyAllocation.weightBps).sum < 2 ^ 128 := by
    rw [hvalid.total, maxYieldRateBps]
    norm_num
  rw [currentYieldRate, getWeightedYieldRate, Tx.bind_ok]
  simp only [view_bind, if_neg hvalid.nonempty, Tx.bind_iff fun _ _ => rates_from hroom, Tx.pure_ok,
    Tx.reject_bind_ok, not_lt, zero_add]
  have hbound (h : m.world.Moderate token m.store.getStrategies) :
      m.world.weighted token m.store.getStrategies / 10000 % 2 ^ 32 ≤ maxYieldRateBps := by
    have hsum : m.world.weighted token m.store.getStrategies ≤
        maxYieldRateBps * (m.store.getStrategies.map StrategyAllocation.weightBps).sum := by
      rw [← List.sum_map_mul_left, Pools.weighted]
      apply List.sum_le_sum
      intro s hs
      exact Nat.mul_le_mul_right _ (h s hs)
    rw [hvalid.total, maxYieldRateBps] at hsum
    rw [maxYieldRateBps]
    omega
  constructor
  · rintro ⟨_, _, ⟨hmoderate, rfl, rfl⟩, -, rfl, rfl⟩
    exact ⟨hmoderate, rfl, rfl⟩
  · rintro ⟨hmoderate, rfl, rfl⟩
    exact ⟨_, _, ⟨hmoderate, rfl, rfl⟩, hbound hmoderate, rfl, rfl⟩

end Rates

end StellarTags.YieldEscrow
