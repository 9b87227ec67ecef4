import StellarTags.YieldEscrow.Reports

/-! Rebalancing: what the strategies are to have, and what is moved between them. -/

namespace StellarTags.YieldEscrow

open Library.Transactions Library.Integers Library.Apportionment Soroban

variable {token self : Address} {strategies : List StrategyAllocation} {total : ℤ}

/-- What each strategy is to have of the total. -/
def targets (total : ℤ) (strategies : List StrategyAllocation) : List ℤ :=
  apportioned total (weights strategies)

/-- The targets can be worked out. -/
structure Divisible (total : ℤ) (strategies : List StrategyAllocation) : Prop where
  products : ∀ weight ∈ weights strategies, FitsI128 (total * weight)
  sum : AddsUp 0 (floors total bpsDenominator (weights strategies))
  remainder : FitsI128 (total - (floors total bpsDenominator (weights strategies)).sum)
  targets : ∀ target ∈ targets total strategies, FitsI128 target

section Targets

lemma sum_weights (hvalid : ValidPortfolio strategies) : (weights strategies).sum = bpsDenominator := by
  have hsum := congrArg (Nat.cast (R := ℤ)) hvalid.total
  rw [Nat.cast_list_sum, List.map_map] at hsum
  exact hsum

lemma weights_nonneg (strategies : List StrategyAllocation) : ∀ weight ∈ weights strategies, 0 ≤ weight := by
  intro weight hweight
  obtain ⟨s, -, rfl⟩ := List.mem_map.mp hweight
  positivity

lemma targets_eq (total : ℤ) (hvalid : ValidPortfolio strategies) : targets total strategies =
    topped (total - (floors total bpsDenominator (weights strategies)).sum)
      (floors total bpsDenominator (weights strategies)) 0 := by
  rw [targets, apportioned, sum_weights hvalid]

lemma length_targets (total : ℤ) (strategies : List StrategyAllocation) :
    (targets total strategies).length = strategies.length := by
  rw [targets, length_apportioned, weights, List.length_map]

lemma sum_targets (htotal : 0 ≤ total) (hvalid : ValidPortfolio strategies) :
    (targets total strategies).sum = total := by
  apply sum_apportioned htotal
  · rw [sum_weights hvalid]
    decide
  · exact weights_nonneg strategies

lemma targets_fair (htotal : 0 ≤ total) (hvalid : ValidPortfolio strategies) {i : ℕ}
    {s : StrategyAllocation} {target : ℤ} (hs : strategies[i]? = some s)
    (htarget : (targets total strategies)[i]? = some target) :
    |target * bpsDenominator - total * s.weightBps| ≤ bpsDenominator := by
  have hsum := sum_weights hvalid
  have hpos : 0 < (weights strategies).sum := by
    rw [hsum]
    decide
  have hproduct : 0 ≤ total * s.weightBps := by positivity
  have hweight : (weights strategies)[i]? = some (s.weightBps : ℤ) := by
    rw [weights, List.getElem?_map, hs, Option.map_some]
  rw [targets, getElem?_apportioned total i hpos, hweight, Option.map_some, hsum] at htarget
  obtain rfl := Option.some.inj htarget
  have hlow := Int.ediv_mul_le (total * s.weightBps) (b := bpsDenominator) (by decide)
  have hhigh := Int.lt_ediv_add_one_mul_self (total * s.weightBps) (b := bpsDenominator) (by decide)
  rw [Int.tdiv_eq_ediv_of_nonneg hproduct, abs_le]
  generalize total * s.weightBps / bpsDenominator = q at *
  simp only [bpsDenominator] at hlow hhigh ⊢
  split_ifs <;> constructor <;> omega

end Targets

section Specs

variable {W : Type} {d : Deployment W} {m m' : Machine W} {env : Env}

lemma finalTargets_ok {remainder : ℤ} {shares r : List ℤ} (hshares : ∀ share ∈ shares, FitsI128 share) :
    finalTargets remainder shares m = .ok (r, m') ↔
      (∀ target ∈ topped remainder shares 0, FitsI128 target) ∧ r = topped remainder shares 0 ∧
        m' = m := by
  suffices hfrom : ∀ (first : ℕ) (final : List ℤ),
      Tx.fold (fun final (share : ℤ × ℕ) => do
        let target ← topUp remainder share.1 share.2
        pure (final ++ [target])) final (shares.zipIdx first) m = .ok (r, m') ↔
        (∀ target ∈ topped remainder shares first, FitsI128 target) ∧
          r = final ++ topped remainder shares first ∧ m' = m by
    rw [finalTargets, hfrom]
    rfl
  induction shares with
  | nil =>
    intro first final
    simp [topped]
  | cons share rest ih =>
    obtain ⟨hshare, hrest⟩ := List.forall_mem_cons.mp hshares
    intro first final
    have htop {x : List ℤ} {m' : Machine W} : (do
        let target ← topUp remainder share first
        pure (final ++ [target]) : Tx (Machine W) Error (List ℤ)) m = .ok (x, m') ↔
          FitsI128 (if (first : ℤ) < remainder then share + 1 else share) ∧
            x = final ++ [if (first : ℤ) < remainder then share + 1 else share] ∧ m' = m := by
      rw [topUp]
      split_ifs
      · rw [checkedI128_bind_ok, Tx.pure_ok]
      · rw [Tx.pure_bind, Tx.pure_ok, and_iff_right hshare]
    have hcons : topped remainder (share :: rest) first =
        (if (first : ℤ) < remainder then share + 1 else share) ::
          topped remainder rest (first + 1) := rfl
    rw [List.zipIdx_cons, Tx.fold_cons, hcons, List.forall_mem_cons]
    simp only [htop]
    constructor
    · rintro ⟨_, _, ⟨hfits, rfl, rfl⟩, h⟩
      obtain ⟨htail, rfl, rfl⟩ := (ih hrest _ _).mp h
      exact ⟨⟨hfits, htail⟩, by rw [List.append_assoc]; rfl, rfl⟩
    · rintro ⟨⟨hfits, htail⟩, rfl, rfl⟩
      refine ⟨_, _, ⟨hfits, rfl, rfl⟩, (ih hrest _ _).mpr ⟨htail, ?_, rfl⟩⟩
      rw [List.append_assoc]
      rfl

def positions (total : ℤ) (balances : List ℤ) (strategies : List StrategyAllocation) :
    List (StrategyAllocation × ℤ × ℤ) :=
  strategies.zip (balances.zip (targets total strategies))

/-- The orders of a rebalancing, and the record of it. -/
structure Ordered (d : Deployment W) (env : Env) (token : Address) (total : ℤ) (balances : List ℤ)
    (m m' : Machine W) : Prop where
  divisible : Divisible total m.store.getStrategies
  orders : ∃ m₁ m₂,
    withdrawSurplus d token (positions total balances m.store.getStrategies) m = .ok ((), m₁) ∧
    depositDeficit d token (positions total balances m.store.getStrategies) m₁ = .ok ((), m₂) ∧
    m' = m₂.put fun s => ({ s with
      lastRebalance := Function.update s.lastRebalance token (some env.sequence) }).publish
        (.rebal token total m.store.getStrategies.length)

lemma ordered_ok {u : Unit} {balances : List ℤ} (hvalid : ValidPortfolio m.store.getStrategies) : (do
      let (shares, allocated) ← allocate total bpsDenominator (weights m.store.getStrategies)
      let remainder ← checkedI128 (total - allocated)
      let final ← finalTargets remainder shares
      let positions := m.store.getStrategies.zip (balances.zip final)
      withdrawSurplus d token positions
      depositDeficit d token positions
      write fun s => { s with
        lastRebalance := Function.update s.lastRebalance token (some env.sequence) }
      publish (.rebal token total m.store.getStrategies.length)) m = .ok (u, m') ↔
    Ordered d env token total balances m m' := by
  have hfloors (hproducts : ∀ weight ∈ weights m.store.getStrategies, FitsI128 (total * weight)) :
      ∀ share ∈ floors total bpsDenominator (weights m.store.getStrategies), FitsI128 share :=
    fits_floors (by decide) hproducts
  rw [Tx.bind_iff fun _ _ => allocate_ok.trans and_assoc.symm, checkedI128_bind_ok]
  constructor
  · rintro ⟨⟨hproducts, hadds⟩, hremainder, h⟩
    rw [Tx.bind_iff fun _ _ => finalTargets_ok (hfloors hproducts), ← targets_eq total hvalid] at h
    obtain ⟨hfits, h⟩ := h
    simp only [Tx.bind_unit_ok, write_ok, publish_ok] at h
    obtain ⟨m₁, hsurplus, m₂, hdeficit, _, rfl, rfl⟩ := h
    exact ⟨⟨hproducts, hadds, hremainder, hfits⟩, m₁, m₂, hsurplus, hdeficit, rfl⟩
  · rintro ⟨⟨hproducts, hadds, hremainder, hfits⟩, m₁, m₂, hsurplus, hdeficit, rfl⟩
    refine ⟨⟨hproducts, hadds⟩, hremainder, ?_⟩
    rw [Tx.bind_iff fun _ _ => finalTargets_ok (hfloors hproducts), ← targets_eq total hvalid]
    refine ⟨hfits, ?_⟩
    simp only [Tx.bind_unit_ok, write_ok, publish_ok]
    exact ⟨m₁, hsurplus, m₂, hdeficit, _, rfl, rfl⟩

lemma Ordered.store {balances : List ℤ} (h : Ordered d env token total balances m m') :
    m'.store = ({ m.store with
      lastRebalance := Function.update m.store.lastRebalance token (some env.sequence) }).publish
        (.rebal token total m.store.getStrategies.length) := by
  obtain ⟨m₁, m₂, hsurplus, hdeficit, rfl⟩ := h.orders
  have hout₁ := Outward.withdrawSurplus d.keepsAnywhere _ _ _ _ _ hsurplus
  have hout₂ := Outward.depositDeficit d.keepsAnywhere _ _ _ _ _ hdeficit
  rw [Machine.put_store, hout₂.store, hout₁.store]

lemma rebalance_ok {u : Unit} (hvalid : ValidPortfolio m.store.getStrategies) :
    rebalance d env token m = .ok (u, m') ↔
      m.store.initialized = true ∧ m.store.emergencyVaultMode = false ∧
      (m.store.getStrategies.length ≤ 1 ∧ m' = m ∨
        1 < m.store.getStrategies.length ∧ ∃ r m₁,
          strategyBalances d token m.store.getStrategies m = .ok (r, m₁) ∧
          (r.2 ≤ 0 ∧ m' = m₁ ∨ 0 < r.2 ∧ Ordered d env token r.2 r.1 m₁ m')) := by
  rw [rebalance, requireInitialized_bind_ok, rejectEmergency_bind_ok, view_bind, Tx.whenever_ok,
    or_comm, not_lt]
  apply and_congr_right
  intro _
  apply and_congr_right
  intro _
  apply or_congr_right
  apply and_congr_right
  intro _
  rw [Tx.bind_ok]
  apply exists_congr
  intro r
  apply exists_congr
  intro m₁
  apply and_congr_right
  intro hread
  have hstore := (Outward.strategyBalances d.keepsAnywhere _ _ _ _ _ hread).store
  dsimp only
  rw [Tx.whenever_ok, or_comm, not_lt, ← hstore, ordered_ok (by rwa [hstore])]

end Specs

section Orders

variable {m m' : Machine Reports} {balances : List ℤ}
  {entries : List (StrategyAllocation × ℤ × ℤ)}

/-- What strategies that have more than they are to have give, and what the others get. -/
def surplus (entries : List (StrategyAllocation × ℤ × ℤ)) : List (Address × ℤ) :=
  (entries.map fun p => (p.1.address, p.2.1 - p.2.2)).filter fun order => 0 < order.2

def deficit (entries : List (StrategyAllocation × ℤ × ℤ)) : List (Address × ℤ) :=
  (entries.map fun p => (p.1.address, p.2.2 - p.2.1)).filter fun order => 0 < order.2

def Machine.depositing (m : Machine Reports) (orders : List (Address × ℤ)) : Machine Reports :=
  { m with world := { m.world with deposited := m.world.deposited ++ orders } }

lemma withdrawSurplus_reporting {u : Unit}
    (h : withdrawSurplus (reporting self) token entries m = .ok (u, m')) :
    m' = m.withdrawing (surplus entries) := by
  rw [withdrawSurplus] at h
  induction entries generalizing m with
  | nil =>
    rw [Tx.forEach_nil] at h
    simp [h, surplus, Machine.withdrawing]
  | cons p rest ih =>
    obtain ⟨m₁, hm, h⟩ := Tx.forEach_cons.mp h
    rw [ih h]
    rcases Tx.whenever_ok.mp hm with ⟨hlt, hm⟩ | ⟨hle, rfl⟩
    · rw [checkedI128_bind_ok, withdraw, order_ok] at hm
      obtain ⟨-, _, hworld, rfl⟩ := hm
      obtain rfl := Option.some.inj hworld
      simp [surplus, Machine.withdrawing, hlt]
    · simp [surplus, hle]

lemma depositDeficit_reporting {u : Unit}
    (h : depositDeficit (reporting self) token entries m = .ok (u, m')) :
    m' = m.depositing (deficit entries) := by
  rw [depositDeficit] at h
  induction entries generalizing m with
  | nil =>
    rw [Tx.forEach_nil] at h
    simp [h, deficit, Machine.depositing]
  | cons p rest ih =>
    obtain ⟨m₁, hm, h⟩ := Tx.forEach_cons.mp h
    rw [ih h]
    rcases Tx.whenever_ok.mp hm with ⟨hlt, hm⟩ | ⟨hle, rfl⟩
    · rw [checkedI128_bind_ok, deposit, order_ok] at hm
      obtain ⟨-, _, hworld, rfl⟩ := hm
      obtain rfl := Option.some.inj hworld
      simp [deficit, Machine.depositing, hlt]
    · simp [deficit, hle]

lemma sum_surplus (entries : List (StrategyAllocation × ℤ × ℤ)) :
    ((surplus entries).map Prod.snd).sum - ((deficit entries).map Prod.snd).sum =
      (entries.map fun p => p.2.1 - p.2.2).sum := by
  induction entries with
  | nil => rfl
  | cons p rest ih =>
    rw [surplus, deficit] at ih ⊢
    rw [List.map_cons, List.map_cons, List.map_cons, List.sum_cons, ← ih, List.filter_cons,
      List.filter_cons]
    split_ifs with hgives hgets <;> simp at * <;> omega

lemma sum_gaps {goals : List ℤ} (hbalances : balances.length = strategies.length)
    (hgoals : goals.length = strategies.length) :
    ((strategies.zip (balances.zip goals)).map fun p => p.2.1 - p.2.2).sum =
      balances.sum - goals.sum := by
  induction strategies generalizing balances goals with
  | nil =>
    rw [List.length_eq_zero_iff.mp hbalances, List.length_eq_zero_iff.mp hgoals]
    rfl
  | cons s rest ih =>
    cases balances with
    | nil => simp at hbalances
    | cons b balances =>
      cases goals with
      | nil => simp at hgoals
      | cons g goals =>
        have hrest := ih (Nat.succ.inj hbalances) (Nat.succ.inj hgoals)
        simp only [List.zip_cons_cons, List.map_cons, List.sum_cons, hrest]
        ring

/-- The contract's own balance is not touched: what the ones give the others get. -/
lemma level_orders (hlength : balances.length = strategies.length) (htotal : 0 ≤ balances.sum)
    (hvalid : ValidPortfolio strategies) :
    ((surplus (positions balances.sum balances strategies)).map Prod.snd).sum =
      ((deficit (positions balances.sum balances strategies)).map Prod.snd).sum := by
  have horders := sum_surplus (positions balances.sum balances strategies)
  rw [positions, sum_gaps hlength (length_targets _ _), sum_targets htotal hvalid, ← positions]
    at horders
  linarith

end Orders

section Movements

variable {m m' : Machine Pools} {w w₁ w₂ : Pools} {sign : ℤ} {order : Address × ℤ}
  {orders : List (Address × ℤ)} {entries : List (StrategyAllocation × ℤ × ℤ)}

/-- The strategies have had the orders' amounts, from the vault or, where the sign says so, for it. -/
structure Moved (owner token : Address) (sign : ℤ) (orders : List (Address × ℤ)) (w w' : Pools) :
    Prop where
  others : ∀ a, a ∉ orders.map Prod.fst → w'.balance (a, token) = w.balance (a, token)
  ordered : ∀ order ∈ orders,
    (w'.balance (order.1, token) : ℤ) = w.balance (order.1, token) + sign * order.2
  vault : (w'.holdings (token, owner) : ℤ) =
    w.holdings (token, owner) - sign * (orders.map Prod.snd).sum

lemma Moved.nil (self token : Address) (sign : ℤ) (w : Pools) : Moved self token sign [] w w where
  others _ _ := rfl
  ordered _ h := by cases h
  vault := by simp

lemma Moved.zero {a : Address} : Moved self token sign [(a, 0)] w w where
  others _ _ := rfl
  ordered order h := by
    obtain rfl := List.mem_singleton.mp h
    simp
  vault := by simp

lemma Moved.cons (hfirst : Moved self token sign [order] w w₁) (hrest : Moved self token sign orders w₁ w₂)
    (hnew : order.1 ∉ orders.map Prod.fst) : Moved self token sign (order :: orders) w w₂ := by
  refine ⟨fun a ha => ?_, fun o ho => ?_, ?_⟩
  · rw [List.map_cons, List.mem_cons, not_or] at ha
    rw [hrest.others a ha.2, hfirst.others a (by simpa using ha.1)]
  · rcases List.mem_cons.mp ho with rfl | ho
    · rw [hrest.others o.1 hnew, hfirst.ordered o (List.mem_singleton.mpr rfl)]
    · have hne : o.1 ∉ [order].map Prod.fst := by
        rw [List.map_singleton, List.mem_singleton]
        intro heq
        exact hnew (heq ▸ List.mem_map_of_mem ho)
      rw [hrest.ordered o ho, hfirst.others o.1 hne]
  · rw [hrest.vault, hfirst.vault, List.map_cons, List.sum_cons]
    simp
    ring

lemma Moved.withdraw {strategy : Address} {n : ℤ} (h : w.withdraw strategy self token n = some w₁) :
    Moved self token (-1) [(strategy, n)] w w₁ := by
  obtain ⟨hlow, hle, rfl⟩ := Pools.withdraw_ok.mp h
  rw [Pools.balance] at hle
  refine ⟨fun a ha => ?_, fun order horder => ?_, ?_⟩
  · have hne : a ≠ strategy := by simpa using ha
    simp [Pools.balance, Pools.credit, Pools.spend, hne]
  · obtain rfl := List.mem_singleton.mp horder
    simp [Pools.balance, Pools.credit, Pools.spend]
    omega
  · simp [Pools.credit, Pools.spend]
    omega

lemma Moved.deposit {strategy : Address} {n : ℤ} (h : w.deposit strategy self token n = some w₁) :
    Moved self token 1 [(strategy, n)] w w₁ := by
  rw [Pools.deposit] at h
  split_ifs at h with hn
  obtain rfl := Option.some.inj h
  refine ⟨fun a ha => ?_, fun order horder => ?_, ?_⟩
  · have hne : a ≠ strategy := by simpa using ha
    simp [Pools.balance, Pools.debit, hne]
  · obtain rfl := List.mem_singleton.mp horder
    simp [Pools.balance, Pools.debit]
    omega
  · simp [Pools.debit]
    omega

lemma Moved.forEach {body : StrategyAllocation × ℤ × ℤ → Tx (Machine Pools) Error Unit}
    (gap : StrategyAllocation × ℤ × ℤ → ℤ) {u : Unit}
    (hbody : ∀ (p : StrategyAllocation × ℤ × ℤ) (m m' : Machine Pools), body p m = .ok ((), m') →
      Moved self token sign [(p.1.address, gap p)] m.world m'.world)
    (hdistinct : (entries.map fun p => p.1.address).Nodup)
    (h : Tx.forEach body entries m = .ok (u, m')) :
    Moved self token sign (entries.map fun p => (p.1.address, gap p)) m.world m'.world := by
  induction entries generalizing m with
  | nil =>
    rw [Tx.forEach_nil.mp h]
    exact .nil _ _ _ _
  | cons p rest ih =>
    rw [List.map_cons, List.nodup_cons] at hdistinct
    obtain ⟨m₁, hm, h⟩ := Tx.forEach_cons.mp h
    refine (hbody p m m₁ hm).cons (ih hdistinct.2 h) ?_
    rw [List.map_map]
    exact hdistinct.1

lemma withdrawSurplus_honest {u : Unit} (hdistinct : (entries.map fun p => p.1.address).Nodup)
    (h : withdrawSurplus (honest self) token entries m = .ok (u, m')) :
    Moved self token (-1) (entries.map fun p => (p.1.address, max 0 (p.2.1 - p.2.2))) m.world
      m'.world := by
  refine Moved.forEach (fun p => max 0 (p.2.1 - p.2.2)) (fun p m m' hp => ?_) hdistinct h
  rcases Tx.whenever_ok.mp hp with ⟨hlt, hp⟩ | ⟨hle, rfl⟩
  · rw [checkedI128_bind_ok, withdraw, order_ok] at hp
    obtain ⟨-, w, hw, rfl⟩ := hp
    rw [max_eq_right (by omega)]
    exact .withdraw hw
  · rw [max_eq_left (by omega)]
    exact .zero

lemma depositDeficit_honest {u : Unit} (hdistinct : (entries.map fun p => p.1.address).Nodup)
    (h : depositDeficit (honest self) token entries m = .ok (u, m')) :
    Moved self token 1 (entries.map fun p => (p.1.address, max 0 (p.2.2 - p.2.1))) m.world
      m'.world := by
  refine Moved.forEach (fun p => max 0 (p.2.2 - p.2.1)) (fun p m m' hp => ?_) hdistinct h
  rcases Tx.whenever_ok.mp hp with ⟨hlt, hp⟩ | ⟨hle, rfl⟩
  · rw [checkedI128_bind_ok, deposit, order_ok] at hp
    obtain ⟨-, w, hw, rfl⟩ := hp
    rw [max_eq_right (by omega)]
    exact .deposit hw
  · rw [max_eq_left (by omega)]
    exact .zero

lemma Moved.settled
    (hfirst : Moved self token (-1) (entries.map fun p => (p.1.address, max 0 (p.2.1 - p.2.2))) w w₁)
    (hsecond : Moved self token 1 (entries.map fun p => (p.1.address, max 0 (p.2.2 - p.2.1))) w₁ w₂)
    (hentry : ∀ p ∈ entries, p.2.1 = w.balance (p.1.address, token)) :
    (∀ p ∈ entries, (w₂.balance (p.1.address, token) : ℤ) = p.2.2) ∧
      (w₂.holdings (token, self) : ℤ) =
        w.holdings (token, self) + (entries.map fun p => p.2.1 - p.2.2).sum := by
  constructor
  · intro p hp
    have hgiven := hfirst.ordered _ (List.mem_map_of_mem hp)
    have hgot := hsecond.ordered _ (List.mem_map_of_mem hp)
    have hbefore := hentry p hp
    dsimp only at hgiven hgot
    omega
  · have hgap : (entries.map fun p => max 0 (p.2.1 - p.2.2)).sum =
        (entries.map fun p => p.2.1 - p.2.2).sum +
          (entries.map fun p => max 0 (p.2.2 - p.2.1)).sum := by
      rw [← List.sum_map_add]
      congr 1
      apply List.map_congr_left
      intro p _
      omega
    rw [hsecond.vault, hfirst.vault]
    simp only [List.map_map, Function.comp_def]
    rw [hgap]
    ring

end Movements

section Honest

variable {m m' m₁ : Machine Pools} {env : Env} {balances : List ℤ}
  {p : StrategyAllocation × ℤ × ℤ}

lemma map_fst_positions (total : ℤ) (hlength : balances.length = strategies.length) :
    (positions total balances strategies).map Prod.fst = strategies := by
  apply List.map_fst_zip
  simp [length_targets, hlength]

lemma map_goal_positions (total : ℤ) (hlength : balances.length = strategies.length) :
    (positions total balances strategies).map (fun p => p.2.2) = targets total strategies := by
  have hsnd : (positions total balances strategies).map Prod.snd =
      balances.zip (targets total strategies) := by
    apply List.map_snd_zip
    simp [length_targets, hlength]
  have hgoal : (balances.zip (targets total strategies)).map Prod.snd = targets total strategies :=
    List.map_snd_zip (by simp [length_targets, hlength])
  rw [← hgoal, ← hsnd, List.map_map]
  rfl

lemma mem_positions {w : Pools}
    (hp : p ∈ positions total (w.balances token strategies) strategies) :
    p.2.1 = w.balance (p.1.address, token) := by
  obtain ⟨i, hi⟩ := List.mem_iff_getElem?.mp hp
  obtain ⟨hs, hrest⟩ := List.getElem?_zip_eq_some.mp hi
  obtain ⟨hbalance, -⟩ := List.getElem?_zip_eq_some.mp hrest
  rw [Pools.balances, List.getElem?_map, hs, Option.map_some] at hbalance
  exact (Option.some.inj hbalance).symm

lemma length_balances (w : Pools) (token : Address) (strategies : List StrategyAllocation) :
    (w.balances token strategies).length = strategies.length := List.length_map _

/-- Every strategy has its target, and the vault what it had. -/
lemma Ordered.outcome (hvalid : ValidPortfolio m.store.getStrategies)
    (h : Ordered (honest self) env token (m.world.balances token m.store.getStrategies).sum
      (m.world.balances token m.store.getStrategies) m m') :
    m'.world.balances token m.store.getStrategies =
        targets (m.world.balances token m.store.getStrategies).sum m.store.getStrategies ∧
      m'.world.holdings (token, self) = m.world.holdings (token, self) := by
  have hlength := length_balances m.world token m.store.getStrategies
  have htotal := List.sum_nonneg (balances_nonneg m.world token m.store.getStrategies)
  have hentry : ∀ p ∈ positions (m.world.balances token m.store.getStrategies).sum
      (m.world.balances token m.store.getStrategies) m.store.getStrategies,
      p.2.1 = m.world.balance (p.1.address, token) := fun p hp => mem_positions hp
  obtain ⟨m₁, m₂, hsurplus, hdeficit, rfl⟩ := h.orders
  have hgoals := map_goal_positions (m.world.balances token m.store.getStrategies).sum hlength
  have hfst := map_fst_positions (m.world.balances token m.store.getStrategies).sum hlength
  have hgaps : ((positions (m.world.balances token m.store.getStrategies).sum
      (m.world.balances token m.store.getStrategies) m.store.getStrategies).map fun p =>
        p.2.1 - p.2.2).sum = 0 := by
    rw [positions, sum_gaps hlength (length_targets _ _), sum_targets htotal hvalid, sub_self]
  have hdistinct : ((positions (m.world.balances token m.store.getStrategies).sum
      (m.world.balances token m.store.getStrategies) m.store.getStrategies).map fun p =>
        p.1.address).Nodup := by
    have hvalid := hvalid.distinct
    rw [← hfst, List.map_map] at hvalid
    exact hvalid
  obtain ⟨hbalances, hvault⟩ := (withdrawSurplus_honest hdistinct hsurplus).settled
    (depositDeficit_honest hdistinct hdeficit) hentry
  constructor
  · rw [← hgoals, Pools.balances]
    conv_lhs => rw [← hfst]
    rw [List.map_map]
    exact List.map_congr_left hbalances
  · rw [hgaps, add_zero] at hvault
    exact_mod_cast hvault

lemma forEach_idle {W α : Type} {body : α → Tx (Machine W) Error Unit} {as : List α} {m : Machine W}
    (h : ∀ a ∈ as, body a m = .ok ((), m)) : Tx.forEach body as m = .ok ((), m) := by
  induction as with
  | nil => rfl
  | cons a rest ih =>
    obtain ⟨ha, hrest⟩ := List.forall_mem_cons.mp h
    exact Tx.forEach_cons.mpr ⟨m, ha, ih hrest⟩

lemma ordered_idle (hdivisible : Divisible (m.world.balances token m.store.getStrategies).sum
      m.store.getStrategies)
    (hsettled : m.world.balances token m.store.getStrategies =
      targets (m.world.balances token m.store.getStrategies).sum m.store.getStrategies) :
    ∃ m', Ordered (honest self) env token (m.world.balances token m.store.getStrategies).sum
      (m.world.balances token m.store.getStrategies) m m' ∧ m'.world = m.world := by
  have hequal : ∀ p ∈ positions (m.world.balances token m.store.getStrategies).sum
      (m.world.balances token m.store.getStrategies) m.store.getStrategies, p.2.1 = p.2.2 := by
    intro p hp
    obtain ⟨i, hi⟩ := List.mem_iff_getElem?.mp hp
    obtain ⟨-, hrest⟩ := List.getElem?_zip_eq_some.mp hi
    obtain ⟨hbalance, hgoal⟩ := List.getElem?_zip_eq_some.mp hrest
    rw [← hsettled, hbalance] at hgoal
    exact Option.some.inj hgoal
  refine ⟨_, ⟨hdivisible, m, m, forEach_idle fun p hp => ?_, forEach_idle fun p hp => ?_, rfl⟩, rfl⟩
  · exact Tx.whenever_ok.mpr (Or.inr ⟨(hequal p hp).not_gt, rfl⟩)
  · exact Tx.whenever_ok.mpr (Or.inr ⟨(hequal p hp).not_lt, rfl⟩)

end Honest

section Exactness

variable {env : Env}

/-- What is ordered of the strategies to have these goals: no more is given than got. -/
structure Leveled (token : Address) (m m' : Machine Reports) (goals : List ℤ) : Prop where
  length : goals.length = m.store.getStrategies.length
  total : goals.sum = (m.world.balances token m.store.getStrategies).sum
  fair : ∀ (i : ℕ) (s : StrategyAllocation) (goal : ℤ), m.store.getStrategies[i]? = some s →
    goals[i]? = some goal → |goal * bpsDenominator -
      (m.world.balances token m.store.getStrategies).sum * s.weightBps| ≤ bpsDenominator
  withdrawn : m'.world.withdrawn = m.world.withdrawn ++ surplus
    (m.store.getStrategies.zip ((m.world.balances token m.store.getStrategies).zip goals))
  deposited : m'.world.deposited = m.world.deposited ++ deficit
    (m.store.getStrategies.zip ((m.world.balances token m.store.getStrategies).zip goals))
  level : ((surplus (m.store.getStrategies.zip
      ((m.world.balances token m.store.getStrategies).zip goals))).map Prod.snd).sum =
    ((deficit (m.store.getStrategies.zip
      ((m.world.balances token m.store.getStrategies).zip goals))).map Prod.snd).sum

/-- Where there is something to spread, and several strategies to spread it over, all of it is. -/
structure Rebalanced (token : Address) (m m' : Machine Reports) : Prop where
  spread : 1 < m.store.getStrategies.length →
    0 < (m.world.balances token m.store.getStrategies).sum → ∃ goals, Leveled token m m' goals
  idle : m.store.getStrategies.length ≤ 1 ∨
    (m.world.balances token m.store.getStrategies).sum ≤ 0 → m'.world = m.world

/-- Honest strategies have their targets, the vault has what it had, and another rebalancing goes through
without moving anything. -/
structure Settled (owner token : Address) (m m' : Machine Pools) : Prop where
  vault : m'.world.holdings (token, owner) = m.world.holdings (token, owner)
  balances : 1 < m.store.getStrategies.length →
    0 < (m.world.balances token m.store.getStrategies).sum →
      m'.world.balances token m.store.getStrategies =
        targets (m.world.balances token m.store.getStrategies).sum m.store.getStrategies
  again : ∀ later, ∃ m'', rebalance (honest owner) later token m' = .ok ((), m'') ∧
    m''.world = m'.world

lemma rebalanced_reporting {m m' : Machine Reports} {u : Unit}
    (hvalid : ValidPortfolio m.store.getStrategies)
    (h : rebalance (reporting self) env token m = .ok (u, m')) : Rebalanced token m m' := by
  have hlength : (m.world.balances token m.store.getStrategies).length =
      m.store.getStrategies.length := List.length_map _
  obtain ⟨-, -, ⟨hfew, rfl⟩ | ⟨hmany, r, m₁, hread, h⟩⟩ := (rebalance_ok hvalid).mp h
  · exact ⟨fun hmany => absurd hmany hfew.not_gt, fun _ => rfl⟩
  · obtain ⟨-, rfl, rfl⟩ := strategyBalances_reporting.mp hread
    rcases h with ⟨hnone, rfl⟩ | ⟨hpos, h⟩
    · exact ⟨fun _ hpos => absurd hpos hnone.not_gt, fun _ => rfl⟩
    · refine ⟨fun _ _ => ⟨targets _ _, length_targets _ _, sum_targets hpos.le hvalid,
        fun i s goal hs hgoal => targets_fair hpos.le hvalid hs hgoal, ?_, ?_,
        level_orders hlength hpos.le hvalid⟩, ?_⟩
      · obtain ⟨m₂, m₃, hsurplus, hdeficit, rfl⟩ := h.orders
        rw [Machine.put_world, depositDeficit_reporting hdeficit, withdrawSurplus_reporting hsurplus]
        rfl
      · obtain ⟨m₂, m₃, hsurplus, hdeficit, rfl⟩ := h.orders
        rw [Machine.put_world, depositDeficit_reporting hdeficit, withdrawSurplus_reporting hsurplus]
        rfl
      · rintro (hfew | hnone)
        · exact absurd hmany hfew.not_gt
        · exact absurd hpos hnone.not_gt

lemma settled_honest {m m' : Machine Pools} {u : Unit}
    (hvalid : ValidPortfolio m.store.getStrategies)
    (h : rebalance (honest self) env token m = .ok (u, m')) : Settled self token m m' := by
  obtain ⟨hinit, hnormal, ⟨hfew, rfl⟩ | ⟨hmany, r, m₁, hread, h⟩⟩ := (rebalance_ok hvalid).mp h
  · exact ⟨rfl, fun hmany => absurd hmany hfew.not_gt, fun later =>
      ⟨m', (rebalance_ok hvalid).mpr ⟨hinit, hnormal, Or.inl ⟨hfew, rfl⟩⟩, rfl⟩⟩
  · obtain ⟨hmax, rfl, rfl⟩ := strategyBalances_honest.mp hread
    rcases h with ⟨hnone, rfl⟩ | ⟨hpos, h⟩
    · exact ⟨rfl, fun _ hpos => absurd hpos hnone.not_gt, fun later =>
        ⟨m', (rebalance_ok hvalid).mpr
          ⟨hinit, hnormal, Or.inr ⟨hmany, _, _, hread, Or.inl ⟨hnone, rfl⟩⟩⟩, rfl⟩⟩
    · obtain ⟨hbalances, hvault⟩ := h.outcome hvalid
      have hstore := h.store
      have hstrategies : m'.store.getStrategies = m₁.store.getStrategies := by
        rw [hstore]
        rfl
      have hsum : (m'.world.balances token m₁.store.getStrategies).sum =
          (m₁.world.balances token m₁.store.getStrategies).sum := by
        rw [hbalances, sum_targets hpos.le hvalid]
      refine ⟨hvault, fun _ _ => hbalances, fun later => ?_⟩
      have hdivisible := h.divisible
      rw [← hsum, ← hstrategies] at hdivisible hmax hpos
      rw [← hsum, ← hstrategies] at hbalances
      rw [← hstrategies] at hvalid hmany
      obtain ⟨m₂, hagain, hworld⟩ := ordered_idle hdivisible hbalances
      refine ⟨m₂, (rebalance_ok hvalid).mpr ⟨by rwa [hstore], by rwa [hstore], Or.inr ⟨hmany, _, _,
        strategyBalances_honest.mpr ⟨hmax, rfl, rfl⟩, Or.inr ⟨hpos, hagain⟩⟩⟩, hworld⟩

/-- The targets are exact to the unit and add up, what is withdrawn is deposited again, and honest
strategies are left at their targets. -/
theorem rebalance_exact (owner token : Address) (env : Env) :
    (∀ m m' : Machine Reports, ValidPortfolio m.store.getStrategies →
      rebalance (reporting owner) env token m = .ok ((), m') → Rebalanced token m m') ∧
    ∀ m m' : Machine Pools, ValidPortfolio m.store.getStrategies →
      rebalance (honest owner) env token m = .ok ((), m') → Settled owner token m m' :=
  ⟨fun _ _ hvalid h => rebalanced_reporting hvalid h, fun _ _ hvalid h => settled_honest hvalid h⟩

theorem rebalance_exact_thirds :
    ∃ m', rebalance (reporting ⟨0⟩) {} ⟨9⟩ (reported ⟨7, by decide⟩ ⟨1001, by decide⟩ ⟨1, by decide⟩) =
        .ok ((), m') ∧
      Rebalanced ⟨9⟩ (reported ⟨7, by decide⟩ ⟨1001, by decide⟩ ⟨1, by decide⟩) m' := by
  have hok : Tx.succeeds (rebalance (reporting ⟨0⟩) {} ⟨9⟩)
      (reported ⟨7, by decide⟩ ⟨1001, by decide⟩ ⟨1, by decide⟩) = true := by decide +kernel
  obtain ⟨m', h⟩ := Tx.succeeds_unit.mp hok
  exact ⟨m', h, (rebalance_exact ⟨0⟩ ⟨9⟩ {}).1 _ m' thirds_valid h⟩

end Exactness

end StellarTags.YieldEscrow
