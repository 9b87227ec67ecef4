import StellarTags.YieldEscrow.Pools
import StellarTags.YieldEscrow.Portfolios

/-! The weights at which a strategy can be registered. -/

namespace StellarTags.YieldEscrow

open Library.Transactions Library.Runs Soroban

section Growth

variable {W : Type}

def Registers (env : Env) (m : Machine W) (strategy : Address) (weightBps : ℕ) : Prop :=
  ∃ m', registerStrategy env strategy weightBps m = .ok ((), m') ∧
    ValidPortfolio m'.store.getStrategies ∧ ⟨strategy, weightBps⟩ ∈ m'.store.getStrategies

def Grows (env : Env) (m : Machine W) : Prop :=
  ∀ strategy ∉ m.store.strategyAddresses, ∃ weightBps, Registers env m strategy weightBps

/-- Some valid portfolio of the same strategies has the strategy at that weight. -/
def Attainable (s : State) (strategy : Address) (weightBps : ℕ) : Prop :=
  ∃ portfolio, ValidPortfolio portfolio ∧
    (portfolio.map StrategyAllocation.address).Perm s.strategyAddresses ∧
      ⟨strategy, weightBps⟩ ∈ portfolio

def Reweighs (env : Env) (m : Machine W) : Prop :=
  ∀ strategy ∈ m.store.strategyAddresses, ∀ weightBps, 1 ≤ weightBps → weightBps ≤ 10000 →
    Attainable m.store strategy weightBps → Registers env m strategy weightBps

end Growth

section Weights

variable {strategy : Address} {weightBps old : ℕ} {current : List StrategyAllocation}

lemma reweigh_of_not_mem (weightBps : ℕ) (h : strategy ∉ current.map StrategyAllocation.address) :
    reweigh strategy weightBps current = current := by
  induction current with
  | nil => rfl
  | cons s rest ih =>
    rw [List.map_cons, List.mem_cons, not_or] at h
    rw [reweigh, List.map_cons, if_neg fun hs => h.1 hs.symm]
    exact congrArg (s :: ·) (ih h.2)

lemma reweigh_of_mem (hdistinct : (current.map StrategyAllocation.address).Nodup)
    (hmem : ⟨strategy, weightBps⟩ ∈ current) : reweigh strategy weightBps current = current := by
  induction current with
  | nil => rfl
  | cons s rest ih =>
    rw [List.map_cons, List.nodup_cons] at hdistinct
    rw [reweigh, List.map_cons]
    obtain rfl | hmem := List.mem_cons.mp hmem
    · rw [if_pos rfl]
      exact congrArg _ (reweigh_of_not_mem weightBps hdistinct.1)
    · have hother : s.address ≠ strategy := by
        intro hs
        exact hdistinct.1 (hs ▸ List.mem_map_of_mem hmem)
      rw [if_neg hother]
      exact congrArg (s :: ·) (ih hdistinct.2 hmem)

lemma sum_reweigh (weightBps : ℕ) (hdistinct : (current.map StrategyAllocation.address).Nodup)
    (hmem : ⟨strategy, old⟩ ∈ current) :
    ((reweigh strategy weightBps current).map StrategyAllocation.weightBps).sum + old =
      (current.map StrategyAllocation.weightBps).sum + weightBps := by
  induction current with
  | nil => cases hmem
  | cons s rest ih =>
    rw [List.map_cons, List.nodup_cons] at hdistinct
    rw [reweigh, List.map_cons, List.map_cons, List.map_cons, List.sum_cons, List.sum_cons]
    obtain rfl | hmem := List.mem_cons.mp hmem
    · have hrest := reweigh_of_not_mem weightBps hdistinct.1
      rw [reweigh] at hrest
      rw [if_pos rfl, hrest]
      dsimp only
      omega
    · have hother : s.address ≠ strategy := by
        intro hs
        exact hdistinct.1 (hs ▸ List.mem_map_of_mem hmem)
      have hrest := ih hdistinct.2 hmem
      rw [reweigh] at hrest
      rw [if_neg hother]
      omega

lemma validPortfolio_spread {first : Address} {rest : List Address}
    (hdistinct : (first :: rest).Nodup) (hfew : rest.length < maxStrategies) :
    ValidPortfolio
      (⟨first, 10000 - rest.length⟩ :: rest.map fun address => ⟨address, 1⟩) where
  nonempty := List.cons_ne_nil _ _
  few := by simpa using hfew
  distinct := by simpa [Function.comp_def] using hdistinct
  positive s hs := by
    rw [maxStrategies] at hfew
    obtain rfl | hs := List.mem_cons.mp hs
    · dsimp only
      omega
    · obtain ⟨address, -, rfl⟩ := List.mem_map.mp hs
      exact Nat.one_pos
  total := by
    rw [maxStrategies] at hfew
    have hones : ((rest.map fun address => (⟨address, 1⟩ : StrategyAllocation)).map
        StrategyAllocation.weightBps).sum = rest.length := by simp [Function.comp_def]
    rw [List.map_cons, List.sum_cons, hones]
    dsimp only
    omega

end Weights

section Registration

variable {W : Type} {env : Env} {m m' : Machine W} {strategy : Address} {weightBps : ℕ}

/-- The administrator may manage the portfolio. -/
def Manages (env : Env) (m : Machine W) : Prop :=
  m.store.emergencyVaultMode = false ∧ ∃ admin, m.store.admin = some admin ∧ env.auth admin = true

lemma Registers.mem (h : Registers env m strategy weightBps)
    (hvalid : ValidPortfolio m.store.getStrategies) :
    ⟨strategy, weightBps⟩ ∈ m.store.getStrategies := by
  obtain ⟨m', h, -⟩ := h
  rw [registerStrategy, requireManager_bind_ok] at h
  obtain ⟨-, admin, -, -, h⟩ := h
  rw [Tx.reject_bind_ok, view_bind] at h
  dsimp only at h
  rw [view_bind, Tx.reject_bind_ok, Tx.reject_bind_ok, validateStrategies_bind_ok] at h
  obtain ⟨hweight, -, -, hnew, -⟩ := h
  have htotal := hnew.total
  by_cases hfound : strategy ∈ m.store.getStrategies.map StrategyAllocation.address
  · rw [decide_eq_true hfound, if_pos rfl] at htotal
    obtain ⟨s, hs, rfl⟩ := List.mem_map.mp hfound
    have hsum := sum_reweigh weightBps hvalid.distinct hs
    rw [htotal, hvalid.total] at hsum
    obtain rfl : s.weightBps = weightBps := by omega
    exact hs
  · rw [decide_eq_false hfound, if_neg Bool.false_ne_true, reweigh_of_not_mem weightBps hfound,
      List.map_append, List.sum_append, hvalid.total, List.map_singleton, List.sum_singleton] at htotal
    have hzero : weightBps = 0 := Nat.add_eq_left.mp htotal
    exact absurd (Or.inl hzero) hweight

lemma registers_of_mem (hmanages : Manages env m) (hvalid : ValidPortfolio m.store.getStrategies)
    (hmem : ⟨strategy, weightBps⟩ ∈ m.store.getStrategies) : Registers env m strategy weightBps := by
  obtain ⟨hmode, admin, hadmin, hauth⟩ := hmanages
  have hfound : strategy ∈ m.store.getStrategies.map StrategyAllocation.address :=
    List.mem_map_of_mem hmem
  have hpos : 0 < weightBps := hvalid.positive _ hmem
  have hle : weightBps ≤ 10000 := by
    have hsum := List.single_le_sum (fun _ _ => Nat.zero_le _) weightBps
      (List.mem_map_of_mem (f := StrategyAllocation.weightBps) hmem)
    rwa [hvalid.total] at hsum
  refine ⟨m.put fun s => (s.setPortfolio m.store.getStrategies).publish (.regStrat admin strategy), ?_,
    hvalid, hmem⟩
  rw [registerStrategy, requireManager_bind_ok]
  refine ⟨hmode, admin, hadmin, hauth, ?_⟩
  rw [Tx.reject_bind_ok, view_bind]
  dsimp only
  rw [view_bind, Tx.reject_bind_ok, Tx.reject_bind_ok, decide_eq_true hfound, if_pos rfl,
    reweigh_of_mem hvalid.distinct hmem, validateStrategies_bind_ok, write_bind, publish_ok,
    Machine.put_put]
  refine ⟨?_, by simp, by simp, hvalid, rfl⟩
  rw [bpsDenominator]
  omega

lemma registers_iff (hmanages : Manages env m) (hvalid : ValidPortfolio m.store.getStrategies) :
    Registers env m strategy weightBps ↔ ⟨strategy, weightBps⟩ ∈ m.store.getStrategies :=
  ⟨fun h => h.mem hvalid, registers_of_mem hmanages hvalid⟩

lemma not_grows (hvalid : ValidPortfolio m.store.getStrategies) : ¬ Grows env m := by
  intro hgrows
  obtain ⟨strategy, hnew⟩ : ∃ strategy : Address, strategy ∉ m.store.strategyAddresses := by
    have : Infinite Address := .of_injective Address.mk fun _ _ h => Address.mk.inj h
    obtain ⟨strategy, hnew⟩ := Infinite.exists_notMem_finset m.store.strategyAddresses.toFinset
    exact ⟨strategy, by simpa using hnew⟩
  obtain ⟨weightBps, hregisters⟩ := hgrows strategy hnew
  exact hnew (List.mem_map_of_mem (hregisters.mem hvalid))

/-- Of two strategies or more the first could have nearly all the weight, and nearly none. -/
lemma reweighs_iff (hmanages : Manages env m) (hvalid : ValidPortfolio m.store.getStrategies) :
    Reweighs env m ↔ m.store.getStrategies.length = 1 := by
  have hfew := hvalid.few
  constructor
  · intro hreweighs
    obtain ⟨first, rest, haddresses⟩ : ∃ first rest, m.store.strategyAddresses = first :: rest :=
      List.exists_cons_of_ne_nil (by simpa [State.strategyAddresses] using hvalid.nonempty)
    have hdistinct : (first :: rest).Nodup := haddresses ▸ hvalid.distinct
    have hlength : m.store.getStrategies.length = rest.length + 1 := by
      simpa [State.strategyAddresses] using congrArg List.length haddresses
    have hone (weightBps : ℕ) (hpos : 1 ≤ weightBps) (hle : weightBps ≤ 10000)
        (hattains : Attainable m.store first weightBps) :
        ⟨first, weightBps⟩ ∈ m.store.getStrategies :=
      (hreweighs first (by simp [haddresses]) weightBps hpos hle hattains).mem hvalid
    rw [maxStrategies] at hfew
    have hmost := hone (10000 - rest.length) (by omega) (by omega)
      ⟨_, validPortfolio_spread hdistinct (by rw [maxStrategies]; omega),
        by simp [haddresses, Function.comp_def], List.mem_cons_self⟩
    cases rest with
    | nil => exact hlength
    | cons second rest =>
      rw [List.length_cons] at hmost hlength
      have hswapped : (second :: first :: rest).Perm (first :: second :: rest) := .swap ..
      have hleast := hone 1 le_rfl (by decide)
        ⟨_, validPortfolio_spread (hswapped.nodup_iff.mpr hdistinct) (by
            rw [maxStrategies, List.length_cons]; omega),
          by simpa [haddresses, Function.comp_def] using hswapped, by simp⟩
      have hsame := List.inj_on_of_nodup_map hvalid.distinct hmost hleast rfl
      simp only [StrategyAllocation.mk.injEq, true_and] at hsame
      omega
  · intro hlength strategy hregistered weightBps _ _ hattains
    apply registers_of_mem hmanages hvalid
    obtain ⟨⟨first, weight⟩, hcurrent⟩ := List.length_eq_one_iff.mp hlength
    obtain ⟨portfolio, hportfolio, hperm, hmem⟩ := hattains
    have haddresses : m.store.strategyAddresses = [first] := by
      rw [State.strategyAddresses, hcurrent]
      rfl
    rw [haddresses] at hregistered hperm
    have hcount : portfolio.length = 1 := by simpa using hperm.length_eq
    obtain ⟨only, rfl⟩ := List.length_eq_one_iff.mp hcount
    obtain rfl := List.mem_singleton.mp hmem
    have hweight := hvalid.total
    have hother := hportfolio.total
    rw [hcurrent] at hweight
    simp only [List.map_singleton, List.sum_singleton] at hweight hother
    rw [hcurrent, List.mem_singleton.mp hregistered, hweight, hother]
    exact List.mem_singleton_self _

end Registration

/-- A strategy is registered at the weight that it has already, and at no other: the portfolio never
grows, and only a strategy that is alone has every weight that it could have. -/
theorem registerStrategy_never_grows {W : Type} (d : Deployment W) (world : W) (moves : List (Move W))
    (env : Env) (hinit : (after d world moves).store.initialized = true)
    (hmanages : Manages env (after d world moves)) :
    (∀ strategy weightBps, Registers env (after d world moves) strategy weightBps ↔
      ⟨strategy, weightBps⟩ ∈ (after d world moves).store.getStrategies) ∧
    ¬ Grows env (after d world moves) ∧
    (Reweighs env (after d world moves) ↔ (after d world moves).store.getStrategies.length = 1) := by
  have hvalid := (after_portfolio d world moves).valid hinit
  exact ⟨fun _ _ => registers_iff hmanages hvalid, not_grows hvalid, reweighs_iff hmanages hvalid⟩

section Examples

def initialised : List (Move Pools) := [.call signed (.initialise ⟨1⟩ ⟨7⟩)]

theorem registerStrategy_initialised :
    (after (honest ⟨0⟩) tenth initialised).store.initialized = true ∧
      ¬ Grows signed (after (honest ⟨0⟩) tenth initialised) ∧
        Reweighs signed (after (honest ⟨0⟩) tenth initialised) := by
  have h := registerStrategy_never_grows (honest ⟨0⟩) tenth initialised signed (by decide +kernel)
    ⟨by decide +kernel, ⟨1⟩, by decide +kernel, rfl⟩
  exact ⟨by decide +kernel, h.2.1, h.2.2.mpr (by decide +kernel)⟩

/-- No second strategy can be registered, and none of two can be given another weight. -/
theorem second_strategy_refused :
    ¬ Grows signed (after (honest ⟨0⟩) tenth initialised) ∧
      ¬ Reweighs signed (after (honest ⟨0⟩) tenth (initialised ++
        [.call signed (.setStrategies [⟨⟨7⟩, 5000⟩, ⟨⟨8⟩, 5000⟩])])) := by
  refine ⟨not_grows ?_, fun hreweighs => ?_⟩
  · exact (after_portfolio (honest ⟨0⟩) tenth initialised).valid (by decide +kernel)
  · have hvalid := (after_portfolio (honest ⟨0⟩) tenth (initialised ++
      [.call signed (.setStrategies [⟨⟨7⟩, 5000⟩, ⟨⟨8⟩, 5000⟩])])).valid (by decide +kernel)
    have hlength := (reweighs_iff ⟨by decide +kernel, ⟨1⟩, by decide +kernel, rfl⟩ hvalid).mp hreweighs
    revert hlength
    decide +kernel

end Examples

end StellarTags.YieldEscrow
