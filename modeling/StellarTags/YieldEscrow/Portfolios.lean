import StellarTags.YieldEscrow.Effects

/-! The portfolio is valid at all times, and its strategies stay while escrows are open. -/

namespace StellarTags.YieldEscrow

open Library.Transactions Library.Runs Soroban

variable {W : Type} {d : Deployment W} {R : W → W → Prop} {m m' : Machine W} {env : Env} {op : Op}
  {s t : State}

/-- The configuration is the same. -/
structure SameConfig (s t : State) : Prop where
  initialized : t.initialized = s.initialized
  admin : t.admin = s.admin
  adapter : t.adapter = s.adapter
  strategies : t.strategies = s.strategies

namespace SameConfig

lemma trans {u : State} (h : SameConfig s t) (h' : SameConfig t u) : SameConfig s u :=
  ⟨h'.initialized.trans h.initialized, h'.admin.trans h.admin, h'.adapter.trans h.adapter,
    h'.strategies.trans h.strategies⟩

lemma recordToken (s : State) (token : Address) : SameConfig s (s.recordToken token) := by
  rw [recordToken_eq]
  exact ⟨rfl, rfl, rfl, rfl⟩

lemma opened (s : State) (escrowId : ℕ) (record : Escrow) (y : YieldState) :
    SameConfig s (s.opened escrowId record y) := by
  rw [opened_eq]
  exact ⟨rfl, rfl, rfl, rfl⟩

lemma halted (s : State) (tokens : List Address) : SameConfig s (s.halted env tokens) := by
  rw [halted_eq]
  exact ⟨rfl, rfl, rfl, rfl⟩

lemma closed (s : State) (escrowId : ℕ) (record : Escrow) (y : YieldState) :
    SameConfig s (s.closed escrowId record y) := by
  rw [closed_eq]
  exact ⟨rfl, rfl, rfl, rfl⟩

lemma publish (h : SameConfig s t) (event : Event) : SameConfig s (t.publish event) :=
  ⟨h.initialized, h.admin, h.adapter, h.strategies⟩

lemma getStrategies (h : SameConfig s t) : t.getStrategies = s.getStrategies := by
  rw [State.getStrategies, State.getStrategies, h.strategies, h.adapter]

end SameConfig

lemma Effect.config (h : Effect d R env m m' op) :
    (m.store.initialized = false ∧ ∃ admin adapter event,
      m'.store = (m.store.initialised admin adapter).publish event) ∨
    (m.store.admin ≠ none ∧ ∃ strategies event, ValidPortfolio strategies ∧
      (m.store.activeEscrows ≠ 0 →
        sameStrategyAddresses m.store.getStrategies strategies = true) ∧
      m'.store = (m.store.setPortfolio strategies).publish event) ∨
    SameConfig m.store m'.store ∧
      (m.store.initialized = false → m'.store.activeEscrows = m.store.activeEscrows) := by
  cases h with
  | initialised hfresh hm => exact Or.inl ⟨hfresh, _, _, _, by rw [hm]; rfl⟩
  | ported _ hadmin hvalid hsame hm =>
    exact Or.inr (Or.inl ⟨hadmin, _, _, hvalid, hsame, by rw [hm]; rfl⟩)
  | thresholded _ hm =>
    rw [hm]
    exact Or.inr (Or.inr ⟨⟨rfl, rfl, rfl, rfl⟩, fun _ => rfl⟩)
  | looked _ hout =>
    rw [hout.store]
    exact Or.inr (Or.inr ⟨⟨rfl, rfl, rfl, rfl⟩, fun _ => rfl⟩)
  | rebalanced _ hout hm =>
    rw [hm, Machine.put_store, hout.store]
    exact Or.inr (Or.inr ⟨⟨rfl, rfl, rfl, rfl⟩, fun _ => rfl⟩)
  | checkpointed hout _ hm =>
    rw [hm, Machine.put_store, hout.store]
    exact Or.inr (Or.inr ⟨⟨rfl, rfl, rfl, rfl⟩, fun _ => rfl⟩)
  | opened _ hopen =>
    obtain ⟨rate, event, hstore⟩ := hopen.store
    rw [hstore]
    have hinit := hopen.initialized
    exact Or.inr (Or.inr ⟨(SameConfig.opened _ _ _ _).publish _, fun h => by simp [hinit] at h⟩)
  | redeemed _ _ _ hclose | rescued _ _ _ hclose =>
    obtain ⟨rate, event, hstore⟩ := hclose.store
    rw [hstore]
    have hinit := hclose.initialized
    exact Or.inr (Or.inr ⟨(SameConfig.closed _ _ _ _).publish _, fun h => by simp [hinit] at h⟩)
  | unwoundAll _ hout hm =>
    rw [hm, Machine.put_store, hout.store]
    refine Or.inr (Or.inr ⟨(SameConfig.halted _ _).publish _, fun _ => ?_⟩)
    rw [halted_eq]
    rfl
  | unwound _ hout hm =>
    rw [hm, Machine.put_store, hout.store]
    refine Or.inr (Or.inr ⟨?_, fun _ => ?_⟩)
    · exact ((SameConfig.recordToken _ _).trans (.halted _ _)).publish _
    · rw [halted_eq, recordToken_eq]
      rfl

/-- Once initialised the portfolio is valid and led by the adapter; before, nothing is set. -/
structure PortfolioHeld (s : State) : Prop where
  fresh : s.initialized = false → s.admin = none ∧ s.activeEscrows = 0
  valid : s.initialized = true → ValidPortfolio s.getStrategies
  adapter : s.initialized = true →
    s.adapter = s.getStrategies.head?.map StrategyAllocation.address

def State.strategyAddresses (s : State) : List Address :=
  s.getStrategies.map StrategyAllocation.address

lemma PortfolioHeld.setPortfolio {strategies : List StrategyAllocation} {event : Event}
    (hvalid : ValidPortfolio strategies) (hinit : s.initialized = true) :
    PortfolioHeld ((s.setPortfolio strategies).publish event) where
  fresh h := absurd (h.symm.trans hinit) (by decide)
  valid _ := hvalid
  adapter _ := by
    cases strategies with
    | nil => exact absurd rfl hvalid.nonempty
    | cons first rest => rfl

lemma PortfolioHeld.effect (h : PortfolioHeld m.store) (he : Effect d R env m m' op) :
    PortfolioHeld m'.store := by
  rcases he.config with ⟨-, admin, adapter, event, hstore⟩ |
    ⟨hadmin, strategies, event, hvalid, -, hstore⟩ | ⟨hconfig, hactive⟩
  · rw [hstore]
    exact ⟨fun hf => (nomatch hf), fun _ => .single adapter, fun _ => rfl⟩
  · rw [hstore]
    apply PortfolioHeld.setPortfolio hvalid
    by_contra hinit
    exact hadmin (h.fresh ((Bool.not_eq_true _).mp hinit)).1
  · refine ⟨fun hf => ?_, fun hi => ?_, fun hi => ?_⟩
    · rw [hconfig.initialized] at hf
      rw [hconfig.admin, hactive hf]
      exact h.fresh hf
    · rw [hconfig.initialized] at hi
      rw [hconfig.getStrategies]
      exact h.valid hi
    · rw [hconfig.initialized] at hi
      rw [hconfig.adapter, hconfig.getStrategies]
      exact h.adapter hi

lemma perm_of_same {current strategies : List StrategyAllocation}
    (hvalid : ValidPortfolio current) (h : sameStrategyAddresses current strategies = true) :
    (strategies.map StrategyAllocation.address).Perm
      (current.map StrategyAllocation.address) := by
  simp only [sameStrategyAddresses, Bool.and_eq_true, beq_iff_eq, List.all_eq_true,
    decide_eq_true_eq] at h
  obtain ⟨hlength, hmem⟩ := h
  have hsub : current.map StrategyAllocation.address ⊆ strategies.map StrategyAllocation.address := by
    intro a ha
    obtain ⟨s, hs, rfl⟩ := List.mem_map.mp ha
    exact hmem s hs
  have hsubperm := List.subperm_of_subset hvalid.distinct hsub
  exact (hsubperm.perm_of_length_le (by simp [hlength])).symm

/-- While an escrow is open the strategies are the same, whatever their weights and order. -/
lemma PortfolioHeld.addresses (h : PortfolioHeld m.store) (he : Effect d R env m m' op)
    (hactive : 0 < m.store.activeEscrows) :
    m'.store.strategyAddresses.Perm m.store.strategyAddresses := by
  have hinit : m.store.initialized = true := by
    by_contra hinit
    have hnone := (h.fresh ((Bool.not_eq_true _).mp hinit)).2
    omega
  rcases he.config with ⟨hfresh, -⟩ | ⟨-, strategies, event, -, hsame, hstore⟩ | ⟨hconfig, -⟩
  · rw [hfresh] at hinit
    cases hinit
  · rw [State.strategyAddresses, hstore]
    exact perm_of_same (h.valid hinit) (hsame hactive.ne')
  · rw [State.strategyAddresses, hconfig.getStrategies, State.strategyAddresses]

lemma step_portfolio (d : Deployment W) (move : Move W) (h : PortfolioHeld m.store) :
    PortfolioHeld (step d move m).store := by
  cases move with
  | outside f => exact h
  | call env op =>
    rcases step_cases d.keepsAnywhere env op m with heq | he
    · rwa [heq]
    · exact h.effect he

lemma after_portfolio (d : Deployment W) (world : W) (moves : List (Move W)) :
    PortfolioHeld (after d world moves).store :=
  run_invariant (I := fun m => PortfolioHeld m.store) (fun _ move h _ => step_portfolio d move h)
    ⟨fun _ => ⟨rfl, rfl⟩, fun h => (Bool.false_ne_true h).elim,
      fun h => (Bool.false_ne_true h).elim⟩
    (along_of_forall (step d) (fun _ _ => trivial) _ moves)

lemma step_addresses (d : Deployment W) (move : Move W) (h : PortfolioHeld m.store)
    (hactive : 0 < m.store.activeEscrows) :
    (step d move m).store.strategyAddresses.Perm m.store.strategyAddresses := by
  cases move with
  | outside f => exact .refl _
  | call env op =>
    rcases step_cases d.keepsAnywhere env op m with heq | he
    · rw [heq]
    · exact h.addresses he hactive

/-- Valid portfolios only, and the same strategies for as long as an escrow is open. -/
structure Portfolio (d : Deployment W) (m : Machine W) : Prop where
  count : m.store.initialized = true →
    1 ≤ m.store.getStrategies.length ∧ m.store.getStrategies.length ≤ 4
  distinct : m.store.initialized = true → m.store.strategyAddresses.Nodup
  positive : m.store.initialized = true → ∀ s ∈ m.store.getStrategies, 0 < s.weightBps
  total : m.store.initialized = true →
    (m.store.getStrategies.map StrategyAllocation.weightBps).sum = 10000
  adapter : m.store.initialized = true →
    ∃ first rest, m.store.getStrategies = first :: rest ∧ m.store.adapter = some first.address
  addresses : ∀ later, Along (step d) (fun m _ => 0 < m.store.activeEscrows) m later →
    (run (step d) m later).store.strategyAddresses.Perm m.store.strategyAddresses

/-- After any calls, in any world. -/
theorem portfolio_kept (d : Deployment W) (world : W) (moves : List (Move W)) :
    Portfolio d (after d world moves) where
  count h := by
    have hvalid := (after_portfolio d world moves).valid h
    exact ⟨List.length_pos_iff.mpr hvalid.nonempty, hvalid.few⟩
  distinct h := ((after_portfolio d world moves).valid h).distinct
  positive h := ((after_portfolio d world moves).valid h).positive
  total h := ((after_portfolio d world moves).valid h).total
  adapter h := by
    have hadapter := (after_portfolio d world moves).adapter h
    cases hl : (after d world moves).store.getStrategies with
    | nil => exact absurd hl ((after_portfolio d world moves).valid h).nonempty
    | cons first rest =>
      rw [hl] at hadapter
      exact ⟨first, rest, rfl, hadapter⟩
  addresses later hlater := by
    have hheld := after_portfolio d world moves
    generalize after d world moves = m at hheld hlater
    induction later generalizing m with
    | nil => exact .refl _
    | cons move later ih =>
      have hrest := ih _ (step_portfolio d move hheld) hlater.2
      exact hrest.trans (step_addresses d move hheld hlater.1)

end StellarTags.YieldEscrow
