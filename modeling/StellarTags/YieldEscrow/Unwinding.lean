import StellarTags.YieldEscrow.Books
import StellarTags.YieldEscrow.Pools

/-! What an emergency unwind pulls out of honest strategies, and what stays there for good. -/

namespace StellarTags.YieldEscrow

open Library.Transactions Library.Integers Library.Runs Soroban

variable {self strategy token other : Address} {strategies : List StrategyAllocation} {w : Pools}
  {m m' : Machine Pools} {env : Env} {op : Op}

section Drains

def Pools.drain (self token : Address) (w : Pools) (s : StrategyAllocation) : Pools :=
  w.draw self token (s.address, w.balance (s.address, token))

def Pools.drained (self token : Address) (w : Pools) (strategies : List StrategyAllocation) : Pools :=
  strategies.foldl (Pools.drain self token) w

lemma Pools.drain_eq (s : StrategyAllocation) : w.drain self token s =
    { w with
      principal := Function.update w.principal (s.address, token) 0
      accrued := Function.update w.accrued (s.address, token) 0
      holdings := Function.update w.holdings (token, self)
        (w.holdings (token, self) + w.balance (s.address, token)) } := by
  have hleft : w.yieldLeft token (s.address, w.balance (s.address, token)) = 0 := by
    rw [Pools.yieldLeft, Int.toNat_natCast, Pools.balance]
    exact Nat.sub_eq_zero_of_le (by dsimp only; omega)
  have hspent : w.principal (s.address, token) - w.balance (s.address, token) = 0 := by
    simp [Pools.balance]
  rw [Pools.drain, Pools.draw, hleft]
  simp [hspent]

lemma Pools.balance_drain (s : StrategyAllocation) : (w.drain self token s).balance =
    Function.update w.balance (s.address, token) 0 := by
  funext slot
  rw [Pools.drain_eq, Pools.balance]
  by_cases hslot : slot = (s.address, token)
  · simp [hslot]
  · simp [hslot, Pools.balance]

def Pools.wealth (self token : Address) (w : Pools) (strategies : List StrategyAllocation) : ℕ :=
  w.holdings (token, self) + (strategies.map fun s => w.balance (s.address, token)).sum

lemma Pools.balance_drained : (w.drained self token strategies).balance (strategy, other) =
    if other = token ∧ strategy ∈ strategies.map StrategyAllocation.address then 0
    else w.balance (strategy, other) := by
  induction strategies generalizing w with
  | nil => simp [Pools.drained]
  | cons s rest ih =>
    have hrest := ih (w := w.drain self token s)
    rw [Pools.drained, List.foldl_cons]
    rw [Pools.drained, Pools.balance_drain] at hrest
    rw [hrest]
    by_cases hother : other = token <;> by_cases hs : strategy = s.address <;>
      simp [hother, hs]

lemma Pools.holdings_drained (hother : other ≠ token) :
    (w.drained self token strategies).holdings (other, self) = w.holdings (other, self) := by
  induction strategies generalizing w with
  | nil => rfl
  | cons s rest ih =>
    have hrest := ih (w := w.drain self token s)
    rw [Pools.drained, List.foldl_cons]
    rw [Pools.drained] at hrest
    rw [hrest, Pools.drain_eq]
    simp [hother]

lemma Pools.vault_drained (hdistinct : (strategies.map StrategyAllocation.address).Nodup) :
    (w.drained self token strategies).holdings (token, self) = w.holdings (token, self) +
      (strategies.map fun s => w.balance (s.address, token)).sum := by
  induction strategies generalizing w with
  | nil => rfl
  | cons s rest ih =>
    rw [List.map_cons, List.nodup_cons] at hdistinct
    have hrest := ih (w := w.drain self token s) hdistinct.2
    have hsame : (rest.map fun r => (w.drain self token s).balance (r.address, token)) =
        rest.map fun r => w.balance (r.address, token) := by
      apply List.map_congr_left
      intro r hr
      have hne : r.address ≠ s.address := by
        intro heq
        exact hdistinct.1 (heq ▸ List.mem_map_of_mem hr)
      rw [Pools.balance_drain, Function.update_of_ne]
      simp [hne]
    rw [Pools.drained, List.foldl_cons, List.map_cons, List.sum_cons]
    rw [Pools.drained, hsame] at hrest
    rw [hrest, Pools.drain_eq]
    simp only [Function.update_self]
    ring

lemma Pools.wealth_drained (hdistinct : (strategies.map StrategyAllocation.address).Nodup) :
    (w.drained self token strategies).wealth self other strategies =
      w.wealth self other strategies := by
  rw [Pools.wealth, Pools.wealth]
  by_cases hother : other = token
  · subst hother
    have hempty : (strategies.map fun s =>
        (w.drained self other strategies).balance (s.address, other)).sum = 0 := by
      apply List.sum_eq_zero
      intro n hn
      obtain ⟨s, hs, rfl⟩ := List.mem_map.mp hn
      rw [Pools.balance_drained, if_pos ⟨rfl, List.mem_map_of_mem hs⟩]
    rw [hempty, Pools.vault_drained hdistinct, add_zero]
  · simp only [Pools.holdings_drained hother, Pools.balance_drained, hother, false_and, if_false]

def Pools.unwound (self : Address) (strategies : List StrategyAllocation) (w : Pools)
    (tokens : List Address) : Pools :=
  tokens.foldl (fun w token => w.drained self token strategies) w

lemma Pools.balance_unwound (tokens : List Address) :
    (w.unwound self strategies tokens).balance (strategy, other) =
      if other ∈ tokens ∧ strategy ∈ strategies.map StrategyAllocation.address then 0
      else w.balance (strategy, other) := by
  induction tokens generalizing w with
  | nil => simp [Pools.unwound]
  | cons token rest ih =>
    have hrest := ih (w := w.drained self token strategies)
    rw [Pools.unwound, List.foldl_cons]
    rw [Pools.unwound, Pools.balance_drained] at hrest
    rw [hrest]
    by_cases hother : other = token <;>
      by_cases hs : strategy ∈ strategies.map StrategyAllocation.address <;> simp [hother, hs]

lemma Pools.wealth_unwound (hdistinct : (strategies.map StrategyAllocation.address).Nodup)
    (tokens : List Address) :
    (w.unwound self strategies tokens).wealth self other strategies =
      w.wealth self other strategies := by
  induction tokens generalizing w with
  | nil => rfl
  | cons token rest ih =>
    have hrest := ih (w := w.drained self token strategies)
    rw [Pools.unwound, List.foldl_cons]
    rw [Pools.unwound, Pools.wealth_drained hdistinct] at hrest
    exact hrest

end Drains

section Unwinds

lemma getVaultBalance_honest {k : ℤ} (h : getVaultBalance (honest self) token m = .ok (k, m')) :
    m' = m := by
  simp only [getVaultBalance, Tx.bind_ok, ask_ok, Tx.pure_ok, honest, Pools.report_ok] at h
  obtain ⟨_, _, ⟨_, ⟨-, rfl⟩, rfl⟩, -, rfl⟩ := h
  rfl

lemma drains_honest {u : Unit} (h : Tx.forEach (fun s : StrategyAllocation => do
      let balance ← getBalance (honest self) s.address token
      Tx.whenever (0 < balance) (withdraw (honest self) s.address token balance)
      Tx.void (harvest (honest self) s.address token)) strategies m = .ok (u, m')) :
    m' = m.turn (m.world.drained self token strategies) := by
  induction strategies generalizing m with
  | nil => exact Tx.forEach_nil.mp h
  | cons s rest ih =>
    obtain ⟨m₁, hs, hrest⟩ := Tx.forEach_cons.mp h
    rw [Tx.bind_iff fun _ _ => getBalance_honest, Tx.void, draw_bind_ok (by positivity)] at hs
    obtain ⟨-, -, -, hs⟩ := hs
    obtain ⟨-, rfl⟩ := Tx.pure_ok.mp hs
    exact ih hrest

lemma unwindTokenFromStrategies_honest {k : ℤ}
    (h : unwindTokenFromStrategies (honest self) token strategies m = .ok (k, m')) :
    m' = m.turn (m.world.drained self token strategies) := by
  simp only [unwindTokenFromStrategies, Tx.bind_ok, checked_ok] at h
  obtain ⟨before, m₁, hbefore, _, m₂, hdrains, after, m₃, hafter, -, -, rfl⟩ := h
  obtain rfl := getVaultBalance_honest hbefore
  obtain rfl := getVaultBalance_honest hafter
  exact drains_honest hdrains

lemma unwindAll_honest {tokens : List Address} {total k : ℤ} (h : Tx.fold (fun total token => do
      let recovered ← unwindTokenFromStrategies (honest self) token strategies
      checked (total + recovered)) total tokens m = .ok (k, m')) :
    m' = m.turn (m.world.unwound self strategies tokens) := by
  induction tokens generalizing m total with
  | nil => exact (Tx.fold_nil.mp h).2
  | cons token rest ih =>
    obtain ⟨next, m₁, htoken, hrest⟩ := Tx.fold_cons.mp h
    obtain ⟨recovered, m₂, hunwind, hchecked⟩ := Tx.bind_ok.mp htoken
    obtain rfl := unwindTokenFromStrategies_honest hunwind
    obtain ⟨-, -, rfl⟩ := checked_ok.mp hchecked
    exact ih hrest

def Op.Unwinds (op : Op) (token : Address) : Prop :=
  (∃ k, op = .emergencyUnwindStrategy k) ∨ ∃ k, op = .emergencyUnwindToken token k

lemma unwind_ok (hop : op.Unwinds token) (h : op.invoke (honest self) env m = .ok ((), m')) :
    m.store.initialized = true ∧ m.store.emergencyVaultMode = false ∧
      m'.store.initialized = true ∧ m'.store.emergencyVaultMode = true ∧
      m'.store.getStrategies = m.store.getStrategies ∧
      m'.store.totalPrincipal = m.store.totalPrincipal ∧
      (((∃ k, op = .emergencyUnwindStrategy k) ∧
          m'.world = m.world.unwound self m.store.getStrategies m.store.tokens) ∨
        (∃ k, op = .emergencyUnwindToken token k) ∧
          m'.world = m.world.drained self token m.store.getStrategies) := by
  have hhalted (s : State) (tokens : List Address) (event : Event) :
      ((s.halted env tokens).publish event).initialized = s.initialized ∧
        ((s.halted env tokens).publish event).emergencyVaultMode = true ∧
        ((s.halted env tokens).publish event).getStrategies = s.getStrategies := by
    rw [halted_eq]
    exact ⟨rfl, rfl, rfl⟩
  rcases hop with ⟨k, rfl⟩ | ⟨k, rfl⟩
  · obtain ⟨r, h⟩ := Tx.void_ok.mp h
    obtain ⟨hinit, hnormal, m₁, event, hfold, rfl⟩ := emergencyUnwindStrategy_ok h
    obtain rfl := unwindAll_honest hfold
    obtain ⟨hsame, hmode, hstrategies⟩ := hhalted m.store m.store.tokens event
    exact ⟨hinit, hnormal, hsame.trans hinit, hmode, hstrategies,
      State.totalPrincipal_halted _ _ _, Or.inl ⟨⟨k, rfl⟩, rfl⟩⟩
  · obtain ⟨r, h⟩ := Tx.void_ok.mp h
    obtain ⟨hinit, hnormal, m₁, event, hunwind, rfl⟩ := emergencyUnwindToken_ok h
    obtain rfl := unwindTokenFromStrategies_honest hunwind
    obtain ⟨hsame, hmode, hstrategies⟩ := hhalted (m.store.recordToken token) [token] event
    have hrecorded : (m.store.recordToken token).initialized = m.store.initialized := by
      rw [recordToken_eq]
    have htotal : (m.store.recordToken token).totalPrincipal = m.store.totalPrincipal := by
      rw [recordToken_eq]
      rfl
    exact ⟨hinit, hnormal, hsame.trans (hrecorded.trans hinit), hmode,
      hstrategies.trans (getStrategies_recordToken _ _),
      (State.totalPrincipal_halted _ _ _).trans htotal, Or.inr ⟨⟨k, rfl⟩, rfl⟩⟩

end Unwinds

section Invariants

variable {W : Type} {d : Deployment W} {R : W → W → Prop} {m m' : Machine W} {s : State}

lemma mem_recordToken : other ∈ (s.recordToken token).tokens ↔ other = token ∨ other ∈ s.tokens := by
  rw [State.recordToken]
  split_ifs with h
  · constructor
    · exact Or.inr
    · rintro (rfl | hother)
      · exact h
      · exact hother
  · simp [or_comm]

lemma tokens_halted (s : State) (tokens : List Address) (event : Event) :
    ((s.halted env tokens).publish event).tokens = s.tokens := by
  rw [halted_eq]
  rfl

lemma closed_lasting (s : State) (escrowId : ℕ) (record : Escrow) (y : YieldState) (event : Event) :
    ((s.closed escrowId record y).publish event).initialized = s.initialized ∧
      ((s.closed escrowId record y).publish event).tokens = s.tokens ∧
      ((s.closed escrowId record y).publish event).emergencyVaultMode = s.emergencyVaultMode := by
  rw [closed_eq]
  exact ⟨rfl, rfl, rfl⟩

/-- Tokens are remembered, and the emergency lasts. -/
lemma Effect.lasting (h : Effect d R env m m' op) (hinit : m.store.initialized = true) :
    m'.store.initialized = true ∧ (∀ t ∈ m.store.tokens, t ∈ m'.store.tokens) ∧
      (m.store.emergencyVaultMode = true → m'.store.emergencyVaultMode = true) := by
  cases h with
  | initialised hfresh _ => simp [hinit] at hfresh
  | ported _ _ _ _ hm | thresholded _ hm =>
    rw [hm]
    exact ⟨hinit, fun _ ht => ht, fun he => he⟩
  | looked _ hout =>
    rw [hout.store]
    exact ⟨hinit, fun _ ht => ht, fun he => he⟩
  | rebalanced _ hout hm | checkpointed hout _ hm =>
    rw [hm, Machine.put_store, hout.store]
    exact ⟨hinit, fun _ ht => ht, fun he => he⟩
  | opened _ hopen =>
    obtain ⟨rate, event, hstore⟩ := hopen.store
    have hnormal := hopen.normal
    rw [hstore, opened_eq]
    exact ⟨hinit, fun _ ht => mem_recordToken.mpr (Or.inr ht), fun he => by simp [hnormal] at he⟩
  | redeemed _ _ _ hclose | rescued _ _ _ hclose =>
    obtain ⟨rate, event, hstore⟩ := hclose.store
    obtain ⟨hsame, htokens, hmode⟩ := closed_lasting m.store _ _ _ event
    rw [hstore, hsame, htokens, hmode]
    exact ⟨hinit, fun _ ht => ht, fun he => he⟩
  | unwoundAll _ hout hm =>
    rw [hm, Machine.put_store, hout.store]
    refine ⟨?_, fun t ht => ?_, fun _ => ?_⟩
    · rw [halted_eq]
      exact hinit
    · rwa [tokens_halted]
    · rw [halted_eq]
      rfl
  | @unwound token _ _ _ _ hout hm =>
    rw [hm, Machine.put_store, hout.store]
    refine ⟨?_, fun t ht => ?_, fun _ => ?_⟩
    · rw [halted_eq, recordToken_eq]
      exact hinit
    · rw [tokens_halted]
      exact mem_recordToken.mpr (Or.inr ht)
    · rw [halted_eq]
      rfl

lemma Effect.declares (h : Effect d R env m m' op) (hnormal : m.store.emergencyVaultMode = false)
    (hemergency : m'.store.emergencyVaultMode = true) : ∃ token, op.Unwinds token := by
  have hkept : m'.store.emergencyVaultMode = m.store.emergencyVaultMode → ∃ token, op.Unwinds token := by
    intro hsame
    rw [hsame, hnormal] at hemergency
    cases hemergency
  cases h with
  | initialised _ hm =>
    rw [hm] at hemergency
    cases hemergency
  | ported _ _ _ _ hm | thresholded _ hm => exact hkept (by rw [hm]; rfl)
  | looked _ hout => exact hkept (by rw [hout.store])
  | rebalanced _ hout hm | checkpointed hout _ hm =>
    exact hkept (by rw [hm, Machine.put_store, hout.store]; rfl)
  | opened _ hopen =>
    obtain ⟨rate, event, hstore⟩ := hopen.store
    apply hkept
    rw [hstore, opened_eq]
    rfl
  | redeemed _ _ _ hclose | rescued _ _ _ hclose =>
    obtain ⟨rate, event, hstore⟩ := hclose.store
    exact hkept (by rw [hstore, (closed_lasting m.store _ _ _ event).2.2])
  | unwoundAll _ _ _ => exact ⟨⟨0⟩, Or.inl ⟨_, rfl⟩⟩
  | unwound _ _ _ => exact ⟨_, Or.inr ⟨_, rfl⟩⟩

lemma step_totalPrincipal (move : Move W) (hheld : PortfolioHeld m.store)
    (hbalanced : Balanced m.store) (hemergency : m.store.emergencyVaultMode = true)
    (token : Address) : (step d move m).store.totalPrincipal token ≤ m.store.totalPrincipal token := by
  cases move with
  | outside f => exact le_rfl
  | call env op =>
    rcases step_cases d.keepsAnywhere env op m with heq | he
    · rw [heq]
    generalize step d (.call env op) m = m' at he
    rcases he.books fun h => (hheld.fresh h).2 with ⟨-, hsame, -⟩ | ⟨id, r, -, hopened, -⟩ |
      ⟨id, r, settled, party, payments, -, -, hcloses, -⟩
    · rw [hsame.totalPrincipal]
    · have hnormal := hopened.normal
      simp [hemergency] at hnormal
    · have hr := hbalanced.positive id r hcloses.found
      rw [hcloses.totalPrincipal]
      by_cases htoken : token = r.token
      · rw [htoken, Function.update_self]
        omega
      · rw [Function.update_of_ne htoken]

lemma step_emergency (move : Move W)
    (h : m.store.initialized = true ∧ m.store.emergencyVaultMode = true) :
    (step d move m).store.initialized = true ∧ (step d move m).store.emergencyVaultMode = true := by
  cases move with
  | outside f => exact h
  | call env op =>
    rcases step_cases d.keepsAnywhere env op m with heq | he
    · rwa [heq]
    · obtain ⟨hinit, -, hemergency⟩ := he.lasting h.1
      exact ⟨hinit, hemergency h.2⟩

/-- Every token that active escrows hold is on the list. -/
def Recorded (s : State) : Prop := ∀ token, 0 < s.totalPrincipal token → token ∈ s.tokens

lemma Balanced.totalPrincipal_of_none (hs : Balanced s) (hnone : s.activeEscrows = 0)
    (token : Address) : s.totalPrincipal token = 0 := by
  have hopen : s.openEscrows = ∅ := by
    rw [← Set.ncard_eq_zero hs.finite, hs.count, hnone]
  have hlocked : s.locked token = fun _ => 0 := by
    funext id
    rw [State.locked]
    cases hid : s.escrow id with
    | none => rfl
    | some r =>
      have hclosed : ¬ r.isActive = true := by
        intro hactive
        have hmem : id ∈ s.openEscrows := ⟨r, hid, hactive⟩
        simp [hopen] at hmem
      simp [hclosed]
  rw [← (hs.principal token).sum, hlocked, finsum_zero]

lemma Recorded.step (move : Move W) (hheld : PortfolioHeld m.store) (hbalanced : Balanced m.store)
    (h : Recorded m.store) : Recorded (step d move m).store := by
  cases move with
  | outside f => exact h
  | call env op =>
    rcases step_cases d.keepsAnywhere env op m with heq | he
    · rwa [heq]
    generalize YieldEscrow.step d (.call env op) m = m' at he
    intro token hpos
    have hold (hpos : 0 < m.store.totalPrincipal token) : token ∈ m'.store.tokens := by
      cases hinit : m.store.initialized with
      | true => exact (he.lasting hinit).2.1 token (h token hpos)
      | false =>
        have hzero := hbalanced.totalPrincipal_of_none (hheld.fresh hinit).2 token
        omega
    rcases he.books fun h => (hheld.fresh h).2 with ⟨-, hsame, -⟩ | ⟨id, r, -, hopened, hopens⟩ |
      ⟨id, r, settled, party, payments, -, -, hcloses, -⟩
    · rw [hsame.totalPrincipal] at hpos
      exact hold hpos
    · rw [hopens.totalPrincipal] at hpos
      by_cases htoken : token = r.token
      · obtain ⟨rate, event, hstore⟩ := hopened.store
        rw [hstore, opened_eq]
        exact mem_recordToken.mpr (Or.inl htoken)
      · rw [Function.update_of_ne htoken] at hpos
        exact hold hpos
    · rw [hcloses.totalPrincipal] at hpos
      have hr := hbalanced.positive id r hcloses.found
      apply hold
      by_cases htoken : token = r.token
      · rw [htoken, Function.update_self] at hpos
        rw [htoken]
        omega
      · rwa [Function.update_of_ne htoken] at hpos

lemma after_recorded (d : Deployment W) (world : W) (moves : List (Move W)) :
    Recorded (after d world moves).store := by
  have hstart : Recorded {} := fun _ h => absurd h (lt_irrefl 0)
  have hrun : Along (YieldEscrow.step d)
      (fun m _ => PortfolioHeld m.store ∧ Balanced m.store) ⟨{}, [], world⟩ moves := by
    apply along_reachable (P := fun _ _ => True) _ (along_of_forall _ (fun _ _ => trivial) _ _)
    rintro m move ⟨before, rfl⟩ -
    exact ⟨after_portfolio d world before, (after_accounted d world before).1.2⟩
  exact run_invariant (I := fun m => Recorded m.store) (fun _ move h hm => h.step move hm.1 hm.2)
    hstart hrun

end Invariants

section Completeness

/-- The strategies have nothing of the token any more, and the vault has all that they had. -/
structure Pulled (vault : Address) (m m' : Machine Pools) (token : Address) : Prop where
  empty : ∀ s ∈ m'.store.getStrategies, m'.world.balance (s.address, token) = 0
  vault : m'.world.holdings (token, vault) = m.world.wealth vault token m.store.getStrategies

/-- The token's balance at the strategies has been pulled, or a later unwind of it can succeed. -/
def Recovers (vault : Address) (m m' : Machine Pools) (token : Address) : Prop :=
  Pulled vault m m' token ∨ ∃ later env op, Op.Unwinds op token ∧
    Tx.succeeds (op.invoke (honest vault) env) (run (step (honest vault)) m' later) = true

/-- An unwind recovers every token with active principal. -/
def Completes (vault : Address) (m : Machine Pools) (move : Move Pools) : Prop :=
  ∀ env op unwound, move = .call env op → op.Unwinds unwound →
    Tx.succeeds (op.invoke (honest vault) env) m = true →
      ∀ token, 0 < (step (honest vault) move m).store.totalPrincipal token →
        Recovers vault m (step (honest vault) move m) token

/-- A token is unwound alone only if the strategies have nothing of the others with active
principal. -/
def TakesAll (vault : Address) (m : Machine Pools) (move : Move Pools) : Prop :=
  ∀ env unwound k, move = .call env (.emergencyUnwindToken unwound k) →
    Tx.succeeds ((Op.emergencyUnwindToken unwound k).invoke (honest vault) env) m = true →
      ∀ token, token ≠ unwound → 0 < m.store.totalPrincipal token →
        ∀ s ∈ m.store.getStrategies, m.world.balance (s.address, token) = 0

/-- In an emergency no unwind ever succeeds. -/
lemma no_later_unwind {later : List (Move Pools)}
    (h : m.store.initialized = true ∧ m.store.emergencyVaultMode = true) (hop : op.Unwinds token) :
    Tx.succeeds (op.invoke (honest self) env) (run (step (honest self)) m later) = false := by
  have hrun := run_invariant (I := fun m : Machine Pools =>
      m.store.initialized = true ∧ m.store.emergencyVaultMode = true)
    (fun _ move h _ => step_emergency (d := honest self) move h) h
    (along_of_forall (step (honest self)) (fun _ _ => trivial) m later)
  by_contra hsucceeds
  obtain ⟨m', hinvoke⟩ := Tx.succeeds_unit.mp ((Bool.not_eq_false _).mp hsucceeds)
  have hnormal := (unwind_ok hop hinvoke).2.1
  simp [hrun.2] at hnormal

lemma wealth_empty (h : ∀ s ∈ strategies, w.balance (s.address, token) = 0) :
    w.wealth self token strategies = w.holdings (token, self) := by
  have hsum : (strategies.map fun s => w.balance (s.address, token)).sum = 0 := by
    apply List.sum_eq_zero
    intro n hn
    obtain ⟨s, hs, rfl⟩ := List.mem_map.mp hn
    exact h s hs
  rw [Pools.wealth, hsum, add_zero]

lemma pulled_of_empty (hstrategies : m'.store.getStrategies = m.store.getStrategies)
    (hwealth : m'.world.wealth self token m.store.getStrategies =
      m.world.wealth self token m.store.getStrategies)
    (hempty : ∀ s ∈ m.store.getStrategies, m'.world.balance (s.address, token) = 0) :
    Pulled self m m' token where
  empty := by rwa [hstrategies]
  vault := by rw [← hwealth, wealth_empty hempty]

lemma TakesAll.pulled {move : Move Pools} (h : TakesAll self m move) (hheld : PortfolioHeld m.store)
    (hrecorded : Recorded m.store) {unwound : Address} (hmove : move = .call env op)
    (hop : op.Unwinds unwound) (hsucceeds : Tx.succeeds (op.invoke (honest self) env) m = true)
    (hpos : 0 < (step (honest self) move m).store.totalPrincipal token) :
    Pulled self m (step (honest self) move m) token := by
  obtain ⟨m', hinvoke⟩ := Tx.succeeds_unit.mp hsucceeds
  have hstep : step (honest self) move m = m' := by
    rw [hmove]
    exact Tx.commit_ok hinvoke
  obtain ⟨hinit, -, -, -, hstrategies, htotal, hworld⟩ := unwind_ok hop hinvoke
  have hdistinct := (hheld.valid hinit).distinct
  rw [hstep] at hpos ⊢
  rw [htotal] at hpos
  rcases hworld with ⟨-, hworld⟩ | ⟨⟨k, rfl⟩, hworld⟩
  · apply pulled_of_empty hstrategies
    · rw [hworld, Pools.wealth_unwound hdistinct]
    · intro s hs
      rw [hworld, Pools.balance_unwound, if_pos ⟨hrecorded token hpos, List.mem_map_of_mem hs⟩]
  · apply pulled_of_empty hstrategies
    · rw [hworld, Pools.wealth_drained hdistinct]
    · intro s hs
      rw [hworld, Pools.balance_drained]
      split_ifs with hslot
      · rfl
      · have hother : token ≠ unwound := fun heq => hslot ⟨heq, List.mem_map_of_mem hs⟩
        exact h env unwound k hmove hsucceeds token hother hpos s hs

lemma completes_iff (hheld : PortfolioHeld m.store) (hrecorded : Recorded m.store)
    (move : Move Pools) : Completes self m move ↔ TakesAll self m move := by
  constructor
  · intro h env unwound k hmove hsucceeds token hother hpos s hs
    have hop : (Op.emergencyUnwindToken unwound k).Unwinds unwound := Or.inr ⟨k, rfl⟩
    obtain ⟨m', hinvoke⟩ := Tx.succeeds_unit.mp hsucceeds
    have hstep : step (honest self) move m = m' := by
      rw [hmove]
      exact Tx.commit_ok hinvoke
    obtain ⟨-, -, hinit, hemergency, hstrategies, htotal, hworld⟩ := unwind_ok hop hinvoke
    have hrecovers := h env _ unwound hmove hop hsucceeds token
    rw [hstep, htotal] at hrecovers
    rcases hrecovers hpos with hpulled | ⟨later, env, op, hunwinds, hlater⟩
    · have hempty := hpulled.empty s (by rwa [hstrategies])
      rcases hworld with ⟨⟨k, hk⟩, -⟩ | ⟨-, hworld⟩
      · cases hk
      · rw [hworld, Pools.balance_drained, if_neg (fun h => hother h.1)] at hempty
        exact hempty
    · rw [no_later_unwind ⟨hinit, hemergency⟩ hunwinds] at hlater
      cases hlater
  · intro h env op unwound hmove hop hsucceeds token hpos
    exact Or.inl (h.pulled hheld hrecorded hmove hop hsucceeds hpos)

/-- Some unwind of the run declared the emergency, and then every token that has active principal
now was pulled. -/
def EmergencyPulled (vault : Address) (world : Pools) (moves : List (Move Pools)) : Prop :=
  ∃ before env op unwound rest, moves = before ++ .call env op :: rest ∧ Op.Unwinds op unwound ∧
    ∀ token, 0 < (after (honest vault) world moves).store.totalPrincipal token →
      Pulled vault (after (honest vault) world before)
        (after (honest vault) world (before ++ [.call env op])) token

lemma after_snoc {W : Type} (d : Deployment W) (world : W) (moves : List (Move W)) (move : Move W) :
    after d world (moves ++ [move]) = step d move (after d world moves) := by
  simp [after, run]

lemma emergencyPulled_of_takesAll (world : Pools) (moves : List (Move Pools))
    (h : Along (step (honest self)) (TakesAll self) ⟨{}, [], world⟩ moves)
    (hemergency : (after (honest self) world moves).store.emergencyVaultMode = true) :
    EmergencyPulled self world moves := by
  induction moves using List.reverseRecOn with
  | nil => cases hemergency
  | append_singleton moves move ih =>
    obtain ⟨hbefore, hlast⟩ := (along_append _ _ _ _ _).mp h
    have hheld := after_portfolio (honest self) world moves
    have hbalanced := (after_accounted (honest self) world moves).1.2
    have hrecorded := after_recorded (honest self) world moves
    have hsnoc := after_snoc (honest self) world moves move
    cases hmode : (after (honest self) world moves).store.emergencyVaultMode with
    | true =>
      obtain ⟨before, env, op, unwound, rest, hmoves, hop, hpulled⟩ := ih hbefore hmode
      refine ⟨before, env, op, unwound, rest ++ [move], by simp [hmoves], hop, fun token hpos => ?_⟩
      rw [hsnoc] at hpos
      exact hpulled token (hpos.trans_le (step_totalPrincipal move hheld hbalanced hmode token))
    | false =>
      rw [hsnoc] at hemergency
      cases move with
      | outside f =>
        have hsame : (step (honest self) (.outside f)
            (after (honest self) world moves)).store.emergencyVaultMode = false := hmode
        simp [hsame] at hemergency
      | call env op =>
        cases hsucceeds : Tx.succeeds (op.invoke (honest self) env)
            (after (honest self) world moves) with
        | false =>
          rw [step, Tx.commit_of_fails hsucceeds, hmode] at hemergency
          cases hemergency
        | true =>
          obtain ⟨_, hinvoke⟩ := Tx.succeeds_iff.mp hsucceeds
          have heffect := op.invoke_effect (honest self).keepsAnywhere hinvoke
          obtain ⟨unwound, hop⟩ := heffect.declares hmode hemergency
          refine ⟨moves, env, op, unwound, [], rfl, hop, fun token hpos => ?_⟩
          rw [hsnoc] at hpos ⊢
          exact hlast.1.pulled hheld hrecorded rfl hop hsucceeds hpos

/-- Every unwind of a run recovers all active principal if and only if none leaves that of another
token behind; and then in every state in an emergency it has been pulled. -/
theorem unwinding_complete_iff (self : Address) (world : Pools) (moves : List (Move Pools)) :
    (Along (step (honest self)) (Completes self) ⟨{}, [], world⟩ moves ↔
      Along (step (honest self)) (TakesAll self) ⟨{}, [], world⟩ moves) ∧
    (Along (step (honest self)) (TakesAll self) ⟨{}, [], world⟩ moves →
      (after (honest self) world moves).store.emergencyVaultMode = true →
        EmergencyPulled self world moves) := by
  have hstep : ∀ m move, Reachable (step (honest self)) ⟨{}, [], world⟩ m →
      (Completes self m move ↔ TakesAll self m move) := by
    rintro m move ⟨before, rfl⟩
    exact completes_iff (after_portfolio (honest self) world before)
      (after_recorded (honest self) world before) move
  refine ⟨⟨?_, ?_⟩, emergencyPulled_of_takesAll world moves⟩
  · exact along_reachable fun m move hr h => (hstep m move hr).mp h
  · exact along_reachable fun m move hr h => (hstep m move hr).mpr h

section Examples

def wealthy : Pools := { tenth with holdings := fun slot => if slot.2 = ⟨2⟩ then 10000 else 0 }

def halfUnwound : List (Move Pools) :=
  [.call signed (.initialise ⟨1⟩ ⟨7⟩), create 1,
    .call signed (.createEscrow 2 ⟨2⟩ ⟨3⟩ ⟨10⟩ ⟨1000, fitsI128_thousand⟩ 10 5000),
    .call signed (.emergencyUnwindToken ⟨9⟩ ⟨0, fitsI128_zero⟩)]

/-- The other's principal stays with the strategy: no unwind of it ever succeeds. -/
theorem other_token_stranded :
    (after (honest ⟨0⟩) wealthy halfUnwound).store.emergencyVaultMode = true ∧
    (after (honest ⟨0⟩) wealthy halfUnwound).store.totalPrincipal ⟨10⟩ = 1000 ∧
    (after (honest ⟨0⟩) wealthy halfUnwound).world.balance (⟨7⟩, ⟨10⟩) = 1000 ∧
    (after (honest ⟨0⟩) wealthy halfUnwound).world.holdings (⟨10⟩, ⟨0⟩) = 0 ∧
    ∀ later env op, Op.Unwinds op ⟨10⟩ → Tx.succeeds (op.invoke (honest ⟨0⟩) env)
      (run (step (honest ⟨0⟩)) (after (honest ⟨0⟩) wealthy halfUnwound) later) = false := by
  have hmode : (after (honest ⟨0⟩) wealthy halfUnwound).store.initialized = true ∧
      (after (honest ⟨0⟩) wealthy halfUnwound).store.emergencyVaultMode = true := by decide +kernel
  refine ⟨hmode.2, by decide +kernel, by decide +kernel, by decide +kernel, fun later env op hop => ?_⟩
  exact no_later_unwind hmode hop

end Examples

end Completeness

end StellarTags.YieldEscrow
