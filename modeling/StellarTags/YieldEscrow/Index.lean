import StellarTags.YieldEscrow.Books
import StellarTags.YieldEscrow.Pools

/-! How far the yield index gets does not depend on who brings it up to date, or how often. -/

namespace StellarTags.YieldEscrow

open Library.Transactions Library.Integers Library.Runs Soroban

variable {W : Type} {d : Deployment W} {R : W → W → Prop} {m m' : Machine W} {env : Env} {op : Op}
  {s t : State} {token : Address} {y z : YieldState} {record : Escrow}

section Arithmetic

variable {i j n : ℤ}

lemma growth_eq (y : YieldState) (now : ℕ) : y.growth now =
    indexScale * y.rateBps * (now - y.updatedAt : ℕ) / (secondsPerYear * bpsDenominator) := by
  apply Int.tdiv_eq_ediv_of_nonneg
  rw [indexScale]
  positivity

lemma growth_nonneg (y : YieldState) (now : ℕ) : 0 ≤ y.growth now := by
  rw [growth_eq]
  apply Int.ediv_nonneg
  · rw [indexScale]
    positivity
  · simp [secondsPerYear, bpsDenominator]

/-- Accrual in two steps loses less than one unit to rounding, and gains none. -/
lemma growth_split (hrate : z.rateBps = y.rateBps) (hyz : y.updatedAt ≤ z.updatedAt) {now : ℕ}
    (hnow : z.updatedAt ≤ now) :
    y.growth z.updatedAt + z.growth now ≤ y.growth now ∧
      y.growth now ≤ y.growth z.updatedAt + z.growth now + 1 := by
  rw [growth_eq, growth_eq, growth_eq, hrate]
  have hspan : ((now - y.updatedAt : ℕ) : ℤ) =
      (z.updatedAt - y.updatedAt : ℕ) + (now - z.updatedAt : ℕ) := by omega
  rw [hspan, mul_add]
  generalize indexScale * y.rateBps * (z.updatedAt - y.updatedAt : ℕ) = a
  generalize indexScale * y.rateBps * (now - z.updatedAt : ℕ) = b
  simp only [secondsPerYear, bpsDenominator]
  omega

lemma tdiv_indexScale (a : ℤ) :
    a.tdiv indexScale = if 0 ≤ a then a / indexScale else -(-a / indexScale) := by
  split_ifs with ha
  · exact Int.tdiv_eq_ediv_of_nonneg ha
  · rw [← Int.tdiv_eq_ediv_of_nonneg (by omega), Int.neg_tdiv, neg_neg]

lemma tdiv_indexScale_mono {a b : ℤ} (h : a ≤ b) : a.tdiv indexScale ≤ b.tdiv indexScale := by
  rw [tdiv_indexScale, tdiv_indexScale, indexScale]
  split_ifs <;> omega

lemma tdiv_indexScale_add (a : ℤ) {b : ℤ} (hb : 0 ≤ b) :
    (a + b).tdiv indexScale ≤ a.tdiv indexScale + (b / indexScale + 1) := by
  rw [tdiv_indexScale, tdiv_indexScale, indexScale]
  split_ifs <;> omega

lemma yieldAt_mono_index (hp : 0 ≤ record.principal) (h : i ≤ j) :
    record.yieldAt i ≤ record.yieldAt j := by
  apply tdiv_indexScale_mono
  exact mul_le_mul_of_nonneg_left (by omega) hp

lemma yieldAt_mono_principal (hi : record.rewardDebt ≤ i) (h : record.principal ≤ n) :
    record.yieldAt i ≤ { record with principal := n }.yieldAt i := by
  apply tdiv_indexScale_mono
  exact mul_le_mul_of_nonneg_right h (by omega)

lemma yieldAt_lag (hp : 0 ≤ record.principal) (hn : 0 ≤ n) (h : j ≤ i + n) :
    record.yieldAt j ≤ record.yieldAt i + (record.principal * n / indexScale + 1) := by
  have hj : record.yieldAt j ≤ record.yieldAt (i + n) := yieldAt_mono_index hp h
  have hsplit : record.principal * (i + n - record.rewardDebt) =
      record.principal * (i - record.rewardDebt) + record.principal * n := by ring
  rw [Escrow.yieldAt.eq_1 record (i + n), hsplit] at hj
  exact hj.trans (tdiv_indexScale_add _ (mul_nonneg hp hn))

end Arithmetic

section Steps

/-- What a call may do to the yield state of a token. -/
inductive YieldStep (now : ℕ) (y z : YieldState) : Prop
  | kept (hindex : z.index = y.index) (hupdated : z.updatedAt = y.updatedAt)
  | grown (htimely : y.updatedAt ≤ now) (hindex : z.index = y.index + y.growth now)
    (hupdated : z.updatedAt = now)
  | halted (hindex : z.index = y.index) (hupdated : z.updatedAt = now) (hrate : z.rateBps = 0)

lemma YieldStep.index_le {now : ℕ} (h : YieldStep now y z) : y.index ≤ z.index := by
  cases h with
  | kept hindex _ => exact hindex.ge
  | grown _ hindex _ =>
    have hgrowth := growth_nonneg y now
    omega
  | halted hindex _ _ => exact hindex.ge

lemma yieldNow_of_some (hy : s.yieldState token = some y) : s.yieldNow env token = y := by
  rw [State.yieldNow, hy, Option.getD_some]

lemma yieldStep_of_update {a : Address} {now : ℕ} (hy : s.yieldState token = some y)
    (ht : t.yieldState = Function.update s.yieldState a (some z))
    (hz : s.yieldState a = some y → YieldStep now y z) :
    ∃ z, t.yieldState token = some z ∧ YieldStep now y z := by
  by_cases ha : token = a
  · subst ha
    exact ⟨z, by rw [ht, Function.update_self], hz hy⟩
  · exact ⟨y, by rw [ht, Function.update_of_ne ha, hy], .kept rfl rfl⟩

lemma yieldStep_of_eq {now : ℕ} (hy : s.yieldState token = some y)
    (ht : t.yieldState = s.yieldState) : ∃ z, t.yieldState token = some z ∧ YieldStep now y z :=
  ⟨y, by rw [ht, hy], .kept rfl rfl⟩

lemma foldl_halt_yieldState (s : State) (env : Env) (tokens : List Address) (token : Address) :
    (tokens.foldl (State.halt env) s).yieldState token = s.yieldState token ∨
      (tokens.foldl (State.halt env) s).yieldState token = (s.yieldState token).map
        fun y => { y with rateBps := 0, updatedAt := env.timestamp } := by
  induction tokens generalizing s with
  | nil => exact Or.inl rfl
  | cons first rest ih =>
    have hone : (s.halt env first).yieldState token = s.yieldState token ∨
        (s.halt env first).yieldState token = (s.yieldState token).map
          fun y => { y with rateBps := 0, updatedAt := env.timestamp } := by
      rw [State.halt]
      cases hf : s.yieldState first with
      | none => exact Or.inl rfl
      | some y =>
        by_cases htoken : token = first
        · subst htoken
          exact Or.inr (by simp [State.setYieldState, hf])
        · exact Or.inl (by simp [State.setYieldState, htoken])
    rw [List.foldl_cons]
    rcases ih (s.halt env first) with h | h <;> rcases hone with h₁ | h₁ <;> rw [h, h₁]
    · exact Or.inl rfl
    · exact Or.inr rfl
    · exact Or.inr rfl
    · right
      rw [Option.map_map]
      rfl

lemma yieldStep_of_halted (hy : s.yieldState token = some y) (tokens : List Address) :
    ∃ z, (s.halted env tokens).yieldState token = some z ∧ YieldStep env.timestamp y z := by
  rcases foldl_halt_yieldState { s with emergencyVaultMode := true } env tokens token with h | h
  · exact ⟨y, h.trans hy, .kept rfl rfl⟩
  · exact ⟨_, h.trans (congrArg (Option.map _) hy), .halted rfl rfl rfl⟩

lemma Effect.yieldStep (h : Effect d R env m m' op) (hy : m.store.yieldState token = some y) :
    ∃ z, m'.store.yieldState token = some z ∧ YieldStep env.timestamp y z := by
  cases h with
  | initialised _ hm | ported _ _ _ _ hm | thresholded _ hm =>
    rw [hm]
    exact yieldStep_of_eq hy rfl
  | looked _ hout =>
    rw [hout.store]
    exact yieldStep_of_eq hy rfl
  | rebalanced _ hout hm =>
    rw [hm, Machine.put_store, hout.store]
    exact yieldStep_of_eq hy rfl
  | checkpointed hout hyield hm =>
    rw [hm, Machine.put_store, hout.store]
    apply yieldStep_of_update hy rfl
    intro ha
    rw [yieldNow_of_some ha] at hyield ⊢
    exact .grown hyield.timely rfl rfl
  | opened _ hopen _ =>
    obtain ⟨rate, hupdate⟩ := hopen.yieldState
    have hyield := hopen.accruable
    apply yieldStep_of_update hy hupdate
    intro ha
    rw [yieldNow_of_some ha] at hyield ⊢
    exact .grown hyield.timely rfl rfl
  | redeemed hsettles _ hyield hclose _ =>
    obtain ⟨rate, hupdate⟩ := hclose.yieldState
    apply yieldStep_of_update hy hupdate
    intro ha
    rw [hsettles.sameToken] at ha
    rw [yieldNow_of_some ha] at hyield ⊢
    exact .grown hyield.timely rfl rfl
  | rescued hsettles _ hyield hclose _ _ _ =>
    obtain ⟨rate, hupdate⟩ := hclose.yieldState
    apply yieldStep_of_update hy hupdate
    intro ha
    rw [hsettles.sameToken, hyield] at ha
    obtain rfl := Option.some.inj ha
    exact .kept rfl rfl
  | unwoundAll _ hout hm =>
    rw [hm, Machine.put_store, hout.store]
    exact yieldStep_of_halted hy _
  | unwound _ hout hm =>
    rw [hm, Machine.put_store, hout.store]
    apply yieldStep_of_halted
    rw [recordToken_eq]
    exact hy

end Steps

section Checkpoints

def State.clock (s : State) (token : Address) : Option ℕ :=
  (s.yieldState token).map YieldState.updatedAt

def State.rate (s : State) (token : Address) : Option ℕ :=
  (s.yieldState token).map YieldState.rateBps

/-- The time a move brings the index up to, if it moves its clock. -/
def Move.checkpoint (d : Deployment W) (token : Address) (m : Machine W) (move : Move W) : List ℕ :=
  if (step d move m).store.clock token = m.store.clock token then []
  else ((step d move m).store.clock token).toList

def checkpoints (d : Deployment W) (token : Address) (m : Machine W) (moves : List (Move W)) :
    List ℕ := trace (step d) (fun m move => move.checkpoint d token m) m moves

/-- The rate is the same after the move. -/
def KeepsRate (d : Deployment W) (token : Address) (rate : ℕ) (m : Machine W) (move : Move W) :
    Prop := (step d move m).store.rate token = some rate

instance keepsRateDecidable (d : Deployment W) (token : Address) (rate : ℕ) (m : Machine W)
    (move : Move W) : Decidable (KeepsRate d token rate m move) :=
  inferInstanceAs (Decidable (_ = _))

lemma growth_self (y : YieldState) : y.growth y.updatedAt = 0 := by
  simp [YieldState.growth]

lemma growth_still (h : y.rateBps = 0) (now : ℕ) : y.growth now = 0 := by
  simp [YieldState.growth, h]

/-- After these checkpoints the index is behind a single one by no more than their number. -/
structure Lags (y : YieldState) (log : List ℕ) (index : ℤ) (time : ℕ) : Prop where
  later : y.rateBps = 0 ∨ y.updatedAt ≤ time
  increases : y.index ≤ index
  behind : index ≤ y.index + y.growth time
  near : y.index + y.growth time ≤ index + log.length

lemma Lags.start (y : YieldState) : Lags y [] y.index y.updatedAt := by
  refine ⟨Or.inr le_rfl, le_rfl, ?_, ?_⟩ <;> simp [growth_self]

variable {log : List ℕ} {now : ℕ} {u : YieldState}

lemma Lags.still (h : Lags y log z.index z.updatedAt) (hzero : y.rateBps = 0) (more : List ℕ)
    (now : ℕ) : Lags y (log ++ more) z.index now := by
  have hnear := h.near
  have hbehind := h.behind
  rw [growth_still hzero] at hnear hbehind
  refine ⟨Or.inl hzero, h.increases, ?_, ?_⟩ <;> rw [growth_still hzero]
  · exact hbehind
  · rw [List.length_append]
    push_cast
    omega

lemma Lags.grow (h : Lags y log z.index z.updatedAt) (hrate : z.rateBps = y.rateBps)
    (hnow : z.updatedAt ≤ now) : Lags y (log ++ [now]) (z.index + z.growth now) now := by
  rcases h.later with hzero | hlater
  · rw [growth_still (hrate.trans hzero), add_zero]
    exact h.still hzero [now] now
  · have hsplit := growth_split hrate hlater hnow
    have hgrowth := growth_nonneg z now
    obtain ⟨-, hincreases, hbehind, hnear⟩ := h
    refine ⟨Or.inr (hlater.trans hnow), by omega, by omega, ?_⟩
    rw [List.length_append, List.length_singleton]
    push_cast
    omega

lemma Lags.step (h : Lags y log z.index z.updatedAt) (hrate : z.rateBps = y.rateBps)
    (hs : YieldStep now z u) (hu : u.rateBps = y.rateBps) :
    Lags y (log ++ if u.updatedAt = z.updatedAt then [] else [u.updatedAt]) u.index u.updatedAt := by
  cases hs with
  | kept hindex hupdated =>
    rw [if_pos hupdated, List.append_nil, hindex, hupdated]
    exact h
  | grown htimely hindex hupdated =>
    rw [hindex, hupdated]
    by_cases hsame : now = z.updatedAt
    · rw [if_pos hsame, List.append_nil, hsame, growth_self, add_zero]
      exact h
    · rw [if_neg hsame]
      exact h.grow hrate htimely
  | halted hindex _ hzero =>
    rw [hindex]
    exact h.still (hu ▸ hzero) _ _

/-- The token's yield state, after these checkpoints at the first rate. -/
def Lagging (token : Address) (y : YieldState) (log : List ℕ) (m : Machine W) : Prop :=
  ∃ z, m.store.yieldState token = some z ∧ z.rateBps = y.rateBps ∧
    Lags y log z.index z.updatedAt

lemma step_lagging (move : Move W) (h : Lagging token y log m)
    (hkeeps : KeepsRate d token y.rateBps m move) :
    Lagging token y (log ++ move.checkpoint d token m) (step d move m) := by
  obtain ⟨z, hz, hrate, hlags⟩ := h
  have hstep : ∃ u now, (step d move m).store.yieldState token = some u ∧ YieldStep now z u := by
    cases move with
    | outside f => exact ⟨z, 0, hz, .kept rfl rfl⟩
    | call env op =>
      rcases step_cases d.keepsAnywhere env op m with heq | he
      · rw [heq]
        exact ⟨z, 0, hz, .kept rfl rfl⟩
      · obtain ⟨u, hu, hs⟩ := he.yieldStep hz
        exact ⟨u, _, hu, hs⟩
  obtain ⟨u, now, hu, hs⟩ := hstep
  have hurate : u.rateBps = y.rateBps := by
    rw [KeepsRate, State.rate, hu, Option.map_some] at hkeeps
    exact Option.some.inj hkeeps
  have hlog : move.checkpoint d token m =
      if u.updatedAt = z.updatedAt then [] else [u.updatedAt] := by
    simp [Move.checkpoint, State.clock, hu, hz]
  rw [hlog]
  exact ⟨u, hu, hurate, hlags.step hrate hs hurate⟩

end Checkpoints

section Debts

/-- Every escrow has its token's index behind it. -/
def Indebted (s : State) : Prop :=
  ∀ id r, s.escrow id = some r → ∃ y, s.yieldState r.token = some y ∧ r.rewardDebt ≤ y.index

lemma step_indebted (move : Move W) (hheld : PortfolioHeld m.store) (h : Indebted m.store) :
    Indebted (step d move m).store := by
  cases move with
  | outside f => exact h
  | call env op =>
    rcases step_cases d.keepsAnywhere env op m with heq | he
    · rwa [heq]
    generalize step d (.call env op) m = m' at he
    have hold (r : Escrow) (hr : ∃ y, m.store.yieldState r.token = some y ∧ r.rewardDebt ≤ y.index) :
        ∃ y, m'.store.yieldState r.token = some y ∧ r.rewardDebt ≤ y.index := by
      obtain ⟨y, hy, hdebt⟩ := hr
      obtain ⟨z, hz, hs⟩ := he.yieldStep hy
      exact ⟨z, hz, hdebt.trans hs.index_le⟩
    intro id r hr
    rcases he.books fun h => (hheld.fresh h).2 with ⟨-, hsame, -⟩ | ⟨escrowId, record, -, hopened, hopens⟩ |
      ⟨escrowId, record, settled, party, payments, -, hsettles, hcloses, -⟩
    · rw [hsame.escrow] at hr
      exact hold r (h id r hr)
    · rcases mem_of_update hopens.escrow hr with ⟨-, rfl⟩ | hr
      · obtain ⟨rate, hupdate⟩ := hopened.yieldState
        have hy := congrFun hupdate r.token
        rw [Function.update_self] at hy
        exact ⟨_, hy, hopened.debt.le⟩
      · exact hold r (h id r hr)
    · rcases mem_of_update hcloses.escrow hr with ⟨-, rfl⟩ | hr
      · have hrecord := hold record (h escrowId record hcloses.found)
        rcases hcloses.flagged with rfl | rfl <;> exact hrecord
      · exact hold r (h id r hr)

lemma after_indebted (d : Deployment W) (world : W) (moves : List (Move W)) :
    Indebted (after d world moves).store := by
  have hstart : Indebted {} := fun _ _ h => nomatch h
  have hrun : PortfolioHeld (after d world moves).store ∧ Indebted (after d world moves).store :=
    run_invariant (I := fun m => PortfolioHeld m.store ∧ Indebted m.store)
      (fun _ move h _ => ⟨step_portfolio d move h.1, step_indebted move h.1 h.2⟩)
      ⟨after_portfolio d world [], hstart⟩
      (along_of_forall (step d) (fun _ _ => trivial) _ moves)
  exact hrun.2

end Debts

/-- What checkpoints at one rate make of the index, compared with a single one at the end. -/
structure PathIndependent (d : Deployment W) (token : Address) (m : Machine W)
    (moves : List (Move W)) (y z : YieldState) : Prop where
  increases : y.index ≤ z.index
  behind : z.index ≤ y.index + y.growth z.updatedAt
  near : y.index + y.growth z.updatedAt ≤ z.index + (checkpoints d token m moves).length
  /-- That is where a single checkpoint gets. -/
  single : ∀ env u m', env.timestamp = z.updatedAt → updateYieldState d env token m = .ok (u, m') →
    u.index = y.index + y.growth z.updatedAt
  /-- No interest is raised by the others' checkpoints, nor lowered by more than theirs lose. -/
  interest : ∀ record : Escrow, 0 ≤ record.principal →
    record.yieldAt z.index ≤ record.yieldAt (y.index + y.growth z.updatedAt) ∧
    record.yieldAt (y.index + y.growth z.updatedAt) ≤ record.yieldAt z.index +
      (record.principal * (checkpoints d token m moves).length / indexScale + 1)

/-- A position's interest grows with the index and with the principal. -/
structure MonotoneInterest (record : Escrow) : Prop where
  index : ∀ i j, i ≤ j → record.yieldAt i ≤ record.yieldAt j
  principal : ∀ i n, record.rewardDebt ≤ i → record.principal ≤ n →
    record.yieldAt i ≤ { record with principal := n }.yieldAt i

/-- What checkpoints at one rate make of the index, from any state in which the token has one. -/
lemma run_pathIndependent (moves : List (Move W)) (hy : m.store.yieldState token = some y)
    (hrate : Along (step d) (KeepsRate d token y.rateBps) m moves) :
    ∃ z, (run (step d) m moves).store.yieldState token = some z ∧ z.rateBps = y.rateBps ∧
      PathIndependent d token m moves y z := by
  have hstart : Lagging token y [] m := ⟨y, hy, rfl, .start y⟩
  obtain ⟨z, hz, hzrate, hlags⟩ : Lagging token y (checkpoints d token m moves)
      (run (step d) m moves) :=
    trace_invariant_along (fun _ _ move h hkeeps => step_lagging move h hkeeps) hstart hrate
  refine ⟨z, hz, hzrate, hlags.increases, hlags.behind, hlags.near, ?_, fun record hp => ⟨?_, ?_⟩⟩
  · intro env u m' hnow hupdate
    obtain ⟨-, rate, m₁, -, rfl, -⟩ := updateYieldState_ok.mp hupdate
    rw [yieldNow_of_some hy, ← hnow]
    rfl
  · exact yieldAt_mono_index hp hlags.behind
  · exact yieldAt_lag hp (Int.natCast_nonneg _) hlags.near

lemma monotoneInterest (hp : 0 ≤ record.principal) : MonotoneInterest record where
  index _ _ h := yieldAt_mono_index hp h
  principal _ _ hi h := yieldAt_mono_principal hi h

/-- From any state in which the token has an index, and along any moves that keep its rate; and
for the positions of any run. -/
theorem index_path_independent (d : Deployment W) (token : Address) (m : Machine W)
    (moves : List (Move W)) (y : YieldState) (hy : m.store.yieldState token = some y)
    (hrate : Along (step d) (KeepsRate d token y.rateBps) m moves) :
    (∃ z, (run (step d) m moves).store.yieldState token = some z ∧ z.rateBps = y.rateBps ∧
      PathIndependent d token m moves y z) ∧
    ∀ (world : W) (history : List (Move W)) (id : ℕ) (record : Escrow),
      (after d world history).store.escrow id = some record →
        MonotoneInterest record ∧ ∃ now, (after d world history).store.yieldState record.token =
          some now ∧ record.rewardDebt ≤ now.index ∧
            ∀ (n : ℤ) (m₁ m₂ : Machine W), positionYield record now m₁ = .ok (n, m₂) →
              n = record.yieldAt now.index := by
  refine ⟨run_pathIndependent moves hy hrate, fun world history id record hrecord => ?_⟩
  obtain ⟨⟨-, hbalanced⟩, -⟩ := after_accounted d world history
  obtain ⟨now, hnow, hdebt⟩ := after_indebted d world history id record hrecord
  refine ⟨monotoneInterest (hbalanced.positive id record hrecord).le, now, hnow, hdebt, ?_⟩
  intro n m₁ m₂ hyield
  exact (positionYield_ok.mp hyield).2.2.1

/-- An escrow of a thousand is opened when the index is nought. -/
def opening : List (Move Pools) := [.call signed (.initialise ⟨1⟩ ⟨7⟩), create 1]

def lookups : List (Move Pools) :=
  [.call { timestamp := 900 } (.getYieldState ⟨9⟩),
    .call { timestamp := 31536000 } (.getYieldState ⟨9⟩)]

theorem index_path_independent_tenth :
    (∃ z, (run (step (honest ⟨0⟩)) (after (honest ⟨0⟩) tenth opening) lookups).store.yieldState
        ⟨9⟩ = some z ∧ z.rateBps = 1000 ∧ PathIndependent (honest ⟨0⟩) ⟨9⟩
          (after (honest ⟨0⟩) tenth opening) lookups ⟨0, 0, 1000, 1000⟩ z) ∧
      MonotoneInterest ⟨⟨2⟩, ⟨3⟩, ⟨9⟩, 1000, 10, 5000, 0, false, false⟩ := by
  have h := index_path_independent (honest ⟨0⟩) ⟨9⟩ (after (honest ⟨0⟩) tenth opening) lookups
    ⟨0, 0, 1000, 1000⟩ (by decide +kernel) ⟨by decide +kernel, by decide +kernel, trivial⟩
  exact ⟨h.1, (h.2 tenth opening 1 _ (by decide +kernel)).1⟩

end StellarTags.YieldEscrow
