import StellarTags.Router.Checks
import StellarTags.Router.Frames

/-! How far the stored slippage settings go over any run, and the floors they give. -/

namespace StellarTags.Router

open Library.Transactions Library.Integers Library.Runs Library.Tokens Soroban

structure Settings.SlippageBounded (c : Settings) : Prop where
  global : 0 ≤ c.maxSlippageBpsOrDefault ∧ c.maxSlippageBpsOrDefault ≤ maxSlippageBpsLimit
  pair : ∀ tokenIn tokenOut bps, c.pairSlippage tokenIn tokenOut = some bps →
    0 ≤ bps ∧ bps ≤ maxPairSlippageBps

/-- A call applies no queued `SetMaxSlippageBps` beyond the limits of `set_max_slippage_bps`. -/
def SlippageChecked (h : Host) (s : State) (call : Call) : Prop :=
  ∀ op, call.op = .timelock op → s.TimelockOpen h call.env → op.executes.Nodup →
    ∀ entries, s.Finds call.env op.executes entries → ∀ entry ∈ entries, ∀ bps,
      entry.action = .setMaxSlippageBps bps → 0 ≤ bps ∧ bps ≤ maxSlippageBpsLimit

section Floors

variable {σ : Type} {expected bps floor : ℤ} {s t : Traffic}

lemma slippageFloor_ok : slippageFloor expected bps s = .ok (floor, t) ↔
    FitsI128 (expected * bps) ∧ FitsI128 (expected - (expected * bps).tdiv bpsDivisor) ∧
      floor = max 1 (expected - (expected * bps).tdiv bpsDivisor) ∧ t = s := by
  have hfloor : ∀ n : ℤ, (if n < 1 then 1 else n) = max 1 n := by
    intro n
    split_ifs <;> omega
  simp [slippageFloor, hfloor]

lemma tolerated_le (he : 0 < expected) (hb : 0 ≤ bps ∧ bps ≤ maxSlippageBpsLimit) :
    0 ≤ (expected * bps).tdiv bpsDivisor ∧ (expected * bps).tdiv bpsDivisor ≤ expected := by
  have hn : 0 ≤ expected * bps := mul_nonneg he.le hb.1
  have hle : expected * bps ≤ expected * bpsDivisor := mul_le_mul_of_nonneg_left hb.2 he.le
  rw [Int.tdiv_eq_ediv_of_nonneg hn]
  refine ⟨Int.ediv_nonneg hn (by decide), ?_⟩
  calc expected * bps / bpsDivisor ≤ expected * bpsDivisor / bpsDivisor :=
        Int.ediv_le_ediv (by decide) hle
    _ = expected := Int.mul_ediv_cancel _ (by decide)

/-- Within the limits the floor exists if the product does, and stays below the expected output. -/
lemma slippageFloor_sound (he : 0 < expected) (hf : FitsI128 expected)
    (hb : 0 ≤ bps ∧ bps ≤ maxSlippageBpsLimit) :
    (∃ floor, slippageFloor expected bps s = .ok (floor, s) ∧ floor ≤ expected) ↔
      FitsI128 (expected * bps) := by
  have htolerated := tolerated_le he hb
  constructor
  · rintro ⟨floor, hr, -⟩
    exact (slippageFloor_ok.mp hr).1
  · intro hp
    refine ⟨_, slippageFloor_ok.mpr ⟨hp, ?_, rfl, rfl⟩, by omega⟩
    have hmin : minI128 ≤ 0 := by decide
    exact ⟨by omega, by omega⟩

end Floors

lemma default_bounded : 0 ≤ defaultMaxSlippageBps ∧ defaultMaxSlippageBps ≤ maxSlippageBpsLimit := by
  decide

section Steps

variable {h : Host} {env : Env} {c d : Settings} {s t : State} {u : Unit}

lemma Settings.SlippageBounded.same (hc : c.SlippageBounded)
    (hm : d.maxSlippageBps = c.maxSlippageBps) (hp : d.pairSlippage = c.pairSlippage) :
    d.SlippageBounded := by
  refine ⟨?_, ?_⟩
  · simpa only [maxSlippageBpsOrDefault, hm] using hc.global
  · simpa only [hp] using hc.pair

lemma Settings.SlippageBounded.setMax (hc : c.SlippageBounded) {bps : ℤ}
    (hb : 0 ≤ bps ∧ bps ≤ maxSlippageBpsLimit) :
    ({ c with maxSlippageBps := some bps } : Settings).SlippageBounded := ⟨hb, hc.pair⟩

lemma Settings.SlippageBounded.setPair (hc : c.SlippageBounded) {tokenIn tokenOut : Address}
    {bps : ℤ} (hb : 0 ≤ bps ∧ bps ≤ maxPairSlippageBps) :
    (c.setPairSlippage tokenIn tokenOut bps).SlippageBounded := by
  refine ⟨hc.global, fun a b n hn => ?_⟩
  by_cases ha : a = tokenIn
  · subst ha
    by_cases hb' : b = tokenOut
    · subst hb'
      simp only [setPairSlippage, Function.update_self, Option.some.injEq] at hn
      exact hn ▸ hb
    · simp only [setPairSlippage, Function.update_self, Function.update_of_ne hb'] at hn
      exact hc.pair _ _ _ hn
  · simp only [setPairSlippage, Function.update_of_ne ha] at hn
    exact hc.pair _ _ _ hn

lemma AdminOp.invoke_slippage {op : AdminOp} (hs : s.settings.SlippageBounded)
    (hr : op.invoke h env s = .ok (u, t)) : t.settings.SlippageBounded := by
  rw [(AdminOp.invoke_administered hr).settings]
  cases op with
  | initializeRouter admin platformTreasury feeBps feeCap maxAmount =>
    exact ⟨default_bounded, hs.pair⟩
  | _ => exact hs.same rfl rfl

lemma ConfigOp.invoke_slippage {op : ConfigOp} (hs : s.settings.SlippageBounded)
    (hr : op.invoke h env s = .ok (u, t)) : t.settings.SlippageBounded := by
  cases op with
  | setMaxSlippageBps maxSlippageBps =>
    simp only [invoke, Router.setMaxSlippageBps, configure, Tx.bind_unit_ok, asAdmin_ok,
      Tx.reject_ok, not_not, modifySettings_ok] at hr
    obtain ⟨_, ⟨v, ⟨-, -, -, rfl⟩, hb, rfl⟩, rfl⟩ := hr
    exact hs.setMax hb
  | setPairMaxSlippageBps tokenIn tokenOut maxSlippageBps =>
    simp only [invoke, Router.setPairMaxSlippageBps, configure, Tx.bind_unit_ok, asAdmin_ok,
      Tx.reject_ok, not_not, modifySettings_ok] at hr
    obtain ⟨_, ⟨v, ⟨-, -, -, rfl⟩, hb, rfl⟩, rfl⟩ := hr
    exact hs.setPair hb
  | proposeFeeChange proposer feeBps feeCap votingPeriod =>
    simp [invoke, Router.proposeFeeChange, modifySettings] at hr
    obtain ⟨-, -, -, -, -, -, -, rfl⟩ := hr
    exact hs.same rfl rfl
  | commitArchiveRoot root leaves description =>
    simp [invoke, Router.commitArchiveRoot, modifySettings] at hr
    obtain ⟨-, -, -, -, -, rfl⟩ := hr
    exact hs.same rfl rfl
  | _ =>
    have hwrites := configure_writes (by
      apply_rules [reads_then, reads_asAdmin, reads_asRole, reads_requireCircuitClosed,
        reads_requireFeeAuthority, reads_reject]) hr
    rw [hwrites]
    exact hs.same rfl rfl

lemma TimelockOp.invoke_slippage {op : TimelockOp} (hs : s.settings.SlippageBounded)
    (hk : SlippageChecked h s ⟨env, .timelock op⟩) (hr : op.invoke h env s = .ok (u, t)) :
    t.settings.SlippageBounded := by
  refine TimelockOp.invoke_applies (I := fun s => s.settings.SlippageBounded) (fun _ _ hs => hs)
    (fun hopen hnodup entries hfound entry hentry v w hv ha => ?_) hs hr
  have hbound := hk op rfl hopen hnodup entries hfound entry hentry
  have hadmits := hfound.admits hentry
  rw [ha.settings]
  cases hact : entry.action with
  | setMaxSlippageBps bps => exact hv.setMax (hbound bps hact)
  | setPairMaxSlippageBps tokenIn tokenOut bps =>
    rw [hact] at hadmits
    exact hv.setPair hadmits
  | _ => exact hv.same rfl rfl

lemma treasury_slippage {op : TreasuryOp} :
    Tx.Respects (fun s t => t.settings.maxSlippageBps = s.settings.maxSlippageBps ∧
      t.settings.pairSlippage = s.settings.pairSlippage) (op.invoke h env) := by
  have hpre : IsPreorder State fun s t =>
      t.settings.maxSlippageBps = s.settings.maxSlippageBps ∧
        t.settings.pairSlippage = s.settings.pairSlippage :=
    { refl := fun _ => ⟨rfl, rfl⟩
      trans := fun _ _ _ hst htv => ⟨htv.1.trans hst.1, htv.2.trans hst.2⟩ }
  exact TreasuryOp.invoke_respects (fun _ _ => ⟨rfl, rfl⟩) fun _ _ => ⟨rfl, rfl⟩

lemma step_slippage {call : Call} (hs : s.settings.SlippageBounded)
    (hk : SlippageChecked h s call) : (step h call s).settings.SlippageBounded := by
  obtain ⟨env, op⟩ := call
  rcases step_cases h ⟨env, op⟩ s with he | hr
  · rwa [he]
  cases op with
  | administer op => exact AdminOp.invoke_slippage hs hr
  | configure op => exact ConfigOp.invoke_slippage hs hr
  | timelock op => exact TimelockOp.invoke_slippage hs hk hr
  | group op =>
    rw [(GroupOp.invoke_ok hr).2]
    exact hs
  | route op =>
    obtain ⟨v, -, hv⟩ := route_ok hr
    rw [hv]
    exact hs
  | treasury op =>
    have hsame := treasury_slippage _ _ _ hr
    exact hs.same hsame.1 hsame.2
  | outside call =>
    simp only [Op.invoke, modifyTraffic_ok] at hr
    rw [hr]
    exact hs

end Steps

/-- For no pair does a floor trap, but for the product that is too large, or exceed what is
expected. -/
def Settings.FloorsSound (c : Settings) : Prop :=
  ∀ tokenIn tokenOut (t : Traffic), ∃ bps, c.pairMaxSlippageBps tokenIn tokenOut t = .ok (bps, t) ∧
    ∀ expected, 0 < expected → FitsI128 expected →
      ((∃ floor, slippageFloor expected bps t = .ok (floor, t) ∧ floor ≤ expected) ↔
        FitsI128 (expected * bps))

lemma Settings.SlippageBounded.floorsSound {c : Settings} (hc : c.SlippageBounded) :
    c.FloorsSound := by
  intro tokenIn tokenOut t
  cases hp : c.pairSlippage tokenIn tokenOut with
  | none =>
    refine ⟨c.maxSlippageBpsOrDefault, by simp [pairMaxSlippageBps, hp], fun expected he hf => ?_⟩
    exact slippageFloor_sound he hf hc.global
  | some bps =>
    have hb := hc.pair _ _ _ hp
    have hlimit : maxPairSlippageBps ≤ maxSlippageBpsLimit := by decide
    refine ⟨bps, by simp [pairMaxSlippageBps, hp, hb], fun expected he hf => ?_⟩
    exact slippageFloor_sound he hf ⟨hb.1, hb.2.trans hlimit⟩

/-- While no queued `SetMaxSlippageBps` is applied unchecked, the stored settings stay in bounds. -/
theorem slippage_bounded (h : Host) (tokens : Ledger Address Address) (calls : List Call)
    (hk : Along (step h) (SlippageChecked h) (State.fresh tokens) calls) :
    (after h tokens calls).settings.SlippageBounded ∧
      (after h tokens calls).settings.FloorsSound := by
  have hfresh : (State.fresh tokens).settings.SlippageBounded := ⟨default_bounded, nofun⟩
  have hbounded : (after h tokens calls).settings.SlippageBounded :=
    run_invariant (I := fun s => s.settings.SlippageBounded) (fun _ _ => step_slippage) hfresh hk
  exact ⟨hbounded, hbounded.floorsSound⟩

section Examples

/-- The admin queues a slippage and executes it a day later. -/
def slippageQueued (bps : ℤ) : List Call :=
  [⟨signedBy [⟨1⟩], .administer (.initializeRouter ⟨1⟩ ⟨9⟩ 10 100 1000)⟩,
    ⟨signedBy [⟨1⟩], .timelock (.queueAction (.setMaxSlippageBps bps))⟩,
    ⟨{ signedBy [⟨1⟩] with timestamp := 86400 }, .timelock (.executeAction 1)⟩]

theorem slippage_bounded_queued :
    (after .sample emptyLedger (slippageQueued 300)).settings.maxSlippageBps = some 300 ∧
      (after .sample emptyLedger (slippageQueued 300)).settings.SlippageBounded ∧
        (after .sample emptyLedger (slippageQueued 300)).settings.FloorsSound := by
  refine ⟨by decide, slippage_bounded .sample emptyLedger (slippageQueued 300) ?_⟩
  refine ⟨nofun, ?_, ?_, trivial⟩
  · rintro _ ⟨⟩ - - entries hfound entry hentry
    cases hfound
    simp at hentry
  · rintro _ ⟨⟩ - - entries hfound entry hentry bps hact
    obtain _ | ⟨⟨⟨hqueued, -⟩, -⟩, htail⟩ := hfound
    cases htail
    rw [List.mem_singleton] at hentry
    subst hentry
    have he : entry = ⟨0, .setMaxSlippageBps 300⟩ := Option.some.inj (hqueued.symm.trans (by decide))
    rw [he] at hact
    cases hact
    decide

/-- A queued slippage below zero passes unchecked and asks for twice what is expected; for large
amounts the default traps. -/
theorem queued_slippage_unchecked :
    ¬ (after .sample emptyLedger (slippageQueued (-10000))).settings.SlippageBounded ∧
      (∃ t, slippageFloor 100 (-10000) (State.fresh emptyLedger).traffic = .ok (200, t)) ∧
        Tx.succeeds (slippageFloor (2 ^ 126) defaultMaxSlippageBps)
          (State.fresh emptyLedger).traffic = false := by
  refine ⟨fun hb => ?_, ⟨_, rfl⟩, by decide⟩
  have hle := hb.global.1
  revert hle
  decide

end Examples

end StellarTags.Router
