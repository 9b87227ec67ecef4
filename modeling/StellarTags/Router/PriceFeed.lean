import StellarTags.Router.Frames

/-! Prices: what `get_price` returns of an oracle's reading or of a configured fallback. -/

namespace StellarTags.Router

open Library.Transactions Library.Runs Library.Tokens Soroban

/-- What the contract at an address says of a pair; `none` when the call fails. -/
abbrev Feed := Address → Address → Address → Option PriceData

def defaultStalenessThreshold : ℕ := 3600

namespace Settings

def stalenessThresholdOrDefault (cfg : Settings) : ℕ :=
  cfg.stalenessThreshold.getD defaultStalenessThreshold

/-- The age saturates at zero; a threshold of zero skips the check. -/
def isStale (cfg : Settings) (env : Env) (priceData : PriceData) : Bool :=
  decide (0 < cfg.stalenessThresholdOrDefault) &&
    (decide (priceData.timestamp = 0) ||
      decide (cfg.stalenessThresholdOrDefault < env.timestamp - priceData.timestamp))

def fallbackOrErr (cfg : Settings) (baseAsset quoteAsset : Address) (err : Error) :
    Tx State Error PriceData :=
  match cfg.fallbackPrice baseAsset quoteAsset with
  | some fallback => pure fallback
  | none => Tx.fail err

end Settings

def getPrice (feed : Feed) (env : Env) (baseAsset quoteAsset : Address) :
    Tx State Error PriceData := do
  let cfg ← Tx.read State.settings
  match cfg.oracleAddress with
  | none => cfg.fallbackOrErr baseAsset quoteAsset .oracleNotConfigured
  | some oracle =>
    match feed oracle baseAsset quoteAsset with
    | none => cfg.fallbackOrErr baseAsset quoteAsset .oracleCallFailed
    | some priceData =>
      if cfg.isStale env priceData = true then
        cfg.fallbackOrErr baseAsset quoteAsset .oraclePriceStale
      else if priceData.price ≤ 0 then
        cfg.fallbackOrErr baseAsset quoteAsset .oraclePriceInvalid
      else pure priceData

/-- A fallback as `set_fallback_price` is given it. -/
structure Fallback where
  baseAsset : Address
  quoteAsset : Address
  price : ℤ
  decimals : ℕ

def Op.fallback : Op → Option Fallback
  | .configure (.setFallbackPrice baseAsset quoteAsset price decimals) =>
    some ⟨baseAsset, quoteAsset, price, decimals⟩
  | _ => none

def fallbacks (h : Host) : State → Call → List Fallback := granted h Op.fallback

def Fallback.data (fallback : Fallback) : Option PriceData :=
  if fallback.price = 0 then none else some ⟨fallback.price, fallback.decimals, 0⟩

def configured (log : List Fallback) (baseAsset quoteAsset : Address) : Option PriceData :=
  (log.reverse.find? fun e => e.baseAsset = baseAsset ∧ e.quoteAsset = quoteAsset).bind
    Fallback.data

/-- The reading that `get_price` accepts. -/
def Settings.Reads (cfg : Settings) (feed : Feed) (env : Env) (baseAsset quoteAsset : Address)
    (p : PriceData) : Prop :=
  ∃ oracle, cfg.oracleAddress = some oracle ∧ feed oracle baseAsset quoteAsset = some p ∧
    cfg.isStale env p = false ∧ 0 < p.price

/-- A price that may be relied on: positive, and configured as the pair's fallback or read within
the threshold. -/
structure SoundPrice (log : List Fallback) (cfg : Settings) (feed : Feed) (env : Env)
    (baseAsset quoteAsset : Address) (p : PriceData) : Prop where
  positive : 0 < p.price
  source : configured log baseAsset quoteAsset = some p ∨
    ∃ oracle, cfg.oracleAddress = some oracle ∧ feed oracle baseAsset quoteAsset = some p ∧
      (cfg.stalenessThresholdOrDefault ≠ 0 → p.timestamp ≤ env.timestamp ∧
        env.timestamp - p.timestamp ≤ cfg.stalenessThresholdOrDefault)

/-- The reading that is accepted is not dated ahead, unless nothing is checked of its age; and where
none is accepted, the fallback is positive. -/
structure Settings.Reliable (cfg : Settings) (feed : Feed) (env : Env)
    (baseAsset quoteAsset : Address) : Prop where
  dated : ∀ p, cfg.Reads feed env baseAsset quoteAsset p →
    cfg.stalenessThresholdOrDefault = 0 ∨ p.timestamp ≤ env.timestamp
  fallback : (∀ p, ¬ cfg.Reads feed env baseAsset quoteAsset p) →
    ∀ p, cfg.fallbackPrice baseAsset quoteAsset = some p → 0 < p.price

section Prices

variable {cfg : Settings} {feed : Feed} {env : Env} {baseAsset quoteAsset : Address} {s t : State}
  {p : PriceData}

lemma fallbackOrErr_ok {err : Error} :
    cfg.fallbackOrErr baseAsset quoteAsset err s = .ok (p, t) ↔
      cfg.fallbackPrice baseAsset quoteAsset = some p ∧ t = s := by
  unfold Settings.fallbackOrErr
  cases cfg.fallbackPrice baseAsset quoteAsset with
  | none => simp
  | some fallback => rw [Tx.pure_ok, Option.some.injEq, eq_comm (a := p)]

lemma getPrice_ok : getPrice feed env baseAsset quoteAsset s = .ok (p, t) ↔
    (s.settings.Reads feed env baseAsset quoteAsset p ∨
      (∀ q, ¬ s.settings.Reads feed env baseAsset quoteAsset q) ∧
        s.settings.fallbackPrice baseAsset quoteAsset = some p) ∧ t = s := by
  unfold getPrice Settings.Reads
  rw [Tx.read_bind]
  cases ho : s.settings.oracleAddress with
  | none => simp [fallbackOrErr_ok]
  | some oracle =>
    cases hf : feed oracle baseAsset quoteAsset with
    | none => simp [fallbackOrErr_ok, hf]
    | some priceData =>
      by_cases hstale : s.settings.isStale env priceData = true
      · simp [fallbackOrErr_ok, hf, hstale]
        grind
      · by_cases hprice : priceData.price ≤ 0
        · simp [fallbackOrErr_ok, hf, hstale, hprice]
          grind
        · simp [hf, hstale, hprice]
          grind

lemma isStale_eq_false (hs : cfg.isStale env p = false) (hn : cfg.stalenessThresholdOrDefault ≠ 0) :
    p.timestamp ≠ 0 ∧ env.timestamp - p.timestamp ≤ cfg.stalenessThresholdOrDefault := by
  simp [Settings.isStale] at hs
  omega

end Prices

section Runs

variable {h : Host} {env : Env} {s t : State} {log : List Fallback}

/-- The stored fallbacks are the ones configured last. -/
def Recorded (log : List Fallback) (s : State) : Prop :=
  ∀ baseAsset quoteAsset,
    s.settings.fallbackPrice baseAsset quoteAsset = configured log baseAsset quoteAsset

lemma configured_append (log : List Fallback) (e : Fallback) (baseAsset quoteAsset : Address) :
    configured (log ++ [e]) baseAsset quoteAsset =
      if baseAsset = e.baseAsset ∧ quoteAsset = e.quoteAsset then e.data
      else configured log baseAsset quoteAsset := by
  unfold configured
  rw [List.reverse_append]
  split_ifs with he
  · simp [he]
  · simp [eq_comm (a := e.baseAsset), eq_comm (a := e.quoteAsset), he]

lemma fallbackPrice_apart : Settings.Apart Settings.fallbackPrice where
  administer c op := by cases op <;> rfl
  apply c action := by cases action <;> rfl
  yields _ _ := rfl

lemma ConfigOp.invoke_fallbackPrice {op : ConfigOp} (hop : (Op.configure op).fallback = none)
    (hr : op.invoke h env s = .ok ((), t)) :
    t.settings.fallbackPrice = s.settings.fallbackPrice := by
  cases op with
  | setFallbackPrice baseAsset quoteAsset price decimals => cases hop
  | proposeFeeChange proposer feeBps feeCap votingPeriod =>
    simp [invoke, Router.proposeFeeChange, modifySettings] at hr
    obtain ⟨-, -, -, -, -, -, -, rfl⟩ := hr
    rfl
  | commitArchiveRoot root leaves description =>
    simp [invoke, Router.commitArchiveRoot, modifySettings] at hr
    obtain ⟨-, -, -, -, -, rfl⟩ := hr
    rfl
  | _ =>
    have hwrites := configure_writes (by
      apply_rules [reads_then, reads_asAdmin, reads_asRole, reads_requireCircuitClosed,
        reads_requireFeeAuthority, reads_reject]) hr
    subst hwrites
    rfl

lemma Op.invoke_fallbackPrice {op : Op} (hop : op.fallback = none)
    (hr : op.invoke h env s = .ok ((), t)) :
    t.settings.fallbackPrice = s.settings.fallbackPrice := by
  by_cases hc : ∃ o, op = .configure o
  · obtain ⟨o, rfl⟩ := hc
    exact ConfigOp.invoke_fallbackPrice hop hr
  · exact Op.invoke_apart fallbackPrice_apart (fun o ho => hc ⟨o, ho⟩) hr

lemma Op.fallback_stored {op : Op} {e : Fallback} (hop : op.fallback = some e)
    (hr : op.invoke h env s = .ok ((), t)) (baseAsset quoteAsset : Address) :
    t.settings.fallbackPrice baseAsset quoteAsset =
      if baseAsset = e.baseAsset ∧ quoteAsset = e.quoteAsset then e.data
      else s.settings.fallbackPrice baseAsset quoteAsset := by
  unfold Op.fallback at hop
  split at hop
  · obtain rfl := Option.some.inj hop
    have hwrites := configure_writes reads_asRole hr
    rw [hwrites]
    rfl
  · cases hop

lemma step_recorded (call : Call) (hs : Recorded log s) :
    Recorded (log ++ fallbacks h s call) (step h call s) := by
  rcases granted_cases Op.fallback s call with ⟨he, hstep⟩ | ⟨he, hr⟩
  · rwa [fallbacks, he, hstep, List.append_nil]
  intro baseAsset quoteAsset
  rw [fallbacks, he]
  cases hop : call.op.fallback with
  | none =>
    rw [Op.invoke_fallbackPrice hop hr, hs]
    simp
  | some e =>
    rw [Op.fallback_stored hop hr, Option.toList_some, configured_append, hs]

lemma recorded_after (h : Host) (tokens : Ledger Address Address) (calls : List Call) :
    Recorded (trace (step h) (fallbacks h) (State.fresh tokens) calls) (after h tokens calls) := by
  have hfresh : Recorded [] (State.fresh tokens) := fun _ _ => rfl
  exact trace_invariant (fun _ _ call => step_recorded (h := h) call) hfresh calls

lemma configured_timestamp {baseAsset quoteAsset : Address} {p : PriceData}
    (hp : configured log baseAsset quoteAsset = some p) : p.timestamp = 0 := by
  obtain ⟨e, -, he⟩ := Option.bind_eq_some_iff.mp hp
  unfold Fallback.data at he
  split_ifs at he
  exact Option.some.inj he ▸ rfl

/-- In every state that is reached, `get_price` returns sound prices only exactly when the reading
it accepts, or else the fallback, is reliable. -/
theorem get_price_sound_iff (h : Host) (tokens : Ledger Address Address) (calls : List Call)
    (feed : Feed) (env : Env) (baseAsset quoteAsset : Address) :
    (∀ p t, getPrice feed env baseAsset quoteAsset (after h tokens calls) = .ok (p, t) →
      SoundPrice (trace (step h) (fallbacks h) (State.fresh tokens) calls)
        (after h tokens calls).settings feed env baseAsset quoteAsset p) ↔
      (after h tokens calls).settings.Reliable feed env baseAsset quoteAsset := by
  have hrecorded := recorded_after h tokens calls baseAsset quoteAsset
  constructor
  · intro hsound
    refine ⟨fun p hp => ?_, fun hnone p hp => ?_⟩
    · by_cases hn : (after h tokens calls).settings.stalenessThresholdOrDefault = 0
      · exact Or.inl hn
      obtain ⟨-, hsource⟩ := hsound p _ (getPrice_ok.mpr ⟨Or.inl hp, rfl⟩)
      obtain ⟨_, _, _, hstale, -⟩ := hp
      rcases hsource with hfallback | ⟨_, _, _, hage⟩
      · -- A fallback is dated zero, which no accepted reading is.
        exact absurd (configured_timestamp hfallback) (isStale_eq_false hstale hn).1
      · exact Or.inr (hage hn).1
    · exact (hsound p _ (getPrice_ok.mpr ⟨Or.inr ⟨hnone, hp⟩, rfl⟩)).positive
  · intro hreliable p t hr
    obtain ⟨hread | ⟨hnone, hfallback⟩, -⟩ := getPrice_ok.mp hr
    · obtain ⟨oracle, horacle, hanswer, hstale, hpositive⟩ := hread
      refine ⟨hpositive, Or.inr ⟨oracle, horacle, hanswer, fun hn => ⟨?_, ?_⟩⟩⟩
      · exact (hreliable.dated p ⟨oracle, horacle, hanswer, hstale, hpositive⟩).resolve_left hn
      · exact (isStale_eq_false hstale hn).2
    · exact ⟨hreliable.fallback hnone p hfallback, Or.inl (hrecorded ▸ hfallback)⟩

end Runs

section Examples

/-- The compliance officer configures a fallback for the pair of `⟨20⟩` and `⟨21⟩`. -/
def fallbackSet (price : ℤ) : List Call :=
  [⟨signedBy [⟨1⟩], .administer (.initializeRouter ⟨1⟩ ⟨9⟩ 10 100 1000)⟩,
    ⟨signedBy [⟨1⟩], .configure (.setPriceOracle ⟨30⟩)⟩,
    ⟨signedBy [⟨1⟩], .configure (.setFallbackPrice ⟨20⟩ ⟨21⟩ price 7)⟩]

/-- A negative fallback is returned when the oracle fails, and a reading of an hour ahead as it
is. -/
theorem negative_and_future_prices_pass :
    (∃ t, getPrice (fun _ _ _ => none) {} ⟨20⟩ ⟨21⟩ (after .sample emptyLedger (fallbackSet (-5))) =
        .ok (⟨-5, 7, 0⟩, t)) ∧
      ∃ t, getPrice (fun _ _ _ => some ⟨5, 7, 4600⟩) { timestamp := 1000 } ⟨20⟩ ⟨21⟩
        (after .sample emptyLedger (fallbackSet 4)) = .ok (⟨5, 7, 4600⟩, t) :=
  ⟨⟨_, rfl⟩, ⟨_, rfl⟩⟩

end Examples

end StellarTags.Router
