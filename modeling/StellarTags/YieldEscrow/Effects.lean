import StellarTags.YieldEscrow.Calls

/-! What a successful call to the yield escrow does, said once for every entry point. -/

namespace StellarTags.YieldEscrow

open Library.Transactions Library.Integers Soroban

variable {W : Type} {d : Deployment W} {R : W → W → Prop} {m m' m₁ : Machine W} {env : Env}
  {token : Address} {n : ℤ}

/-- Whatever the contract asks of others moves the world along `R`. -/
structure Deployment.Keeps (d : Deployment W) (R : W → W → Prop) : Prop where
  deposit : ∀ strategy source token amount w w',
    d.deposit strategy source token amount w = some w' → R w w'
  withdraw : ∀ strategy target token amount w w',
    d.withdraw strategy target token amount w = some w' → R w w'
  harvest : ∀ strategy target token w n w', d.harvest strategy target token w = some (n, w') → R w w'
  yieldRateBps : ∀ strategy token w n w', d.yieldRateBps strategy token w = some (n, w') → R w w'
  getBalance : ∀ strategy token w n w', d.getBalance strategy token w = some (n, w') → R w w'
  balance : ∀ token account w n w', d.balance token account w = some (n, w') → R w w'
  transfer : ∀ token source target amount w w',
    d.transfer token source target amount w = some w' → R w w'

/-- The world may go anywhere. -/
def Anywhere (_ _ : W) : Prop := True

instance anywherePreorder : IsPreorder W Anywhere where
  refl _ := trivial
  trans _ _ _ _ _ := trivial

lemma Deployment.keepsAnywhere (d : Deployment W) : d.Keeps Anywhere := by
  constructor <;> intros <;> trivial

/-- Only the world is another, along `R`. -/
structure Outward (R : W → W → Prop) (m m' : Machine W) : Prop where
  store : m'.store = m.store
  transfers : m'.transfers = m.transfers
  world : R m.world m'.world

section Outward

variable [IsPreorder W R]

instance outwardPreorder : IsPreorder (Machine W) (Outward R) where
  refl _ := ⟨rfl, rfl, refl_of R _⟩
  trans _ _ _ h h' :=
    ⟨h'.store.trans h.store, h'.transfers.trans h.transfers, trans_of R h.world h'.world⟩

namespace Outward

variable {α : Type}

omit [IsPreorder W R] in
lemma ask {f : W → Option (α × W)} (hf : ∀ w a w', f w = some (a, w') → R w w') :
    Tx.Respects (Outward R) (ask f) := by
  intro m a m' h
  obtain ⟨world, hworld, rfl⟩ := ask_ok.mp h
  exact ⟨rfl, rfl, hf _ _ _ hworld⟩

omit [IsPreorder W R] in
lemma order {f : W → Option W} (hf : ∀ w w', f w = some w' → R w w') :
    Tx.Respects (Outward R) (order f) := by
  intro m u m' h
  obtain ⟨world, hworld, rfl⟩ := order_ok.mp h
  exact ⟨rfl, rfl, hf _ _ hworld⟩

lemma view (f : State → α) : Tx.Respects (Outward R) (view f) := .read _

lemma checked (n : ℤ) : Tx.Respects (Outward R) (checked n) :=
  .bind (.reject _ _) fun _ => .pure n

lemma checkedI128 (n : ℤ) : Tx.Respects (ε := Error) (Outward R) (checkedI128 n) :=
  .bind (.demand _) fun _ => .pure n

lemma topUp (remainder share : ℤ) (i : ℕ) : Tx.Respects (Outward R) (topUp remainder share i) := by
  rw [YieldEscrow.topUp]
  split_ifs
  · exact .checkedI128 _
  · exact .pure _

lemma allocate (amount whole : ℤ) (parts : List ℤ) :
    Tx.Respects (Outward R) (allocate amount whole parts) :=
  .fold fun _ _ _ => .bind (.checked _) fun _ => .bind (.checked _) fun _ => .pure _

lemma redemption (principal total : ℤ) (strategies : List StrategyAllocation) (balances : List ℤ) :
    Tx.Respects (Outward R) (redemption principal total strategies balances) := by
  rw [YieldEscrow.redemption]
  split_ifs
  · exact .allocate _ _ _
  · exact .allocate _ _ _

lemma finalTargets (remainder : ℤ) (targets : List ℤ) :
    Tx.Respects (Outward R) (finalTargets remainder targets) :=
  .fold fun _ _ _ => .bind (.topUp _ _ _) fun _ => .pure _

lemma drifted (threshold total : ℤ) (positions : List (StrategyAllocation × ℤ)) :
    Tx.Respects (Outward R) (drifted threshold total positions) := by
  induction positions with
  | nil => exact .pure _
  | cons position rest ih =>
    rw [YieldEscrow.drifted]
    refine .bind (.checked _) fun product => .bind (.checkedI128 _) fun drift => ?_
    split_ifs
    · exact .pure _
    · exact ih

variable (hd : d.Keeps R)
include hd

lemma getBalance (strategy token : Address) : Tx.Respects (Outward R) (getBalance d strategy token) :=
  .bind (.ask (hd.getBalance _ _)) fun _ => .pure _

lemma yieldRateBps (strategy token : Address) :
    Tx.Respects (Outward R) (yieldRateBps d strategy token) :=
  .bind (.ask (hd.yieldRateBps _ _)) fun _ => .pure _

lemma harvest (strategy token : Address) : Tx.Respects (Outward R) (harvest d strategy token) :=
  .bind (.ask (hd.harvest _ _ _)) fun _ => .pure _

lemma getVaultBalance (token : Address) : Tx.Respects (Outward R) (getVaultBalance d token) :=
  .bind (.ask (hd.balance _ _)) fun _ => .pure _

omit [IsPreorder W R] in
lemma deposit (strategy token : Address) (amount : ℤ) :
    Tx.Respects (Outward R) (deposit d strategy token amount) := .order (hd.deposit _ _ _ _)

omit [IsPreorder W R] in
lemma withdraw (strategy token : Address) (amount : ℤ) :
    Tx.Respects (Outward R) (withdraw d strategy token amount) := .order (hd.withdraw _ _ _ _)

lemma strategyBalances (token : Address) (strategies : List StrategyAllocation) :
    Tx.Respects (Outward R) (strategyBalances d token strategies) :=
  .fold fun _ _ _ => .bind (.getBalance hd _ _) fun _ => .bind (.checked _) fun _ => .pure _

lemma depositShares (token : Address) (remainder : ℤ)
    (shares : List ((StrategyAllocation × ℤ) × ℕ)) :
    Tx.Respects (Outward R) (depositShares d token remainder shares) :=
  .forEach fun _ _ => .bind (.topUp _ _ _) fun _ => .whenever fun _ => .deposit hd _ _ _

lemma withdrawSurplus (token : Address) (positions : List (StrategyAllocation × ℤ × ℤ)) :
    Tx.Respects (Outward R) (withdrawSurplus d token positions) :=
  .forEach fun _ _ => .whenever fun _ => .bind (.checkedI128 _) fun _ => .withdraw hd _ _ _

lemma depositDeficit (token : Address) (positions : List (StrategyAllocation × ℤ × ℤ)) :
    Tx.Respects (Outward R) (depositDeficit d token positions) :=
  .forEach fun _ _ => .whenever fun _ => .bind (.checkedI128 _) fun _ => .deposit hd _ _ _

lemma getTotalStrategyBalance (token : Address) :
    Tx.Respects (Outward R) (getTotalStrategyBalance d token) :=
  .bind (.view _) fun _ => .bind (.strategyBalances hd _ _) fun _ => .pure _

lemma checkRebalanceNeeded (token : Address) :
    Tx.Respects (Outward R) (checkRebalanceNeeded d token) := by
  have hinit : Tx.Respects (Outward R) requireInitialized := .bind (.view _) fun _ => .reject _ _
  rw [YieldEscrow.checkRebalanceNeeded]
  refine hinit.bind fun _ => .bind (.view _) fun emergency => .bind (.view _) fun strategies => ?_
  split_ifs
  · exact .pure _
  · refine .bind (.view _) fun threshold => .bind (.strategyBalances hd _ _) fun found => ?_
    dsimp only
    split_ifs
    · exact .pure _
    · exact .drifted _ _ _

lemma getWeightedYieldRate (token : Address) :
    Tx.Respects (Outward R) (getWeightedYieldRate d token) := by
  rw [YieldEscrow.getWeightedYieldRate]
  refine .bind (.view _) fun strategies => ?_
  split_ifs
  · exact .bind (.view _) fun _ => .bind (.unwrap _ _) fun _ => .yieldRateBps hd _ _
  · refine .bind (.fold fun _ _ _ => ?_) fun _ => .pure _
    exact .bind (.yieldRateBps hd _ _) fun _ =>
      .bind (.reject _ _) fun _ => .bind (.reject _ _) fun _ => .pure _

lemma currentYieldRate (token : Address) : Tx.Respects (Outward R) (currentYieldRate d token) :=
  .bind (.getWeightedYieldRate hd _) fun _ => .bind (.reject _ _) fun _ => .pure _

lemma redeemShares (token : Address) (remainder : ℤ)
    (shares : List ((StrategyAllocation × ℤ) × ℕ)) :
    Tx.Respects (Outward R) (redeemShares d token remainder shares) :=
  .fold fun _ _ _ => .bind (.topUp _ _ _) fun _ =>
    .bind (.whenever fun _ => .withdraw hd _ _ _) fun _ => .bind (.harvest hd _ _) fun _ =>
      .bind (.reject _ _) fun _ => .checked _

lemma redeemPosition (record : Escrow) : Tx.Respects (Outward R) (redeemPosition d record) := by
  rw [YieldEscrow.redeemPosition]
  exact .bind (.view _) fun _ => .bind (.strategyBalances hd _ _) fun _ =>
    .bind (.redemption _ _ _ _) fun _ => .bind (.checkedI128 _) fun _ =>
      .bind (.redeemShares hd _ _ _) fun _ => .pure _

lemma unwindTokenFromStrategies (token : Address) (strategies : List StrategyAllocation) :
    Tx.Respects (Outward R) (unwindTokenFromStrategies d token strategies) :=
  .bind (.getVaultBalance hd _) fun _ =>
    .bind (.forEach fun _ _ => .bind (.getBalance hd _ _) fun _ =>
      .bind (.whenever fun _ => .withdraw hd _ _ _) fun _ => .void (.harvest hd _ _)) fun _ =>
    .bind (.getVaultBalance hd _) fun _ => .checked _

end Outward

end Outward

section Yield

/-- What the index gains up to a time, at the rate last asked. -/
def YieldState.growth (y : YieldState) (now : ℕ) : ℤ :=
  (indexScale * y.rateBps * (now - y.updatedAt : ℕ)).tdiv (secondsPerYear * bpsDenominator)

def YieldState.accrued (y : YieldState) (now rate : ℕ) : YieldState :=
  ⟨y.index + y.growth now, now, rate, y.totalPrincipal⟩

/-- The index can be brought up to the time. -/
structure YieldState.Accruable (y : YieldState) (now : ℕ) : Prop where
  timely : y.updatedAt ≤ now
  yearly : FitsI128 (indexScale * y.rateBps)
  grown : FitsI128 (indexScale * y.rateBps * (now - y.updatedAt : ℕ))
  index : FitsI128 (y.index + y.growth now)

/-- A token that was never escrowed starts now. -/
def State.yieldNow (s : State) (env : Env) (token : Address) : YieldState :=
  (s.yieldState token).getD ⟨0, env.timestamp, 0, 0⟩

lemma updateYieldState_ok {y : YieldState} : updateYieldState d env token m = .ok (y, m') ↔
    (m.store.yieldNow env token).Accruable env.timestamp ∧
      ∃ rate m₁, currentYieldRate d token m = .ok (rate, m₁) ∧
        y = (m.store.yieldNow env token).accrued env.timestamp rate ∧
        m' = m₁.put (·.setYieldState token y) := by
  rw [updateYieldState, view_bind]
  dsimp only
  simp only [Tx.reject_bind_ok, checked_bind_ok, not_lt, Tx.bind_ok (m := currentYieldRate d token),
    write_bind, Tx.pure_ok]
  constructor
  · rintro ⟨htimely, hyearly, hgrown, hindex, rate, m₁, hrate, rfl, rfl⟩
    exact ⟨⟨htimely, hyearly, hgrown, hindex⟩, rate, m₁, hrate, rfl, rfl⟩
  · rintro ⟨⟨htimely, hyearly, hgrown, hindex⟩, rate, m₁, hrate, rfl, rfl⟩
    exact ⟨htimely, hyearly, hgrown, hindex, rate, m₁, hrate, rfl, rfl⟩

def Escrow.yieldAt (record : Escrow) (index : ℤ) : ℤ :=
  (record.principal * (index - record.rewardDebt)).tdiv indexScale

lemma positionYield_ok {record : Escrow} {y : YieldState} :
    positionYield record y m = .ok (n, m') ↔ FitsI128 (y.index - record.rewardDebt) ∧
      FitsI128 (record.principal * (y.index - record.rewardDebt)) ∧
      n = record.yieldAt y.index ∧ m' = m := by
  rw [positionYield, checked_bind_ok, checked_bind_ok, Tx.pure_ok, Escrow.yieldAt]

end Yield

section Outcomes

/-- The transfers out of the vault that make the payments; what is not positive is not paid. -/
def Deployment.paid (d : Deployment W) (token : Address) (payments : List (Address × ℤ)) :
    List Transfer :=
  ((payments.filter fun p => 0 < p.2).map fun p => ⟨token, d.self, p.1, p.2⟩).reverse

namespace State

variable (s : State)

def initialised (admin adapter : Address) : State :=
  { s with
    initialized := true
    admin := some admin
    adapter := some adapter
    strategies := some [⟨adapter, 10000⟩]
    activeEscrows := 0
    emergencyVaultMode := false
    tokens := [] }

def opened (escrowId : ℕ) (record : Escrow) (y : YieldState) : State :=
  { ((s.recordToken record.token).setYieldState record.token y).setEscrow escrowId record with
    activeEscrows := s.activeEscrows + 1 }

def closed (escrowId : ℕ) (record : Escrow) (y : YieldState) : State :=
  { (s.setYieldState record.token y).setEscrow escrowId record with
    activeEscrows := s.activeEscrows - 1 }

def halted (env : Env) (tokens : List Address) : State :=
  tokens.foldl (State.halt env) { s with emergencyVaultMode := true }

end State

lemma recordToken_eq (s : State) (token : Address) :
    s.recordToken token = { s with tokens := (s.recordToken token).tokens } := by
  by_cases h : token ∈ s.tokens <;> simp [State.recordToken, h]

lemma opened_eq (s : State) (escrowId : ℕ) (record : Escrow) (y : YieldState) :
    s.opened escrowId record y = { s with
      escrow := Function.update s.escrow escrowId (some record)
      yieldState := Function.update s.yieldState record.token (some y)
      tokens := (s.recordToken record.token).tokens
      activeEscrows := s.activeEscrows + 1 } := by
  rw [State.opened, recordToken_eq]
  rfl

lemma closed_eq (s : State) (escrowId : ℕ) (record : Escrow) (y : YieldState) :
    s.closed escrowId record y = { s with
      escrow := Function.update s.escrow escrowId (some record)
      yieldState := Function.update s.yieldState record.token (some y)
      activeEscrows := s.activeEscrows - 1 } := rfl

lemma activeEscrows_recordToken (s : State) (token : Address) :
    (s.recordToken token).activeEscrows = s.activeEscrows := by rw [recordToken_eq]

lemma getStrategies_recordToken (s : State) (token : Address) :
    (s.recordToken token).getStrategies = s.getStrategies := by
  rw [recordToken_eq]
  rfl

lemma foldl_halt_eq (s : State) (tokens : List Address) : tokens.foldl (State.halt env) s =
    { s with yieldState := (tokens.foldl (State.halt env) s).yieldState } := by
  induction tokens generalizing s with
  | nil => rfl
  | cons token tokens ih =>
    have hone : s.halt env token = { s with yieldState := (s.halt env token).yieldState } := by
      rw [State.halt]
      split <;> rfl
    rw [List.foldl_cons, ih, hone]

lemma halted_eq (s : State) (tokens : List Address) : s.halted env tokens =
    { s with emergencyVaultMode := true, yieldState := (s.halted env tokens).yieldState } := by
  rw [State.halted, foldl_halt_eq]

/-- One to four strategies, none twice, whose positive weights are ten thousand together. -/
structure ValidPortfolio (strategies : List StrategyAllocation) : Prop where
  nonempty : strategies ≠ []
  few : strategies.length ≤ maxStrategies
  distinct : (strategies.map StrategyAllocation.address).Nodup
  positive : ∀ s ∈ strategies, 0 < s.weightBps
  total : (strategies.map StrategyAllocation.weightBps).sum = 10000

/-- What an escrow is opened with, and what it leaves. -/
structure Opened (d : Deployment W) (env : Env) (escrowId : ℕ) (record : Escrow)
    (m m' : Machine W) : Prop where
  initialized : m.store.initialized = true
  normal : m.store.emergencyVaultMode = false
  auth : env.auth record.payer = true
  positive : 0 < record.principal
  locked : env.sequence < record.releaseLedger
  share : record.beneficiaryInterestBps ≤ bpsDenominator
  active : record.released = false ∧ record.cancelled = false
  unused : m.store.escrow escrowId = none
  accruable : (m.store.yieldNow env record.token).Accruable env.timestamp
  debt : record.rewardDebt =
    ((m.store.yieldNow env record.token).accrued env.timestamp 0).index
  store : ∃ rate event, m'.store = (m.store.opened escrowId record
    { (m.store.yieldNow env record.token).accrued env.timestamp rate with
      totalPrincipal := (m.store.yieldNow env record.token).totalPrincipal + record.principal
      }).publish event
  transfers : m'.transfers = ⟨record.token, record.payer, d.self, record.principal⟩ :: m.transfers

/-- The call that settles an escrow, whose it is to make, and the record it leaves. -/
inductive Settles (env : Env) (escrowId : ℕ) (record : Escrow) : Op → Address → Escrow → Prop
  | release : Settles env escrowId record (.release escrowId) record.beneficiary
      { record with released := true }
  | cancel (hauth : env.auth record.payer = true) :
    Settles env escrowId record (.cancel escrowId) record.payer { record with cancelled := true }
  | withdrawPrincipal (hauth : env.auth record.payer = true) :
    Settles env escrowId record (.emergencyWithdrawPrincipal escrowId) record.payer
      { record with cancelled := true }
  | withdraw (hauth : env.auth record.payer = true) :
    Settles env escrowId record (.emergencyWithdraw escrowId) record.payer
      { record with cancelled := true }

/-- What the calls that settle an escrow pay outside emergencies. -/
def Op.payments (record : Escrow) (interest : ℤ) : Op → List (Address × ℤ)
  | .release _ =>
    let beneficiaryInterest := (interest * record.beneficiaryInterestBps).tdiv bpsDenominator
    [(record.beneficiary, record.principal + beneficiaryInterest),
      (record.payer, interest - beneficiaryInterest)]
  | _ => [(record.payer, record.principal + interest)]

/-- An open escrow is settled by the call, with these payments. -/
structure Closed (d : Deployment W) (escrowId : ℕ) (record settled : Escrow) (y : YieldState)
    (payments : List (Address × ℤ)) (m m' : Machine W) : Prop where
  initialized : m.store.initialized = true
  found : m.store.escrow escrowId = some record
  active : record.isActive = true
  counted : 1 ≤ m.store.activeEscrows
  store : ∃ rate event, m'.store = (m.store.closed escrowId settled
    { y with totalPrincipal := y.totalPrincipal - record.principal, rateBps := rate }).publish event
  transfers : m'.transfers = d.paid record.token payments ++ m.transfers

/-- The vault is asked for its balance, and pays what it has of the principal. -/
structure Rescue (d : Deployment W) (record : Escrow) (party : Address) (vault : I128)
    (m m' : Machine W) : Prop where
  world : ∃ world, d.balance record.token d.self m.world = some (vault, world) ∧
    if 0 < min vault.val record.principal then
      d.transfer record.token d.self party (min vault.val record.principal) world = some m'.world
    else m'.world = world

/-- The escrow that the call is to open, or to settle. -/
def Op.subject : Op → Option (ℕ × Bool)
  | .createEscrow escrowId _ _ _ _ _ _ => some (escrowId, false)
  | .release escrowId | .cancel escrowId | .emergencyWithdrawPrincipal escrowId
  | .emergencyWithdraw escrowId => some (escrowId, true)
  | _ => none

/-- What a successful call does. -/
inductive Effect (d : Deployment W) (R : W → W → Prop) (env : Env) (m m' : Machine W) : Op → Prop
  | initialised {admin adapter : Address} (hfresh : m.store.initialized = false)
    (hm : m' = m.put fun s => (s.initialised admin adapter).publish (.init admin adapter)) :
    Effect d R env m m' (.initialise admin adapter)
  | ported {op : Op} {strategies : List StrategyAllocation} {event : Event}
    (hop : op.subject = none) (hadmin : m.store.admin ≠ none) (hvalid : ValidPortfolio strategies)
    (hsame : m.store.activeEscrows ≠ 0 →
      sameStrategyAddresses m.store.getStrategies strategies = true)
    (hm : m' = m.put fun s => (s.setPortfolio strategies).publish event) : Effect d R env m m' op
  | thresholded {op : Op} {threshold : ℕ} {event : Event} (hop : op.subject = none)
    (hm : m' = m.put fun s => ({ s with rebalanceThreshold := some threshold }).publish event) :
    Effect d R env m m' op
  | looked {op : Op} (hop : op.subject = none) (hout : Outward R m m') : Effect d R env m m' op
  | rebalanced {token : Address} {event : Event} {m₁ : Machine W}
    (hnormal : m.store.emergencyVaultMode = false) (hout : Outward R m m₁)
    (hm : m' = m₁.put fun s => ({ s with
      lastRebalance := Function.update s.lastRebalance token (some env.sequence) }).publish event) :
    Effect d R env m m' (.rebalance token)
  | checkpointed {token : Address} {rate : ℕ} {m₁ : Machine W} (hout : Outward R m m₁)
    (hyield : (m.store.yieldNow env token).Accruable env.timestamp)
    (hm : m' = m₁.put (·.setYieldState token
      ((m.store.yieldNow env token).accrued env.timestamp rate))) :
    Effect d R env m m' (.getYieldState token)
  | opened {escrowId : ℕ} {record : Escrow} {amount : I128} (hamount : record.principal = amount.val)
    (hopen : Opened d env escrowId record m m') (hworld : R m.world m'.world) :
    Effect d R env m m' (.createEscrow escrowId record.payer record.beneficiary record.token amount
      record.releaseLedger record.beneficiaryInterestBps)
  | redeemed {op : Op} {escrowId rate : ℕ} {record settled : Escrow} {party : Address}
    (hsettles : Settles env escrowId record op party settled)
    (hnormal : m.store.emergencyVaultMode = false)
    (hyield : (m.store.yieldNow env record.token).Accruable env.timestamp)
    (hclose : Closed d escrowId record settled
      ((m.store.yieldNow env record.token).accrued env.timestamp rate)
      (op.payments record (record.yieldAt
        ((m.store.yieldNow env record.token).accrued env.timestamp rate).index)) m m')
    (hworld : R m.world m'.world) : Effect d R env m m' op
  | rescued {op : Op} {escrowId : ℕ} {record settled : Escrow} {party : Address} {y : YieldState}
    {vault : I128} (hsettles : Settles env escrowId record op party settled)
    (hemergency : m.store.emergencyVaultMode = true)
    (hyield : m.store.yieldState record.token = some y)
    (hclose : Closed d escrowId record settled y [(party, min vault.val record.principal)] m m')
    (hrescue : Rescue d record party vault m m')
    (hliquid : op ≠ .release escrowId → op ≠ .cancel escrowId → 0 < min vault.val record.principal)
    (hworld : R m.world m'.world) : Effect d R env m m' op
  | unwoundAll {minRecoveredAmount : I128} {event : Event} {m₁ : Machine W}
    (hnormal : m.store.emergencyVaultMode = false) (hout : Outward R m m₁)
    (hm : m' = m₁.put fun s => (s.halted env s.tokens).publish event) :
    Effect d R env m m' (.emergencyUnwindStrategy minRecoveredAmount)
  | unwound {token : Address} {minRecoveredAmount : I128} {event : Event} {m₁ : Machine W}
    (hnormal : m.store.emergencyVaultMode = false) (hout : Outward R m m₁)
    (hm : m' = m₁.put fun s => ((s.recordToken token).halted env [token]).publish event) :
    Effect d R env m m' (.emergencyUnwindToken token minRecoveredAmount)

end Outcomes

section Settles

variable {escrowId : ℕ} {record settled : Escrow} {op : Op} {party : Address}

lemma Settles.flagged (h : Settles env escrowId record op party settled) :
    settled = { record with released := true } ∨ settled = { record with cancelled := true } := by
  cases h with
  | release => exact Or.inl rfl
  | _ => exact Or.inr rfl

lemma Settles.subject (h : Settles env escrowId record op party settled) :
    op.subject = some (escrowId, true) := by
  cases h <;> rfl

lemma Settles.sameToken (h : Settles env escrowId record op party settled) :
    settled.token = record.token := by
  rcases h.flagged with rfl | rfl <;> rfl

end Settles

lemma Opened.yieldState {escrowId : ℕ} {record : Escrow} (h : Opened d env escrowId record m m') :
    ∃ rate, m'.store.yieldState = Function.update m.store.yieldState record.token
      (some { (m.store.yieldNow env record.token).accrued env.timestamp rate with
        totalPrincipal := (m.store.yieldNow env record.token).totalPrincipal + record.principal }) := by
  obtain ⟨rate, event, hstore⟩ := h.store
  rw [hstore, opened_eq]
  exact ⟨rate, rfl⟩

lemma Closed.yieldState {escrowId : ℕ} {record settled : Escrow} {y : YieldState}
    {payments : List (Address × ℤ)} (h : Closed d escrowId record settled y payments m m') :
    ∃ rate, m'.store.yieldState = Function.update m.store.yieldState settled.token
      (some { y with totalPrincipal := y.totalPrincipal - record.principal, rateBps := rate }) := by
  obtain ⟨rate, event, hstore⟩ := h.store
  rw [hstore, closed_eq]
  exact ⟨rate, rfl⟩

section Portfolio

variable {u : Unit} {strategies : List StrategyAllocation}

lemma totalWeight_ok {total k : ℕ} : totalWeight total strategies m = .ok (k, m') ↔
    (∀ s ∈ strategies, 0 < s.weightBps) ∧
      total + (strategies.map StrategyAllocation.weightBps).sum ≤ max total maxU32 ∧
      (strategies.map StrategyAllocation.address).Nodup ∧
      k = total + (strategies.map StrategyAllocation.weightBps).sum ∧ m' = m := by
  induction strategies generalizing total with
  | nil => simp [totalWeight]
  | cons s rest ih =>
    rw [totalWeight, Tx.reject_bind_ok, Tx.reject_bind_ok, Tx.reject_bind_ok, ih]
    simp only [List.mem_cons, forall_eq_or_imp, List.map_cons, List.sum_cons, List.nodup_cons,
      not_lt, add_assoc]
    constructor
    · rintro ⟨hs, hfits, hnew, hpos, hsum, hnodup, hk, rfl⟩
      refine ⟨⟨Nat.pos_of_ne_zero hs, hpos⟩, ?_, ⟨hnew, hnodup⟩, hk, rfl⟩
      omega
    · rintro ⟨⟨hs, hpos⟩, hsum, ⟨hnew, hnodup⟩, hk, rfl⟩
      refine ⟨hs.ne', ?_, hnew, hpos, ?_, hnodup, hk, rfl⟩ <;> omega

lemma validateStrategies_ok : validateStrategies strategies m = .ok (u, m') ↔
    ValidPortfolio strategies ∧ m' = m := by
  rw [validateStrategies, Tx.reject_bind_ok, Tx.reject_bind_ok, Tx.bind_ok]
  simp only [totalWeight_ok, Tx.reject_ok]
  constructor
  · rintro ⟨hne, hfew, _, _, ⟨hpos, -, hnodup, rfl, rfl⟩, htotal, rfl⟩
    refine ⟨⟨?_, not_lt.mp hfew, hnodup, hpos, ?_⟩, rfl⟩
    · rintro rfl
      exact hne rfl
    · simp only [bpsDenominator, ne_eq, not_not, zero_add] at htotal
      exact_mod_cast htotal
  · rintro ⟨⟨hne, hfew, hnodup, hpos, htotal⟩, rfl⟩
    refine ⟨?_, not_lt.mpr hfew, _, _, ⟨hpos, ?_, hnodup, rfl, rfl⟩, ?_, rfl⟩
    · simpa using hne
    · simp [htotal, maxU32]
    · simp [htotal, bpsDenominator]

@[simp] lemma validateStrategies_bind_ok {β : Type} {r : β} {k : Unit → Tx (Machine W) Error β} :
    (validateStrategies strategies >>= k) m = .ok (r, m') ↔
      ValidPortfolio strategies ∧ k () m = .ok (r, m') := by
  apply Tx.bind_iff
  intro u m'
  simp [validateStrategies_ok]

lemma ValidPortfolio.single (adapter : Address) : ValidPortfolio [⟨adapter, 10000⟩] :=
  ⟨by simp, by simp [maxStrategies], by simp, by simp, by simp⟩

lemma initializeEscrow_ok {admin adapter : Address} :
    initializeEscrow env admin adapter m = .ok (u, m') ↔ m.store.initialized = false ∧
      env.auth admin = true ∧
        m' = m.put fun s => (s.initialised admin adapter).publish (.init admin adapter) := by
  simp [initializeEscrow, State.initialised]

lemma setAdapter_ok {adapter : Address} (h : setAdapter env adapter m = .ok (u, m')) :
    m.store.admin ≠ none ∧ m.store.activeEscrows = 0 ∧
      ∃ event, m' = m.put fun s => (s.setPortfolio [⟨adapter, 10000⟩]).publish event := by
  rw [setAdapter, requireManager_bind_ok] at h
  obtain ⟨-, admin, hadmin, -, h⟩ := h
  rw [view_bind, Tx.reject_bind_ok, write_bind, publish_ok, Machine.put_put, not_not] at h
  exact ⟨by simp [hadmin], h.1, _, h.2⟩

lemma setStrategies_ok (h : setStrategies env strategies m = .ok (u, m')) :
    m.store.admin ≠ none ∧ ValidPortfolio strategies ∧ (m.store.activeEscrows ≠ 0 →
      sameStrategyAddresses m.store.getStrategies strategies = true) ∧
      ∃ event, m' = m.put fun s => (s.setPortfolio strategies).publish event := by
  rw [setStrategies, requireManager_bind_ok] at h
  obtain ⟨-, admin, hadmin, -, h⟩ := h
  rw [view_bind, view_bind, Tx.reject_bind_ok, validateStrategies_bind_ok, write_bind, publish_ok,
    Machine.put_put] at h
  obtain ⟨hsame, hvalid, rfl⟩ := h
  refine ⟨by simp [hadmin], hvalid, fun hactive => ?_, _, rfl⟩
  by_contra hdiff
  exact hsame ⟨hactive, Bool.not_eq_true _ ▸ hdiff⟩

lemma map_address_reweigh (strategy : Address) (weightBps : ℕ) :
    (reweigh strategy weightBps strategies).map StrategyAllocation.address =
      strategies.map StrategyAllocation.address := by
  rw [reweigh, List.map_map]
  apply List.map_congr_left
  intro s _
  by_cases hs : s.address = strategy <;> simp [hs]

lemma sameStrategyAddresses_of_map {current : List StrategyAllocation}
    (h : strategies.map StrategyAllocation.address = current.map StrategyAllocation.address) :
    sameStrategyAddresses current strategies = true := by
  have hlength := congrArg List.length h
  rw [List.length_map, List.length_map] at hlength
  rw [sameStrategyAddresses, h, hlength]
  simp only [beq_self_eq_true, Bool.true_and, List.all_eq_true, decide_eq_true_eq]
  exact fun s hs => List.mem_map_of_mem hs

lemma registerStrategy_ok {strategy : Address} {weightBps : ℕ}
    (h : registerStrategy env strategy weightBps m = .ok (u, m')) :
    m.store.admin ≠ none ∧ ∃ strategies event, ValidPortfolio strategies ∧
      (m.store.activeEscrows ≠ 0 →
        sameStrategyAddresses m.store.getStrategies strategies = true) ∧
      m' = m.put fun s => (s.setPortfolio strategies).publish event := by
  rw [registerStrategy, requireManager_bind_ok] at h
  obtain ⟨-, admin, hadmin, -, h⟩ := h
  rw [Tx.reject_bind_ok, view_bind] at h
  dsimp only at h
  rw [view_bind, Tx.reject_bind_ok, Tx.reject_bind_ok, validateStrategies_bind_ok, write_bind,
    publish_ok, Machine.put_put] at h
  obtain ⟨-, hnew, -, hvalid, rfl⟩ := h
  refine ⟨by simp [hadmin], _, _, hvalid, fun hactive => ?_, rfl⟩
  by_cases hfound : strategy ∈ m.store.getStrategies.map StrategyAllocation.address
  · rw [decide_eq_true hfound, if_pos rfl]
    exact sameStrategyAddresses_of_map (map_address_reweigh strategy weightBps)
  · exact absurd ⟨decide_eq_false hfound, hactive⟩ hnew

lemma setRebalanceThreshold_ok {thresholdBps : ℕ}
    (h : setRebalanceThreshold env thresholdBps m = .ok (u, m')) :
    ∃ event, m' = m.put fun s =>
      ({ s with rebalanceThreshold := some thresholdBps }).publish event := by
  rw [setRebalanceThreshold, requireManager_bind_ok] at h
  obtain ⟨-, admin, -, -, h⟩ := h
  rw [Tx.reject_bind_ok, write_bind, publish_ok, Machine.put_put] at h
  exact ⟨_, h.2⟩

end Portfolio

section Lifecycle

variable {u : Unit} {escrowId : ℕ} {record settled : Escrow} {y : YieldState}

lemma activeEscrow_ok {r : Escrow} : activeEscrow escrowId m = .ok (r, m') ↔
    m.store.escrow escrowId = some r ∧ r.isActive = true ∧ m' = m := by
  simp only [activeEscrow, view_bind, Tx.unwrap_bind_ok, Tx.reject_bind_ok, Tx.pure_ok]
  constructor
  · rintro ⟨_, hr, hactive, rfl, rfl⟩
    exact ⟨hr, by simpa using hactive, rfl⟩
  · rintro ⟨hr, hactive, rfl⟩
    exact ⟨r, hr, by simpa using hactive, rfl, rfl⟩

lemma nextYieldRate_outward [IsPreorder W R] (hd : d.Keeps R) (token : Address) (b : Bool) :
    Tx.Respects (Outward R) (nextYieldRate d token b) := by
  cases b
  · exact .currentYieldRate hd token
  · exact .pure 0

lemma removeActivePrincipalInternal_ok {b : Bool} :
    removeActivePrincipalInternal d token n b m = .ok (u, m') ↔
      ∃ y rate m₁, m.store.yieldState token = some y ∧ FitsI128 (y.totalPrincipal - n) ∧
        nextYieldRate d token b m = .ok (rate, m₁) ∧ m' = m₁.put (·.setYieldState token
          { y with totalPrincipal := y.totalPrincipal - n, rateBps := rate }) := by
  simp only [removeActivePrincipalInternal, view_bind, Tx.unwrap_bind_ok, checked_bind_ok,
    Tx.bind_ok (m := nextYieldRate d token b), write_ok]
  constructor
  · rintro ⟨y, hy, hfits, rate, m₁, hrate, rfl⟩
    exact ⟨y, rate, m₁, hy, hfits, hrate, rfl⟩
  · rintro ⟨y, rate, m₁, hy, hfits, hrate, rfl⟩
    exact ⟨y, hy, hfits, rate, m₁, hrate, rfl⟩

lemma subActive_ok : subActive m = .ok (u, m') ↔ 1 ≤ m.store.activeEscrows ∧
    m' = m.put fun s => { s with activeEscrows := s.activeEscrows - 1 } := by
  rw [subActive, view_bind, Tx.reject_bind_ok, write_ok, not_lt]
  rfl

lemma addActive_ok : addActive m = .ok (u, m') ↔ m.store.activeEscrows + 1 ≤ maxU32 ∧
    m' = m.put fun s => { s with activeEscrows := s.activeEscrows + 1 } := by
  rw [addActive, view_bind, Tx.reject_bind_ok, write_ok, not_lt]
  rfl

lemma close_ok : close d escrowId record n m = .ok (u, m') ↔
    ∃ y rate m₁, m.store.yieldState record.token = some y ∧ FitsI128 (y.totalPrincipal - n) ∧
      nextYieldRate d record.token m.store.emergencyVaultMode m = .ok (rate, m₁) ∧
      1 ≤ m₁.store.activeEscrows ∧ m' = m₁.put (·.closed escrowId record
        { y with totalPrincipal := y.totalPrincipal - n, rateBps := rate }) := by
  rw [close, view_bind, Tx.bind_unit_ok]
  simp only [removeActivePrincipalInternal_ok, write_bind, subActive_ok, Machine.put_put,
    Machine.put_store]
  constructor
  · rintro ⟨_, ⟨y, rate, m₁, hy, hfits, hrate, rfl⟩, hactive, rfl⟩
    exact ⟨y, rate, m₁, hy, hfits, hrate, hactive, rfl⟩
  · rintro ⟨y, rate, m₁, hy, hfits, hrate, hactive, rfl⟩
    exact ⟨_, ⟨y, rate, m₁, hy, hfits, hrate, rfl⟩, hactive, rfl⟩

lemma redeemPosition_fst {p : ℤ × ℤ} (h : redeemPosition d record m = .ok (p, m')) :
    p.1 = record.principal := by
  simp only [redeemPosition, view_bind, Tx.bind_ok, Tx.pure_ok] at h
  obtain ⟨_, _, _, _, _, _, _, _, _, _, _, _, rfl, -⟩ := h
  rfl

lemma redeem_ok {p : ℤ × ℤ} : redeem d env record m = .ok (p, m') ↔
    ∃ y m₁ harvested, updateYieldState d env record.token m = .ok (y, m₁) ∧
      redeemPosition d record m₁ = .ok ((record.principal, harvested), m') ∧
      FitsI128 (y.index - record.rewardDebt) ∧
      FitsI128 (record.principal * (y.index - record.rewardDebt)) ∧
      record.yieldAt y.index ≤ harvested ∧ p = (record.principal, record.yieldAt y.index) := by
  simp only [redeem, Tx.bind_ok, positionYield_ok, Tx.reject_ok, Tx.pure_ok, not_lt]
  constructor
  · rintro ⟨y, m₁, hy, ⟨principal, harvested⟩, m₂, hr, _, _, ⟨hdelta, hproduct, rfl, rfl⟩, _, _,
      ⟨hcovered, rfl⟩, rfl, rfl⟩
    obtain rfl : principal = record.principal := redeemPosition_fst hr
    exact ⟨y, m₁, harvested, hy, hr, hdelta, hproduct, hcovered, rfl⟩
  · rintro ⟨y, m₁, harvested, hy, hr, hdelta, hproduct, hcovered, rfl⟩
    exact ⟨y, m₁, hy, _, m', hr, _, m', ⟨hdelta, hproduct, rfl, rfl⟩, (), m', ⟨hcovered, rfl⟩,
      rfl, rfl⟩

lemma splitInterest_ok {principal interest : ℤ} {bps : ℕ} {p : ℤ × ℤ} :
    splitInterest principal interest bps m = .ok (p, m') ↔ FitsI128 (interest * bps) ∧
      FitsI128 (principal + (interest * bps).tdiv bpsDenominator) ∧
      FitsI128 (interest - (interest * bps).tdiv bpsDenominator) ∧
      p = (principal + (interest * bps).tdiv bpsDenominator,
        interest - (interest * bps).tdiv bpsDenominator) ∧ m' = m := by
  simp [splitInterest]

/-- A payment leaves the storage alone, and tells of its transfer. -/
structure Paying (d : Deployment W) (R : W → W → Prop) (token : Address)
    (payments : List (Address × ℤ)) (m m' : Machine W) : Prop where
  store : m'.store = m.store
  transfers : m'.transfers = d.paid token payments ++ m.transfers
  world : R m.world m'.world

lemma payOut_ok {target : Address} : payOut d token target n m = .ok (u, m') ↔
    m'.store = m.store ∧ m'.transfers = d.paid token [(target, n)] ++ m.transfers ∧
      if 0 < n then d.transfer token d.self target n m.world = some m'.world
      else m'.world = m.world := by
  rw [payOut, Tx.whenever_ok, transfer_ok]
  obtain ⟨store, transfers, world⟩ := m'
  by_cases hn : 0 < n
  · simp only [hn, true_and, not_true_eq_false, false_and, or_false, Machine.mk.injEq, if_true,
      Deployment.paid, List.filter_cons, decide_true, List.filter_nil, List.map_cons, List.map_nil,
      List.reverse_singleton, List.singleton_append]
    constructor
    · rintro ⟨_, hworld, rfl, rfl, rfl⟩
      exact ⟨rfl, rfl, hworld⟩
    · rintro ⟨rfl, rfl, hworld⟩
      exact ⟨_, hworld, rfl, rfl, rfl⟩
  · obtain ⟨store₀, transfers₀, world₀⟩ := m
    simp [hn, Deployment.paid]

lemma paid_append (token : Address) (first second : List (Address × ℤ)) :
    d.paid token (first ++ second) = d.paid token second ++ d.paid token first := by
  simp [Deployment.paid]

end Lifecycle

section Settlements

variable {u : Unit} {escrowId : ℕ} {record settled : Escrow} {party : Address} {m₂ m₃ : Machine W}

@[simp] lemma setYieldState_setYieldState (s : State) (y z : YieldState) :
    (s.setYieldState token y).setYieldState token z = s.setYieldState token z := by
  rw [State.setYieldState, State.setYieldState, State.setYieldState, Function.update_idem]

lemma recordToken_setYieldState (s : State) (y : YieldState) (other : Address) :
    (s.setYieldState token y).recordToken other = (s.recordToken other).setYieldState token y := by
  by_cases h : other ∈ s.tokens <;> simp [State.recordToken, State.setYieldState, h]

lemma closed_setYieldState (s : State) (y z : YieldState) :
    (s.setYieldState settled.token y).closed escrowId settled z = s.closed escrowId settled z := by
  rw [State.closed, State.closed, setYieldState_setYieldState]
  rfl

lemma yieldState_setYieldState (s : State) (y : YieldState) :
    (s.setYieldState token y).yieldState token = some y := Function.update_self _ _ _

lemma liquidity_ok : liquidity d record m = .ok (n, m') ↔ ∃ vault : I128,
    n = min vault.val record.principal ∧ m'.store = m.store ∧ m'.transfers = m.transfers ∧
      d.balance record.token d.self m.world = some (vault, m'.world) := by
  simp only [liquidity, getVaultBalance, Tx.bind_ok, ask_ok, Tx.pure_ok]
  constructor
  · rintro ⟨_, _, ⟨vault, _, ⟨world, hworld, rfl⟩, rfl, rfl⟩, rfl, rfl⟩
    exact ⟨vault, rfl, rfl, rfl, hworld⟩
  · rintro ⟨vault, rfl, hstore, htransfers, hworld⟩
    obtain ⟨store, transfers, world⟩ := m'
    obtain rfl := hstore
    obtain rfl := htransfers
    exact ⟨_, _, ⟨vault, _, ⟨world, hworld, rfl⟩, rfl, rfl⟩, rfl, rfl⟩

lemma payOut_of_pos {target : Address} (hn : 0 < n) :
    payOut d token target n = transfer d token d.self target n := by
  rw [payOut, Tx.whenever, if_pos hn]

variable [IsPreorder W R]

lemma payOut_world (hd : d.Keeps R) {target : Address}
    (h : payOut d token target n m = .ok (u, m')) : R m.world m'.world := by
  obtain ⟨-, -, hworld⟩ := payOut_ok.mp h
  split_ifs at hworld
  · exact hd.transfer _ _ _ _ _ _ hworld
  · rw [hworld]
    exact refl_of R _

/-- In an emergency: the vault is asked, the party is paid what there is, the escrow is closed. -/
lemma closed_of_rescue (hd : d.Keeps R) (hinit : m.store.initialized = true)
    (hemergency : m.store.emergencyVaultMode = true) (hfound : m.store.escrow escrowId = some record)
    (hactive : record.isActive = true) (hvault : liquidity d record m = .ok (n, m₁))
    (hpay : payOut d record.token party n m₁ = .ok ((), m₂))
    (hclose : close d escrowId settled record.principal m₂ = .ok ((), m₃))
    (htoken : settled.token = record.token) (event : Event) :
    ∃ y, ∃ vault : I128, n = min vault.val record.principal ∧
      m.store.yieldState record.token = some y ∧
      Closed d escrowId record settled y [(party, min vault.val record.principal)] m
        (m₃.put (State.publish · event)) ∧
      Rescue d record party vault m (m₃.put (State.publish · event)) ∧
      R m.world m₃.world := by
  obtain ⟨vault, rfl, hstore₁, htransfers₁, hbalance⟩ := liquidity_ok.mp hvault
  obtain ⟨hstore₂, htransfers₂, hworld₂⟩ := payOut_ok.mp hpay
  have hstore : m₂.store = m.store := hstore₂.trans hstore₁
  obtain ⟨y, rate, m₄, hy, -, hrate, hcounted, rfl⟩ := close_ok.mp hclose
  rw [hstore, hemergency, nextYieldRate, if_pos rfl, Tx.pure_ok] at hrate
  obtain ⟨rfl, rfl⟩ := hrate
  rw [hstore, htoken] at hy
  rw [hstore] at hcounted
  refine ⟨y, vault, rfl, hy, ⟨hinit, hfound, hactive, hcounted, ⟨0, event, ?_⟩, ?_⟩,
    ⟨m₁.world, hbalance, by simpa only [Machine.put_world] using hworld₂⟩, ?_⟩
  · simp only [Machine.put_put, Machine.put_store, hstore]
  · rw [Machine.put_transfers, Machine.put_transfers, htransfers₂, htransfers₁]
  · exact trans_of R (hd.balance _ _ _ _ _ hbalance) (payOut_world hd hpay)

/-- Otherwise: the position is taken out of the strategies, paid, and the escrow is closed. -/
lemma closed_of_redeem (hd : d.Keeps R) (hinit : m.store.initialized = true)
    (hfound : m.store.escrow escrowId = some record) (hactive : record.isActive = true) {p : ℤ × ℤ} (hredeem : redeem d env record m = .ok (p, m₁)) :
    ∃ rate, (m.store.yieldNow env record.token).Accruable env.timestamp ∧
      p = (record.principal, record.yieldAt
        ((m.store.yieldNow env record.token).accrued env.timestamp rate).index) ∧
      R m.world m₁.world ∧
      ∀ settled payments event m₂ m₃, Paying d R record.token payments m₁ m₂ →
        close d escrowId settled p.1 m₂ = .ok ((), m₃) → settled.token = record.token →
        Closed d escrowId record settled
          ((m.store.yieldNow env record.token).accrued env.timestamp rate) payments m
          (m₃.put (State.publish · event)) ∧ R m₁.world m₃.world := by
  obtain ⟨y, m₄, harvested, hupdate, hposition, -, -, -, rfl⟩ := redeem_ok.mp hredeem
  obtain ⟨hyield, rate, m₅, hrate, rfl, rfl⟩ := updateYieldState_ok.mp hupdate
  have hout₅ := Outward.currentYieldRate hd _ _ _ _ hrate
  have hout₁ := Outward.redeemPosition hd _ _ _ _ hposition
  refine ⟨rate, hyield, rfl, trans_of R hout₅.world hout₁.world, ?_⟩
  intro settled payments event m₂ m₃ hpay hclose htoken
  generalize hz : (m.store.yieldNow env record.token).accrued env.timestamp rate = z at *
  have hstore : m₂.store = m.store.setYieldState record.token z := by
    rw [hpay.store, hout₁.store, Machine.put_store, hout₅.store]
  obtain ⟨y, rate', m₆, hy, -, hrate', hcounted, rfl⟩ := close_ok.mp hclose
  have hout₆ := nextYieldRate_outward hd _ _ _ _ _ hrate'
  rw [hstore, htoken, yieldState_setYieldState] at hy
  obtain rfl := Option.some.inj hy
  have hstore₆ : m₆.store = m.store.setYieldState settled.token z := by
    rw [hout₆.store, hstore, htoken]
  rw [hstore₆] at hcounted
  refine ⟨⟨hinit, hfound, hactive, hcounted, ⟨rate', event, ?_⟩, ?_⟩,
    trans_of R hpay.world hout₆.world⟩
  · rw [Machine.put_put, Machine.put_store, hstore₆, closed_setYieldState]
  · rw [Machine.put_transfers, Machine.put_transfers, hout₆.transfers, hpay.transfers,
      hout₁.transfers, Machine.put_transfers, hout₅.transfers]

lemma Paying.of_payOut (hd : d.Keeps R) {target : Address}
    (h : payOut d token target n m = .ok (u, m')) : Paying d R token [(target, n)] m m' := by
  obtain ⟨hstore, htransfers, -⟩ := payOut_ok.mp h
  exact ⟨hstore, htransfers, payOut_world hd h⟩

lemma Paying.append {first second : List (Address × ℤ)} (h : Paying d R token first m m₁)
    (h' : Paying d R token second m₁ m') : Paying d R token (first ++ second) m m' where
  store := h'.store.trans h.store
  transfers := by rw [h'.transfers, h.transfers, paid_append, List.append_assoc]
  world := trans_of R h.world h'.world

end Settlements

section Calls

variable [IsPreorder W R] {u : Unit} {escrowId : ℕ}

lemma release_effect (hd : d.Keeps R) {r : ReleaseOutcome}
    (h : release d env escrowId m = .ok (r, m')) : Effect d R env m m' (.release escrowId) := by
  rw [release, requireInitialized_bind_ok, Tx.bind_ok] at h
  obtain ⟨hinit, record, m₀, hrecord, h⟩ := h
  obtain ⟨hfound, hactive, rfl⟩ := activeEscrow_ok.mp hrecord
  rw [view_bind, Tx.reject_bind_ok] at h
  obtain ⟨-, h⟩ := h
  cases hmode : m₀.store.emergencyVaultMode with
  | true =>
    rw [hmode, if_pos rfl] at h
    simp only [Tx.bind_ok, publish_ok, Tx.pure_ok] at h
    obtain ⟨payout, m₁, hvault, _, m₂, hpay, _, m₃, hclose, _, _, rfl, -, rfl⟩ := h
    obtain ⟨y, vault, rfl, hy, hclosed, hrescue, hworld⟩ :=
      closed_of_rescue hd hinit hmode hfound hactive hvault hpay hclose rfl
        (.released escrowId payout 0 payout 0)
    exact .rescued .release hmode hy hclosed hrescue (fun hne => absurd rfl hne) hworld
  | false =>
    rw [hmode, if_neg (by decide)] at h
    simp only [Tx.bind_ok, publish_ok, Tx.pure_ok, splitInterest_ok] at h
    obtain ⟨p, m₁, hredeem, q, _, ⟨-, -, -, rfl, rfl⟩, _, m₂, hfirst, _, m₃, hsecond, _, m₄,
      hclose, _, _, rfl, -, rfl⟩ := h
    obtain ⟨rate, hyield, rfl, hworld, hend⟩ :=
      closed_of_redeem hd hinit hfound hactive hredeem
    obtain ⟨hclosed, hlast⟩ :=
      hend _ _ _ _ _ ((Paying.of_payOut hd hfirst).append (.of_payOut hd hsecond)) hclose rfl
    exact .redeemed .release hmode hyield hclosed (trans_of R hworld hlast)

lemma cancel_effect (hd : d.Keeps R) {r : ReleaseOutcome}
    (h : cancel d env escrowId m = .ok (r, m')) : Effect d R env m m' (.cancel escrowId) := by
  rw [cancel, requireInitialized_bind_ok, Tx.bind_ok] at h
  obtain ⟨hinit, record, m₀, hrecord, h⟩ := h
  obtain ⟨hfound, hactive, rfl⟩ := activeEscrow_ok.mp hrecord
  rw [view_bind, Tx.reject_bind_ok, requireAuth_bind_ok] at h
  obtain ⟨-, hauth, h⟩ := h
  cases hmode : m₀.store.emergencyVaultMode with
  | true =>
    rw [hmode, if_pos rfl] at h
    simp only [Tx.bind_ok, publish_ok, Tx.pure_ok] at h
    obtain ⟨payout, m₁, hvault, _, m₂, hpay, _, m₃, hclose, _, _, rfl, -, rfl⟩ := h
    obtain ⟨y, vault, rfl, hy, hclosed, hrescue, hworld⟩ :=
      closed_of_rescue hd hinit hmode hfound hactive hvault hpay hclose rfl
        (.cancelled escrowId payout 0 payout)
    exact .rescued (.cancel hauth) hmode hy hclosed hrescue (fun _ hne => absurd rfl hne) hworld
  | false =>
    rw [hmode, if_neg (by decide)] at h
    simp only [Tx.bind_ok, publish_ok, Tx.pure_ok, checkedI128_ok] at h
    obtain ⟨p, m₁, hredeem, q, _, ⟨-, rfl, rfl⟩, _, m₂, hpay, _, m₃, hclose, _, _, rfl, -, rfl⟩ := h
    obtain ⟨rate, hyield, rfl, hworld, hend⟩ :=
      closed_of_redeem hd hinit hfound hactive hredeem
    obtain ⟨hclosed, hlast⟩ := hend _ _ _ _ _ (.of_payOut hd hpay) hclose rfl
    exact .redeemed (.cancel hauth) hmode hyield hclosed (trans_of R hworld hlast)

lemma emergencyWithdrawPrincipal_effect (hd : d.Keeps R)
    (h : emergencyWithdrawPrincipal d env escrowId m = .ok (n, m')) {op : Op}
    (hop : ∀ record : Escrow, env.auth record.payer = true →
      Settles env escrowId record op record.payer { record with cancelled := true }) :
    Effect d R env m m' op := by
  rw [emergencyWithdrawPrincipal, requireInitialized_bind_ok, view_bind, Tx.reject_bind_ok,
    Tx.bind_ok] at h
  obtain ⟨hinit, hmode, record, m₀, hrecord, h⟩ := h
  obtain ⟨hfound, hactive, rfl⟩ := activeEscrow_ok.mp hrecord
  rw [requireAuth_bind_ok, Tx.bind_ok] at h
  obtain ⟨hauth, payout, m₁, hvault, h⟩ := h
  rw [Tx.reject_bind_ok, not_le] at h
  obtain ⟨hpos, h⟩ := h
  rw [← payOut_of_pos hpos] at h
  simp only [Tx.bind_ok, publish_ok, Tx.pure_ok] at h
  obtain ⟨_, m₂, hpay, _, m₃, hclose, _, _, rfl, -, rfl⟩ := h
  have hemergency := (Bool.not_eq_false _).mp hmode
  obtain ⟨y, vault, rfl, hy, hclosed, hrescue, hworld⟩ :=
    closed_of_rescue hd hinit hemergency hfound hactive hvault hpay hclose rfl
      (.emWdr escrowId record.payer payout)
  exact .rescued (hop record hauth) hemergency hy hclosed hrescue (fun _ _ => hpos) hworld

lemma createEscrow_effect (hd : d.Keeps R) {payer beneficiary : Address} {amount : I128}
    {releaseLedger beneficiaryInterestBps : ℕ}
    (h : createEscrow d env escrowId payer beneficiary token amount releaseLedger
      beneficiaryInterestBps m = .ok (u, m')) :
    Effect d R env m m' (.createEscrow escrowId payer beneficiary token amount releaseLedger
      beneficiaryInterestBps) := by
  rw [createEscrow, requireInitialized_bind_ok, rejectEmergency_bind_ok, Tx.reject_bind_ok,
    Tx.reject_bind_ok, Tx.reject_bind_ok, requireAuth_bind_ok, view_bind, Tx.reject_bind_ok,
    view_bind, Tx.bind_ok] at h
  obtain ⟨hinit, hnormal, hpos, hlocked, hshare, hauth, hunused, y, m₁, hupdate, h⟩ := h
  obtain ⟨hyield, rate, m₀, hrate, rfl, rfl⟩ := updateYieldState_ok.mp hupdate
  have hout₀ := Outward.currentYieldRate hd _ _ _ _ hrate
  rw [write_bind, Machine.put_put] at h
  simp only [Tx.bind_ok, checkedI128_ok, checked_ok, transfer_ok, write_ok, publish_ok,
    addActive_ok] at h
  obtain ⟨_, _, ⟨world, htransfer, rfl⟩, shares, _, hshares, _, m₃, ⟨-, rfl, rfl⟩, _, _,
    hdeposit, _, m₄, ⟨-, rfl, rfl⟩, rate', m₅, hrate', _, _, rfl, _, _, ⟨-, rfl⟩, _, _, rfl, hm⟩ := h
  have hout₃ : Outward R _ m₃ := Outward.allocate _ _ _ _ _ _ hshares
  have hout₄ := Outward.depositShares hd _ _ _ _ _ _ hdeposit
  have hout₅ := Outward.currentYieldRate hd _ _ _ _ hrate'
  generalize hz : (m.store.yieldNow env token).accrued env.timestamp rate = z at *
  have hstore : m₅.store = (m.store.setYieldState token z).recordToken token := by
    rw [hout₅.store, hout₄.store, hout₃.store]
    simp only [Machine.put_store, hout₀.store]
  have htransfers : m₅.transfers = ⟨token, payer, d.self, amount⟩ :: m.transfers := by
    rw [hout₅.transfers, hout₄.transfers, hout₃.transfers]
    simp only [Machine.put_transfers, hout₀.transfers]
  have hworld : R m.world m₅.world :=
    trans_of R hout₀.world (trans_of R (hd.transfer _ _ _ _ _ _ htransfer)
      (trans_of R hout₃.world (trans_of R hout₄.world hout₅.world)))
  have hopen : Opened d env escrowId
      ⟨payer, beneficiary, token, amount, releaseLedger, beneficiaryInterestBps, z.index, false, false⟩ m
      m' :=
    { initialized := hinit
      normal := hnormal
      auth := hauth
      positive := not_le.mp hpos
      locked := not_le.mp hlocked
      share := not_lt.mp hshare
      active := ⟨rfl, rfl⟩
      unused := by simpa using hunused
      accruable := hyield
      debt := by rw [← hz]; rfl
      store := by
        refine ⟨rate', .created escrowId payer beneficiary token amount releaseLedger
          beneficiaryInterestBps, ?_⟩
        rw [hm]
        simp only [Machine.put_store, hstore, recordToken_setYieldState]
        rw [setYieldState_setYieldState, ← hz, State.opened, ← activeEscrows_recordToken m.store token]
        rfl
      transfers := by simp only [hm, Machine.put_transfers, htransfers] }
  exact .opened rfl hopen (by simpa only [hm, Machine.put_world] using hworld)

lemma rebalance_effect (hd : d.Keeps R) (h : rebalance d env token m = .ok (u, m')) :
    Effect d R env m m' (.rebalance token) := by
  rw [rebalance, requireInitialized_bind_ok, rejectEmergency_bind_ok, view_bind] at h
  obtain ⟨-, hnormal, h⟩ := h
  rcases Tx.whenever_ok.mp h with ⟨-, h⟩ | ⟨-, rfl⟩
  · obtain ⟨found, m₁, hfound, h⟩ := Tx.bind_ok.mp h
    have hout₁ := Outward.strategyBalances hd _ _ _ _ _ hfound
    rcases Tx.whenever_ok.mp h with ⟨-, h⟩ | ⟨-, rfl⟩
    · simp only [Tx.bind_ok, checkedI128_ok, write_ok, publish_ok] at h
      obtain ⟨shares, m₂, hshares, _, _, ⟨-, rfl, rfl⟩, final, m₃, hfinal, _, m₄, hsurplus, _, m₅,
        hdeficit, _, _, rfl, rfl⟩ := h
      have hout₂ := Outward.allocate (R := R) _ _ _ _ _ _ hshares
      have hout₃ := Outward.finalTargets (R := R) _ _ _ _ _ hfinal
      have hout₄ := Outward.withdrawSurplus hd _ _ _ _ _ hsurplus
      have hout₅ := Outward.depositDeficit hd _ _ _ _ _ hdeficit
      have hout := trans_of (Outward R) hout₁ (trans_of (Outward R) hout₂
        (trans_of (Outward R) hout₃ (trans_of (Outward R) hout₄ hout₅)))
      exact .rebalanced hnormal hout rfl
    · exact .looked rfl hout₁
  · exact .looked rfl (refl_of (Outward R) _)

lemma getYieldState_effect (hd : d.Keeps R) {y : YieldState}
    (h : getYieldState d env token m = .ok (y, m')) : Effect d R env m m' (.getYieldState token) := by
  rw [getYieldState, requireInitialized_bind_ok] at h
  obtain ⟨hyield, rate, m₁, hrate, rfl, rfl⟩ := updateYieldState_ok.mp h.2
  exact .checkpointed (Outward.currentYieldRate hd _ _ _ _ hrate) hyield rfl

omit [IsPreorder W R] in
lemma requireUnwinder_bind_ok {β : Type} {r : β} {k : Address → Tx (Machine W) Error β} :
    (requireUnwinder env n >>= k) m = .ok (r, m') ↔
      m.store.initialized = true ∧ 0 ≤ n ∧ m.store.emergencyVaultMode = false ∧
        ∃ admin, m.store.admin = some admin ∧ env.auth admin = true ∧ k admin m = .ok (r, m') := by
  rw [Tx.bind_ok]
  simp only [requireUnwinder, requireInitialized_bind_ok, Tx.bind_ok (m := requireAdmin env),
    requireAdmin_ok, Tx.reject_bind_ok, rejectEmergency_bind_ok, Tx.pure_ok, not_lt]
  constructor
  · rintro ⟨admin, _, ⟨hinit, _, _, ⟨hadmin, hauth, rfl⟩, hn, hnormal, rfl, rfl⟩, h⟩
    exact ⟨hinit, hn, hnormal, _, hadmin, hauth, h⟩
  · rintro ⟨hinit, hn, hnormal, admin, hadmin, hauth, h⟩
    exact ⟨admin, m, ⟨hinit, admin, m, ⟨hadmin, hauth, rfl⟩, hn, hnormal, rfl, rfl⟩, h⟩

omit [IsPreorder W R] in
lemma emergencyUnwindStrategy_ok {r : ℤ} (h : emergencyUnwindStrategy d env n m = .ok (r, m')) :
    m.store.initialized = true ∧ m.store.emergencyVaultMode = false ∧ ∃ m₁ event,
      (Tx.fold (fun total token => do
        let recovered ← unwindTokenFromStrategies d token m.store.getStrategies
        checked (total + recovered)) 0 m.store.tokens) m = .ok (r, m₁) ∧
      m' = m₁.put fun s => (s.halted env m.store.tokens).publish event := by
  rw [emergencyUnwindStrategy, requireUnwinder_bind_ok] at h
  obtain ⟨hinit, -, hnormal, admin, -, -, h⟩ := h
  rw [view_bind, view_bind, Tx.bind_ok] at h
  obtain ⟨total, m₁, hfold, h⟩ := h
  simp only [Tx.reject_bind_ok, write_bind, publish_bind, Tx.pure_ok, Machine.put_put] at h
  obtain ⟨-, rfl, rfl⟩ := h
  exact ⟨hinit, hnormal, m₁, _, hfold, rfl⟩

omit [IsPreorder W R] in
lemma emergencyUnwindToken_ok {r : ℤ} (h : emergencyUnwindToken d env token n m = .ok (r, m')) :
    m.store.initialized = true ∧ m.store.emergencyVaultMode = false ∧ ∃ m₁ event,
      unwindTokenFromStrategies d token m.store.getStrategies (m.put (·.recordToken token)) =
        .ok (r, m₁) ∧
      m' = m₁.put fun s => (s.halted env [token]).publish event := by
  rw [emergencyUnwindToken, requireUnwinder_bind_ok] at h
  obtain ⟨hinit, -, hnormal, admin, -, -, h⟩ := h
  rw [write_bind, view_bind, Tx.bind_ok] at h
  obtain ⟨recovered, m₁, hunwind, h⟩ := h
  simp only [Tx.reject_bind_ok, write_bind, publish_bind, Tx.pure_ok, Machine.put_put] at h
  obtain ⟨-, rfl, rfl⟩ := h
  rw [Machine.put_store, getStrategies_recordToken] at hunwind
  exact ⟨hinit, hnormal, m₁, _, hunwind, rfl⟩

/-- Every call that succeeds has one of the effects. -/
theorem Op.invoke_effect (hd : d.Keeps R) (op : Op) (h : op.invoke d env m = .ok ((), m')) :
    Effect d R env m m' op := by
  cases op with
  | initialise admin adapter =>
    obtain ⟨hfresh, -, hm⟩ := initializeEscrow_ok.mp h
    exact .initialised hfresh hm
  | setAdapter adapter =>
    obtain ⟨hadmin, hnone, event, hm⟩ := setAdapter_ok h
    exact .ported rfl hadmin (.single adapter) (fun hactive => absurd hnone hactive) hm
  | setStrategies strategies =>
    obtain ⟨hadmin, hvalid, hsame, event, hm⟩ := setStrategies_ok h
    exact .ported rfl hadmin hvalid hsame hm
  | registerStrategy strategy weightBps =>
    obtain ⟨hadmin, strategies, event, hvalid, hsame, hm⟩ := registerStrategy_ok h
    exact .ported rfl hadmin hvalid hsame hm
  | setRebalanceThreshold thresholdBps =>
    obtain ⟨event, hm⟩ := setRebalanceThreshold_ok h
    exact .thresholded rfl hm
  | checkRebalanceNeeded token =>
    exact .looked rfl (Tx.Respects.void (Outward.checkRebalanceNeeded hd token) _ _ _ h)
  | rebalance token => exact rebalance_effect hd h
  | getStrategyBalance strategy token =>
    exact .looked rfl (Tx.Respects.void (Outward.getBalance hd strategy token) _ _ _ h)
  | getTotalStrategyBalance token =>
    exact .looked rfl (Tx.Respects.void (Outward.getTotalStrategyBalance hd token) _ _ _ h)
  | getVaultBalance token =>
    exact .looked rfl (Tx.Respects.void (Outward.getVaultBalance hd token) _ _ _ h)
  | getYieldState token =>
    obtain ⟨y, h⟩ := Tx.void_ok.mp h
    exact getYieldState_effect hd h
  | createEscrow => exact createEscrow_effect hd h
  | release escrowId =>
    obtain ⟨r, h⟩ := Tx.void_ok.mp h
    exact release_effect hd h
  | cancel escrowId =>
    obtain ⟨r, h⟩ := Tx.void_ok.mp h
    exact cancel_effect hd h
  | emergencyUnwindStrategy minRecoveredAmount =>
    obtain ⟨r, h⟩ := Tx.void_ok.mp h
    obtain ⟨-, hnormal, m₁, event, hfold, rfl⟩ := emergencyUnwindStrategy_ok h
    have hout : Outward R m m₁ := Tx.Respects.fold (fun _ _ _ =>
      .bind (.unwindTokenFromStrategies hd _ _) fun _ => .checked _) _ _ _ hfold
    have hm : (m₁.put fun s => (s.halted env m.store.tokens).publish event) =
        m₁.put fun s => (s.halted env s.tokens).publish event := by
      rw [← hout.store]
      rfl
    exact .unwoundAll hnormal hout hm
  | emergencyUnwindToken token minRecoveredAmount =>
    obtain ⟨r, h⟩ := Tx.void_ok.mp h
    obtain ⟨-, hnormal, m₁, event, hunwind, rfl⟩ := emergencyUnwindToken_ok h
    have hout := Outward.unwindTokenFromStrategies hd _ _ _ _ _ hunwind
    obtain ⟨store, transfers, world⟩ := m₁
    obtain ⟨rfl, rfl, hworld⟩ := hout
    have hout' : Outward R m ⟨m.store, m.transfers, world⟩ := ⟨rfl, rfl, hworld⟩
    exact .unwound hnormal hout' rfl
  | emergencyWithdrawPrincipal escrowId =>
    obtain ⟨r, h⟩ := Tx.void_ok.mp h
    exact emergencyWithdrawPrincipal_effect hd h fun _ => .withdrawPrincipal
  | emergencyWithdraw escrowId =>
    obtain ⟨r, h⟩ := Tx.void_ok.mp h
    exact emergencyWithdrawPrincipal_effect hd h fun _ => .withdraw

omit [IsPreorder W R] in
lemma Effect.settled {op : Op} (h : Effect d R env m m' op) (hop : op.subject = some (escrowId, true))
    (hnormal : m.store.emergencyVaultMode = false) :
    ∃ record settled party rate, Settles env escrowId record op party settled ∧
      Closed d escrowId record settled ((m.store.yieldNow env record.token).accrued env.timestamp rate)
        (op.payments record (record.yieldAt
          ((m.store.yieldNow env record.token).accrued env.timestamp rate).index)) m m' := by
  cases h with
  | redeemed hsettles _ _ hclose _ =>
    rw [hsettles.subject] at hop
    obtain ⟨rfl, -⟩ := Prod.mk.inj (Option.some.inj hop)
    exact ⟨_, _, _, _, hsettles, hclose⟩
  | rescued _ hemergency _ _ _ _ _ => simp [hnormal] at hemergency
  | ported hnone _ _ _ _ | thresholded hnone _ | looked hnone _ => simp [hnone] at hop
  | opened _ _ _ => simp [Op.subject] at hop
  | _ => cases hop

/-- A call does nothing at all, or has an effect. -/
lemma step_cases (hd : d.Keeps R) (env : Env) (op : Op) (m : Machine W) :
    step d (.call env op) m = m ∨ Effect d R env m (step d (.call env op) m) op := by
  rcases Tx.commit_cases (op.invoke d env) m with h | ⟨_, h⟩
  · exact Or.inl h
  · exact Or.inr (op.invoke_effect hd h)

end Calls

end StellarTags.YieldEscrow
