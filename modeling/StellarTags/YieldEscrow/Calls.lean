import StellarTags.Library.Runs
import StellarTags.YieldEscrow.Operations

/-! The yield escrow's runs, and what each entry point leaves behind when it succeeds. -/

namespace StellarTags.YieldEscrow

open Library.Transactions Library.Integers Library.Runs Soroban

/-- The entry points, but for those that read the contract's own storage and nothing else. -/
inductive Op : Type
  | initialise (admin adapter : Address)
  | setAdapter (adapter : Address)
  | setStrategies (strategies : List StrategyAllocation)
  | registerStrategy (strategy : Address) (weightBps : ℕ)
  | setRebalanceThreshold (thresholdBps : ℕ)
  | checkRebalanceNeeded (token : Address)
  | rebalance (token : Address)
  | getStrategyBalance (strategy token : Address)
  | getTotalStrategyBalance (token : Address)
  | getVaultBalance (token : Address)
  | getYieldState (token : Address)
  | createEscrow (escrowId : ℕ) (payer beneficiary token : Address) (amount : I128)
      (releaseLedger beneficiaryInterestBps : ℕ)
  | release (escrowId : ℕ)
  | cancel (escrowId : ℕ)
  | emergencyUnwindStrategy (minRecoveredAmount : I128)
  | emergencyUnwindToken (token : Address) (minRecoveredAmount : I128)
  | emergencyWithdrawPrincipal (escrowId : ℕ)
  | emergencyWithdraw (escrowId : ℕ)
  deriving DecidableEq

variable {W : Type} (d : Deployment W)

def getTotalStrategyBalance (token : Address) : Tx (Machine W) Error ℤ := do
  let strategies ← view State.getStrategies
  let found ← strategyBalances d token strategies
  pure found.2

def Op.invoke (env : Env) : Op → Tx (Machine W) Error Unit
  | .initialise admin adapter => initializeEscrow env admin adapter
  | .setAdapter adapter => YieldEscrow.setAdapter env adapter
  | .setStrategies strategies => YieldEscrow.setStrategies env strategies
  | .registerStrategy strategy weightBps => YieldEscrow.registerStrategy env strategy weightBps
  | .setRebalanceThreshold thresholdBps => YieldEscrow.setRebalanceThreshold env thresholdBps
  | .checkRebalanceNeeded token => Tx.void (YieldEscrow.checkRebalanceNeeded d token)
  | .rebalance token => YieldEscrow.rebalance d env token
  | .getStrategyBalance strategy token => Tx.void (getBalance d strategy token)
  | .getTotalStrategyBalance token => Tx.void (YieldEscrow.getTotalStrategyBalance d token)
  | .getVaultBalance token => Tx.void (YieldEscrow.getVaultBalance d token)
  | .getYieldState token => Tx.void (YieldEscrow.getYieldState d env token)
  | .createEscrow escrowId payer beneficiary token amount releaseLedger beneficiaryInterestBps =>
    YieldEscrow.createEscrow d env escrowId payer beneficiary token amount releaseLedger
      beneficiaryInterestBps
  | .release escrowId => Tx.void (YieldEscrow.release d env escrowId)
  | .cancel escrowId => Tx.void (YieldEscrow.cancel d env escrowId)
  | .emergencyUnwindStrategy minRecoveredAmount =>
    Tx.void (YieldEscrow.emergencyUnwindStrategy d env minRecoveredAmount)
  | .emergencyUnwindToken token minRecoveredAmount =>
    Tx.void (YieldEscrow.emergencyUnwindToken d env token minRecoveredAmount)
  | .emergencyWithdrawPrincipal escrowId =>
    Tx.void (YieldEscrow.emergencyWithdrawPrincipal d env escrowId)
  | .emergencyWithdraw escrowId => Tx.void (YieldEscrow.emergencyWithdraw d env escrowId)

/-- One transaction to the contract, with the ledger and the authorisations it runs under; or
whatever the world does meanwhile. -/
inductive Move (W : Type) : Type
  | call (env : Env) (op : Op)
  | outside (f : W → W)

def step : Move W → Machine W → Machine W
  | .call env op, m => Tx.commit (op.invoke d env) m
  | .outside f, m => { m with world := f m.world }

def after (world : W) (moves : List (Move W)) : Machine W := run (step d) ⟨{}, [], world⟩ moves

variable {d} {m m' : Machine W} {env : Env} {token : Address} {n : ℤ}

namespace Machine

def put (m : Machine W) (f : State → State) : Machine W := { m with store := f m.store }

@[simp] lemma put_store (f : State → State) : (m.put f).store = f m.store := rfl

@[simp] lemma put_transfers (f : State → State) : (m.put f).transfers = m.transfers := rfl

@[simp] lemma put_world (f : State → State) : (m.put f).world = m.world := rfl

@[simp] lemma put_put (f g : State → State) : (m.put f).put g = m.put fun s => g (f s) := rfl

end Machine

section Primitives

variable {α β : Type} {a : α} {r : β} {k : α → Tx (Machine W) Error β}
  {k' : Unit → Tx (Machine W) Error β} {j : ℤ → Tx (Machine W) Error β} {u : Unit}

@[simp] lemma view_ok {f : State → α} : view f m = .ok (a, m') ↔ a = f m.store ∧ m' = m := by
  rw [view, Tx.read_ok]

@[simp] lemma view_bind {f : State → α} : (view f >>= k) m = k (f m.store) m := rfl

@[simp] lemma write_ok {f : State → State} : write f m = .ok (u, m') ↔ m' = m.put f := by
  rw [write, Tx.update_ok, Machine.put]

@[simp] lemma write_bind {f : State → State} : (write f >>= k') m = k' () (m.put f) := rfl

@[simp] lemma publish_ok {event : Event} :
    publish event m = .ok (u, m') ↔ m' = m.put (State.publish · event) := by
  rw [publish, write_ok]

@[simp] lemma publish_bind {event : Event} :
    (publish event >>= k') m = k' () (m.put (State.publish · event)) := rfl

@[simp] lemma requireAuth_bind_ok {x : Address} : (requireAuth env x >>= k') m = .ok (r, m') ↔
    env.auth x = true ∧ k' () m = .ok (r, m') := by
  rw [requireAuth, Tx.demand_bind_ok]

@[simp] lemma checked_ok {x : ℤ} : checked n m = .ok (x, m') ↔ FitsI128 n ∧ x = n ∧ m' = m := by
  simp [checked, and_assoc]

@[simp] lemma checked_bind_ok : (checked n >>= j) m = .ok (r, m') ↔
    FitsI128 n ∧ j n m = .ok (r, m') := by
  simp [checked]

lemma ask_ok {f : W → Option (α × W)} :
    ask f m = .ok (a, m') ↔ ∃ world, f m.world = some (a, world) ∧ m' = { m with world := world } := by
  rw [ask]
  cases f m.world with
  | none => simp
  | some answer => simp [Prod.ext_iff, and_assoc, eq_comm]

lemma order_ok {f : W → Option W} :
    order f m = .ok (u, m') ↔ ∃ world, f m.world = some world ∧ m' = { m with world := world } := by
  rw [order, ask_ok]
  cases f m.world with
  | none => simp
  | some world => simp

lemma transfer_ok {source target : Address} : transfer d token source target n m = .ok (u, m') ↔
    ∃ world, d.transfer token source target n m.world = some world ∧
      m' = ⟨m.store, ⟨token, source, target, n⟩ :: m.transfers, world⟩ := by
  simp only [transfer, Tx.bind_unit_ok, order_ok, Tx.update_ok]
  constructor
  · rintro ⟨_, ⟨world, hworld, rfl⟩, rfl⟩
    exact ⟨world, hworld, rfl⟩
  · rintro ⟨world, hworld, rfl⟩
    exact ⟨_, ⟨world, hworld, rfl⟩, rfl⟩

@[simp] lemma requireInitialized_bind_ok : (requireInitialized >>= k') m = .ok (r, m') ↔
    m.store.initialized = true ∧ k' () m = .ok (r, m') := by
  apply Tx.bind_iff
  intro u m'
  simp [requireInitialized]

lemma rejectEmergency_ok : rejectEmergency m = .ok (u, m') ↔
    m.store.emergencyVaultMode = false ∧ m' = m := by
  simp [rejectEmergency]

@[simp] lemma rejectEmergency_bind_ok : (rejectEmergency >>= k') m = .ok (r, m') ↔
    m.store.emergencyVaultMode = false ∧ k' () m = .ok (r, m') := by
  apply Tx.bind_iff
  intro u m'
  simp [rejectEmergency_ok]

lemma requireAdmin_ok {admin : Address} : requireAdmin env m = .ok (admin, m') ↔
    m.store.admin = some admin ∧ env.auth admin = true ∧ m' = m := by
  rw [requireAdmin, view_bind, Tx.unwrap_bind_ok]
  constructor
  · rintro ⟨x, hx, h⟩
    rw [requireAuth_bind_ok, Tx.pure_ok] at h
    obtain ⟨hauth, rfl, rfl⟩ := h
    exact ⟨hx, hauth, rfl⟩
  · rintro ⟨hadmin, hauth, rfl⟩
    exact ⟨admin, hadmin, requireAuth_bind_ok.mpr ⟨hauth, rfl⟩⟩

lemma requireManager_bind_ok {j : Address → Tx (Machine W) Error β} :
    (requireManager env >>= j) m = .ok (r, m') ↔
      m.store.emergencyVaultMode = false ∧
        ∃ admin, m.store.admin = some admin ∧ env.auth admin = true ∧ j admin m = .ok (r, m') := by
  simp only [requireManager, Tx.bind_ok, requireAdmin_ok, rejectEmergency_ok, Tx.pure_ok]
  constructor
  · rintro ⟨admin, _, ⟨_, _, ⟨hadmin, hauth, rfl⟩, _, _, ⟨he, rfl⟩, rfl, rfl⟩, h⟩
    exact ⟨he, admin, hadmin, hauth, h⟩
  · rintro ⟨he, admin, hadmin, hauth, h⟩
    exact ⟨admin, m, ⟨admin, m, ⟨hadmin, hauth, rfl⟩, (), m, ⟨he, rfl⟩, rfl, rfl⟩, h⟩

end Primitives

end StellarTags.YieldEscrow
