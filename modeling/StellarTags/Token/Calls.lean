import StellarTags.Library.Holdings
import StellarTags.Library.Runs
import StellarTags.Token.Operations

/-! The token's runs, and what each entry point leaves behind when it succeeds. -/

namespace StellarTags.Token

open Library.Transactions Library.Integers Library.Runs Library.Holdings Soroban

/-- The entry points that can write; the others only read. -/
inductive Op : Type
  | initialise (admin : Address) (name symbol : String) (decimals : ℕ)
  | setAdmin (newAdmin : Address)
  | setPaused (paused : Bool)
  | pause
  | unpause
  | setFrozen (account : Address) (frozen : Bool)
  | freeze (account : Address)
  | unfreeze (account : Address)
  | freezeAccountUntil (account : Address) (untilTimestamp : ℕ)
  | cancelFreeze (account : Address)
  | cancelFreezeUntil (account : Address)
  | setComplianceHook (hook : Address)
  | registerComplianceHook (hook : Address)
  | removeComplianceHook
  | deregisterComplianceHook
  | setMaxSupply (newMaxSupply : I128)
  | transferChecked (source target : Address) (amount : I128)
  | transfer (source target : Address) (amount : I128)
  | transferFromChecked (spender source target : Address) (amount : I128)
  | transferFrom (spender source target : Address) (amount : I128)
  | approve (owner spender : Address) (amount : I128) (expirationLedger : U32)
  | allowance (owner spender : Address)
  | permit (owner spender : Address) (value : I128) (deadline : ℕ) (signature : Bytes)
  | mint (target : Address) (amount : I128)
  | batchMint (recipients : List Address) (amounts : List I128)
  | burn (owner : Address) (amount : I128)
  | burnFrom (spender owner : Address) (amount : I128)
  deriving DecidableEq

variable (d : Deployment)

def Op.invoke (env : Env) : Op → Tx State Error Unit
  | .initialise admin name symbol decimals => initializeToken env admin name symbol decimals
  | .setAdmin newAdmin => Token.setAdmin env newAdmin
  | .setPaused paused => Token.setPaused env paused
  | .pause => Token.pause env
  | .unpause => Token.unpause env
  | .setFrozen account frozen => Token.setFrozen env account frozen
  | .freeze account => Token.freeze env account
  | .unfreeze account => Token.unfreeze env account
  | .freezeAccountUntil account untilTimestamp =>
    Token.freezeAccountUntil env account untilTimestamp
  | .cancelFreeze account => Token.cancelFreeze env account
  | .cancelFreezeUntil account => Token.cancelFreezeUntil env account
  | .setComplianceHook hook => Token.setComplianceHook env hook
  | .registerComplianceHook hook => Token.registerComplianceHook env hook
  | .removeComplianceHook => Token.removeComplianceHook env
  | .deregisterComplianceHook => Token.deregisterComplianceHook env
  | .setMaxSupply newMaxSupply => Token.setMaxSupply env newMaxSupply
  | .transferChecked source target amount => Token.transferChecked env source target amount
  | .transfer source target amount => Token.transfer env source target amount
  | .transferFromChecked spender source target amount =>
    Token.transferFromChecked env spender source target amount
  | .transferFrom spender source target amount => Token.transferFrom env spender source target amount
  | .approve owner spender amount expirationLedger =>
    Token.approve env owner spender amount expirationLedger
  | .allowance owner spender => Tx.void (Token.allowance env owner spender)
  | .permit owner spender value deadline signature =>
    Token.permit d env owner spender value deadline signature
  | .mint target amount => Token.mint env target amount
  | .batchMint recipients amounts => Token.batchMint env recipients (amounts.map Subtype.val)
  | .burn owner amount => Token.burn env owner amount
  | .burnFrom spender owner amount => Token.burnFrom env spender owner amount

/-- One transaction: an entry point, with the ledger and the authorisations it runs under. -/
structure Call where
  env : Env
  op : Op

def step (call : Call) : State → State := Tx.commit (call.op.invoke d call.env)

def after (calls : List Call) : State := run (step d) {} calls

lemma step_cases (call : Call) (s : State) :
    step d call s = s ∨ call.op.invoke d call.env s = .ok ((), step d call s) := by
  rcases Tx.commit_cases (call.op.invoke d call.env) s with h | ⟨_, h⟩
  · exact Or.inl h
  · exact Or.inr h

variable {d} {s t : State} {env : Env} {u : Unit}

namespace State

/-- The account may take part in what moves tokens or allowances. -/
structure Movable (s : State) (env : Env) (account : Address) : Prop where
  unpaused : s.isPaused = false
  unfrozen : s.isFrozen env account = false

/-- What an allowance reads as, and the state the read leaves behind. -/
def currentAllowance (s : State) (env : Env) (key : Address × Address) : Allowance :=
  if (s.storedAllowance key).Lapsed env then { s.storedAllowance key with amount := 0 }
  else s.storedAllowance key

def pruned (s : State) (env : Env) (key : Address × Address) : State :=
  if (s.storedAllowance key).Lapsed env then s.setAllowance key none else s

@[simp] lemma readBalance_setBalance (a : Address) (n : ℤ) :
    (s.setBalance a n).readBalance = Function.update s.readBalance a n := by
  funext x
  by_cases hx : x = a
  · subst hx
    simp [readBalance, setBalance]
  · simp [readBalance, setBalance, hx]

@[simp] lemma readBalance_publish (event : Event) : (s.publish event).readBalance = s.readBalance :=
  rfl

@[simp] lemma readBalance_setTotalSupply (n : ℤ) :
    (s.setTotalSupply n).readBalance = s.readBalance := rfl

@[simp] lemma readBalance_putAllowance (key : Address × Address) (a : Allowance) :
    (s.putAllowance key a).readBalance = s.readBalance := by
  rw [putAllowance]
  split_ifs <;> rfl

@[simp] lemma readBalance_pruned (key : Address × Address) :
    (s.pruned env key).readBalance = s.readBalance := by
  rw [pruned]
  split_ifs <;> rfl

@[simp] lemma getTotalSupply_debited (a : Address) (n : ℤ) :
    (s.debited a n).getTotalSupply = s.getTotalSupply := rfl

@[simp] lemma getTotalSupply_putAllowance (key : Address × Address) (a : Allowance) :
    (s.putAllowance key a).getTotalSupply = s.getTotalSupply := by
  rw [putAllowance]
  split_ifs <;> rfl

@[simp] lemma getTotalSupply_pruned (key : Address × Address) :
    (s.pruned env key).getTotalSupply = s.getTotalSupply := by
  rw [pruned]
  split_ifs <;> rfl

end State

section Inversion

variable {a b : Address} {n : ℤ} {key : Address × Address} {α : Type} {r : α}
  {k : Unit → Tx State Error α}

@[simp] lemma requireAuth_bind_ok : (requireAuth env a >>= k) s = .ok (r, t) ↔
    env.auth a = true ∧ k () s = .ok (r, t) := by
  simp [requireAuth]

@[simp] lemma requireAdminAuth_bind_ok {k : Address → Tx State Error α} :
    (requireAdminAuth env >>= k) s = .ok (r, t) ↔
      ∃ admin, s.admin = some admin ∧ env.auth admin = true ∧ k admin s = .ok (r, t) := by
  cases hadmin : s.admin with
  | none => simp [requireAdminAuth, hadmin, Tx.bind_ok]
  | some admin =>
    rw [Tx.bind_iff (p := env.auth admin = true) (x := admin) (v := s)]
    · simp
    · intro a t
      simp [requireAdminAuth, hadmin]

@[simp] lemma publish_ok (event : Event) : publish event s = .ok (u, t) ↔ t = s.publish event := by
  simp [publish]

lemma assertMovable_ok : assertMovable env a s = .ok (u, t) ↔ s.Movable env a ∧ u = () ∧ t = s := by
  simp only [assertMovable, Tx.read_bind, Tx.reject_bind_ok, Tx.reject_ok, Bool.not_eq_true]
  constructor
  · rintro ⟨hp, hf, rfl⟩
    exact ⟨⟨hp, hf⟩, trivial, rfl⟩
  · rintro ⟨⟨hp, hf⟩, -, rfl⟩
    exact ⟨hp, hf, rfl⟩

@[simp] lemma assertMovable_bind_ok : (assertMovable env a >>= k) s = .ok (r, t) ↔
    s.Movable env a ∧ k () s = .ok (r, t) :=
  Tx.bind_iff fun _ _ => assertMovable_ok

@[simp] lemma assertSettled_bind_ok : (assertSettled env a b >>= k) s = .ok (r, t) ↔
    (s.Movable env a ∧ s.Movable env b) ∧ k () s = .ok (r, t) := by
  apply Tx.bind_iff
  intro u t
  rw [assertSettled, assertMovable_bind_ok, assertMovable_ok, and_assoc]

/-- The partition is asked, too, before an account's tokens are burnt. -/
structure State.Transferable (s : State) (a : Address) (n : ℤ) : Prop where
  unfrozen : s.isPartitionFrozen a = false
  fits : FitsI128 (s.readBalance a - s.readCollateralLocked a)
  enough : n ≤ s.readBalance a - s.readCollateralLocked a

@[simp] lemma assertTransferable_bind_ok : (assertTransferable a n >>= k) s = .ok (r, t) ↔
    s.Transferable a n ∧ k () s = .ok (r, t) := by
  apply Tx.bind_iff
  intro u t
  simp only [assertTransferable, Tx.read_bind, Tx.reject_bind_ok, checkedI128_bind_ok,
    Tx.reject_ok, not_lt, Bool.not_eq_true]
  constructor
  · rintro ⟨hp, hf, hn, rfl⟩
    exact ⟨⟨hp, hf, hn⟩, trivial, rfl⟩
  · rintro ⟨⟨hp, hf, hn⟩, -, rfl⟩
    exact ⟨hp, hf, hn, rfl⟩

/-- What the hook, if there is one, thinks of a transfer. -/
def State.Compliant (s : State) (env : Env) (source target : Address) (n : ℤ) : Prop :=
  ∀ hook, s.complianceHook = some hook → env.validateTransfer hook source target n = true

@[simp] lemma validateCompliance_bind_ok : (validateCompliance env a b n >>= k) s = .ok (r, t) ↔
    s.Compliant env a b n ∧ k () s = .ok (r, t) := by
  apply Tx.bind_iff
  intro u t
  rw [validateCompliance, Tx.read_bind]
  cases hhook : s.complianceHook with
  | none => simp [State.Compliant, hhook]
  | some hook => simp [State.Compliant, hhook]

@[simp] lemma credit_bind_ok : (credit a n >>= k) s = .ok (r, t) ↔
    FitsI128 (s.readBalance a + n) ∧ k () (s.credited a n) = .ok (r, t) := by
  apply Tx.bind_iff
  intro u t
  simp [credit, State.credited]

@[simp] lemma debit_bind_ok : (debit a n >>= k) s = .ok (r, t) ↔
    (n ≤ s.readBalance a ∧ FitsI128 (s.readBalance a - n)) ∧
      k () (s.debited a n) = .ok (r, t) := by
  apply Tx.bind_iff
  intro u t
  simp [debit, State.debited, and_assoc]

@[simp] lemma readAllowance_bind_ok {k : Allowance → Tx State Error α} :
    (readAllowance env key >>= k) s = .ok (r, t) ↔
      k (s.currentAllowance env key) (s.pruned env key) = .ok (r, t) := by
  rw [Tx.bind_iff (p := True) (x := s.currentAllowance env key) (v := s.pruned env key)]
  · simp
  · intro a t
    by_cases hl : (s.storedAllowance key).Lapsed env
    · simp [readAllowance, State.currentAllowance, State.pruned, hl]
    · simp [readAllowance, State.currentAllowance, State.pruned, hl]

@[simp] lemma spendAllowance_bind_ok {current : Allowance} :
    (spendAllowance key current n >>= k) s = .ok (r, t) ↔
      FitsI128 (current.amount - n) ∧
        k () (s.putAllowance key { current with amount := current.amount - n }) = .ok (r, t) := by
  apply Tx.bind_iff
  intro u t
  simp [spendAllowance, writeAllowance]

@[simp] lemma shrinkSupply_bind_ok : (shrinkSupply n >>= k) s = .ok (r, t) ↔
    FitsI128 (s.getTotalSupply - n) ∧
      k () (s.setTotalSupply (s.getTotalSupply - n)) = .ok (r, t) := by
  apply Tx.bind_iff
  intro u t
  simp [shrinkSupply]

@[simp] lemma grownSupply_bind_ok {k : ℤ → Tx State Error α} :
    (grownSupply n >>= k) s = .ok (r, t) ↔
      (FitsI128 (s.getTotalSupply + n) ∧ s.getTotalSupply + n ≤ s.getMaxSupply) ∧
        k (s.getTotalSupply + n) s = .ok (r, t) := by
  apply Tx.bind_iff
  intro u t
  simp [grownSupply, and_assoc]

end Inversion

section Administration

/-- What the configuration calls leave alone, and how they treat the rest. -/
structure Administered (s t : State) : Prop where
  balance : t.readBalance = s.readBalance
  supply : t.getTotalSupply = s.getTotalSupply
  allowance : t.allowance = s.allowance
  permitNonce : t.permitNonce = s.permitNonce
  initialized : t.initialized = s.initialized
  name : t.name = s.name
  admin : s.admin.isSome ∧ t.admin.isSome
  capped : s.getTotalSupply ≤ s.getMaxSupply → t.getTotalSupply ≤ t.getMaxSupply

def Op.IsAdministration : Op → Prop
  | .setAdmin _ | .setPaused _ | .pause | .unpause | .setFrozen _ _ | .freeze _ | .unfreeze _
  | .freezeAccountUntil _ _ | .cancelFreeze _ | .cancelFreezeUntil _ | .setComplianceHook _
  | .registerComplianceHook _ | .removeComplianceHook | .deregisterComplianceHook
  | .setMaxSupply _ => True
  | _ => False

lemma setFrozen_ok {account : Address} {frozen : Bool} (h : setFrozen env account frozen s = .ok (u, t)) :
    ∃ admin event, s.admin = some admin ∧
      t = (if frozen then s.freeze account else s.lift account).publish event := by
  simp only [setFrozen, requireAdminAuth_bind_ok, Tx.update_bind, publish_ok] at h
  obtain ⟨admin, hadmin, -, rfl⟩ := h
  exact ⟨admin, _, hadmin, rfl⟩

lemma freezeAccountUntil_ok {account : Address} {untilTimestamp : ℕ}
    (h : freezeAccountUntil env account untilTimestamp s = .ok (u, t)) :
    ∃ admin event, s.admin = some admin ∧
      t = (if untilTimestamp ≤ env.timestamp then s.liftUntil account
        else s.freezeUntil account untilTimestamp).publish event := by
  rw [freezeAccountUntil, requireAdminAuth_bind_ok] at h
  obtain ⟨admin, hadmin, -, h⟩ := h
  split_ifs at h with hpast
  · simp only [Tx.update_bind, publish_ok] at h
    exact ⟨admin, _, hadmin, by rw [h, if_pos hpast]⟩
  · simp only [Tx.update_bind, publish_ok] at h
    exact ⟨admin, _, hadmin, by rw [h, if_neg hpast]⟩

lemma cancelFreeze_ok {account : Address} (h : cancelFreeze env account s = .ok (u, t)) :
    ∃ admin event, s.admin = some admin ∧ t = (s.lift account).publish event := by
  simp only [cancelFreeze, requireAdminAuth_bind_ok, Tx.update_bind, publish_ok] at h
  obtain ⟨admin, hadmin, -, rfl⟩ := h
  exact ⟨admin, _, hadmin, rfl⟩

lemma cancelFreezeUntil_ok {account : Address} (h : cancelFreezeUntil env account s = .ok (u, t)) :
    ∃ admin event, s.admin = some admin ∧ t = (s.liftUntil account).publish event := by
  simp only [cancelFreezeUntil, requireAdminAuth_bind_ok, Tx.update_bind, publish_ok] at h
  obtain ⟨admin, hadmin, -, rfl⟩ := h
  exact ⟨admin, _, hadmin, rfl⟩

lemma setPaused_ok {paused : Bool} (h : setPaused env paused s = .ok (u, t)) :
    ∃ admin event, s.admin = some admin ∧
      t = ({ s with paused := some paused } : State).publish event := by
  simp only [setPaused, requireAdminAuth_bind_ok, Tx.update_bind, publish_ok] at h
  obtain ⟨admin, hadmin, -, rfl⟩ := h
  exact ⟨admin, _, hadmin, rfl⟩

lemma setComplianceHook_ok {hook : Address} (h : setComplianceHook env hook s = .ok (u, t)) :
    ∃ admin event, s.admin = some admin ∧
      t = ({ s with complianceHook := some hook } : State).publish event := by
  simp only [setComplianceHook, requireAdminAuth_bind_ok, Tx.update_bind, publish_ok] at h
  obtain ⟨admin, hadmin, -, rfl⟩ := h
  exact ⟨admin, _, hadmin, rfl⟩

lemma removeComplianceHook_ok (h : removeComplianceHook env s = .ok (u, t)) :
    ∃ admin event, s.admin = some admin ∧
      t = ({ s with complianceHook := none } : State).publish event := by
  simp only [removeComplianceHook, requireAdminAuth_bind_ok, Tx.update_bind, publish_ok] at h
  obtain ⟨admin, hadmin, -, rfl⟩ := h
  exact ⟨admin, _, hadmin, rfl⟩

lemma setAdmin_ok {newAdmin : Address} (h : setAdmin env newAdmin s = .ok (u, t)) :
    ∃ admin event, s.admin = some admin ∧
      t = ({ s with admin := some newAdmin } : State).publish event := by
  simp only [setAdmin, requireAdminAuth_bind_ok, Tx.read_bind, Tx.reject_bind_ok, Tx.update_bind,
    publish_ok] at h
  obtain ⟨admin, hadmin, -, -, rfl⟩ := h
  exact ⟨admin, _, hadmin, rfl⟩

lemma setMaxSupply_ok {n : ℤ} (h : setMaxSupply env n s = .ok (u, t)) :
    ∃ admin event, s.admin = some admin ∧ s.getTotalSupply ≤ n ∧
      t = ({ s with maxSupply := some n } : State).publish event := by
  simp only [setMaxSupply, requireAdminAuth_bind_ok, Tx.read_bind, Tx.reject_bind_ok,
    Tx.update_bind, publish_ok, not_lt] at h
  obtain ⟨admin, hadmin, -, -, hn, rfl⟩ := h
  exact ⟨admin, _, hadmin, hn, rfl⟩

lemma Administered.publish {v : State} (h : Administered s v) (event : Event) :
    Administered s (v.publish event) :=
  ⟨h.balance, h.supply, h.allowance, h.permitNonce, h.initialized, h.name, h.admin, h.capped⟩

lemma administered_lift {admin : Address} (hadmin : s.admin = some admin) (account : Address) :
    Administered s (s.lift account) :=
  ⟨rfl, rfl, rfl, rfl, rfl, rfl, by simp [State.lift, hadmin], id⟩

lemma administered_liftUntil {admin : Address} (hadmin : s.admin = some admin)
    (account : Address) : Administered s (s.liftUntil account) :=
  ⟨rfl, rfl, rfl, rfl, rfl, rfl, by simp [State.liftUntil, hadmin], id⟩

lemma setFrozen_administered {account : Address} {frozen : Bool}
    (h : setFrozen env account frozen s = .ok (u, t)) : Administered s t := by
  obtain ⟨admin, event, hadmin, rfl⟩ := setFrozen_ok h
  apply Administered.publish
  split_ifs
  · exact ⟨rfl, rfl, rfl, rfl, rfl, rfl, by simp [State.freeze, hadmin], id⟩
  · exact administered_lift hadmin account

lemma freezeAccountUntil_administered {account : Address} {untilTimestamp : ℕ}
    (h : freezeAccountUntil env account untilTimestamp s = .ok (u, t)) : Administered s t := by
  obtain ⟨admin, event, hadmin, rfl⟩ := freezeAccountUntil_ok h
  apply Administered.publish
  split_ifs
  · exact administered_liftUntil hadmin account
  · exact ⟨rfl, rfl, rfl, rfl, rfl, rfl, by simp [State.freezeUntil, hadmin], id⟩

lemma setPaused_administered {paused : Bool} (h : setPaused env paused s = .ok (u, t)) :
    Administered s t := by
  obtain ⟨admin, event, hadmin, rfl⟩ := setPaused_ok h
  apply Administered.publish
  exact ⟨rfl, rfl, rfl, rfl, rfl, rfl, by simp [hadmin], id⟩

lemma setComplianceHook_administered {hook : Address}
    (h : setComplianceHook env hook s = .ok (u, t)) : Administered s t := by
  obtain ⟨admin, event, hadmin, rfl⟩ := setComplianceHook_ok h
  apply Administered.publish
  exact ⟨rfl, rfl, rfl, rfl, rfl, rfl, by simp [hadmin], id⟩

lemma removeComplianceHook_administered (h : removeComplianceHook env s = .ok (u, t)) :
    Administered s t := by
  obtain ⟨admin, event, hadmin, rfl⟩ := removeComplianceHook_ok h
  apply Administered.publish
  exact ⟨rfl, rfl, rfl, rfl, rfl, rfl, by simp [hadmin], id⟩

lemma Op.invoke_administered {op : Op} (hop : op.IsAdministration)
    (h : op.invoke d env s = .ok (u, t)) : Administered s t := by
  cases op with
  | setAdmin newAdmin =>
    obtain ⟨admin, event, hadmin, rfl⟩ := setAdmin_ok h
    apply Administered.publish
    exact ⟨rfl, rfl, rfl, rfl, rfl, rfl, by simp [hadmin], id⟩
  | setPaused paused => exact setPaused_administered h
  | pause => exact setPaused_administered h
  | unpause => exact setPaused_administered h
  | setFrozen account frozen => exact setFrozen_administered h
  | freeze account => exact setFrozen_administered h
  | unfreeze account => exact setFrozen_administered h
  | freezeAccountUntil account untilTimestamp => exact freezeAccountUntil_administered h
  | cancelFreeze account =>
    obtain ⟨admin, event, hadmin, rfl⟩ := cancelFreeze_ok h
    exact (administered_lift hadmin account).publish event
  | cancelFreezeUntil account =>
    obtain ⟨admin, event, hadmin, rfl⟩ := cancelFreezeUntil_ok h
    exact (administered_liftUntil hadmin account).publish event
  | setComplianceHook hook => exact setComplianceHook_administered h
  | registerComplianceHook hook => exact setComplianceHook_administered h
  | removeComplianceHook => exact removeComplianceHook_administered h
  | deregisterComplianceHook => exact removeComplianceHook_administered h
  | setMaxSupply newMaxSupply =>
    obtain ⟨admin, event, hadmin, hcap, rfl⟩ := setMaxSupply_ok h
    apply Administered.publish
    exact ⟨rfl, rfl, rfl, rfl, rfl, rfl, by simp [hadmin], fun _ => hcap⟩
  | _ => exact hop.elim

lemma initializeToken_ok {admin : Address} {name symbol : String} {decimals : ℕ}
    (h : initializeToken env admin name symbol decimals s = .ok (u, t)) :
    s.initialized = false ∧
      t = (s.started admin name symbol decimals).publish (.init admin symbol) := by
  simp only [initializeToken, Tx.read_bind, Tx.reject_bind_ok, requireAuth_bind_ok,
    Tx.update_bind, publish_ok] at h
  obtain ⟨hinit, -, rfl⟩ := h
  exact ⟨by simpa using hinit, rfl⟩

end Administration

section Outcomes

variable {source target spender owner : Address} {n : ℤ} {expiration deadline : ℕ}
  {signature : Bytes}

lemma transferChecked_ok : transferChecked env source target n s = .ok (u, t) ↔
    0 ≤ n ∧ (s.Movable env source ∧ s.Movable env target) ∧ env.auth source = true ∧
      s.Compliant env source target n ∧
      (n ≤ s.readBalance source ∧ FitsI128 (s.readBalance source - n)) ∧
      FitsI128 ((s.debited source n).readBalance target + n) ∧
      t = ((s.debited source n).credited target n).publish (.transfer source target n) := by
  simp only [transferChecked, Tx.reject_bind_ok, not_lt, assertSettled_bind_ok,
    requireAuth_bind_ok, validateCompliance_bind_ok, debit_bind_ok, credit_bind_ok, publish_ok]

/-- The state once the spender's allowance is charged. -/
def State.charged (s : State) (env : Env) (key : Address × Address) (n : ℤ) : State :=
  (s.pruned env key).putAllowance key
    { s.currentAllowance env key with amount := (s.currentAllowance env key).amount - n }

lemma transferFromChecked_ok : transferFromChecked env spender source target n s = .ok (u, t) ↔
    0 ≤ n ∧ (s.Movable env source ∧ s.Movable env target) ∧ s.Movable env spender ∧
      env.auth spender = true ∧ n ≤ (s.currentAllowance env (source, spender)).amount ∧
      (s.pruned env (source, spender)).Compliant env source target n ∧
      FitsI128 ((s.currentAllowance env (source, spender)).amount - n) ∧
      (n ≤ s.readBalance source ∧ FitsI128 (s.readBalance source - n)) ∧
      FitsI128 (((s.charged env (source, spender) n).debited source n).readBalance target + n) ∧
      t = (((s.charged env (source, spender) n).debited source n).credited target n).publish
        (.transfer source target n) := by
  simp only [transferFromChecked, Tx.reject_bind_ok, not_lt, assertSettled_bind_ok,
    assertMovable_bind_ok, requireAuth_bind_ok, readAllowance_bind_ok, validateCompliance_bind_ok,
    spendAllowance_bind_ok, debit_bind_ok, credit_bind_ok, publish_ok, State.charged,
    State.readBalance_putAllowance, State.readBalance_pruned]

lemma approve_ok : approve env owner spender n expiration s = .ok (u, t) ↔
    0 ≤ n ∧ ¬ (0 < n ∧ expiration < env.sequence) ∧ s.Movable env owner ∧
      ¬ s.isPartitionFrozen owner = true ∧ env.auth owner = true ∧
      t = (s.putAllowance (owner, spender) ⟨n, expiration⟩).publish
        (.approve owner spender n expiration) := by
  simp only [approve, Tx.reject_bind_ok, not_lt, assertMovable_bind_ok, Tx.read_bind,
    requireAuth_bind_ok, writeAllowance, Tx.update_bind, publish_ok]

lemma allowance_ok {r : ℤ} : allowance env owner spender s = .ok (r, t) ↔
    r = (s.currentAllowance env (owner, spender)).amount ∧ t = s.pruned env (owner, spender) := by
  simp only [allowance, readAllowance_bind_ok, Tx.pure_ok]

lemma burn_ok : burn env owner n s = .ok (u, t) ↔
    0 ≤ n ∧ s.Movable env owner ∧ s.Transferable owner n ∧ env.auth owner = true ∧
      (n ≤ s.readBalance owner ∧ FitsI128 (s.readBalance owner - n)) ∧
      FitsI128 (s.getTotalSupply - n) ∧
      t = ((s.debited owner n).setTotalSupply (s.getTotalSupply - n)).publish (.burn owner n) := by
  simp only [burn, Tx.reject_bind_ok, not_lt, assertMovable_bind_ok, assertTransferable_bind_ok,
    requireAuth_bind_ok, debit_bind_ok, shrinkSupply_bind_ok, publish_ok,
    State.getTotalSupply_debited]

lemma burnFrom_ok : burnFrom env spender owner n s = .ok (u, t) ↔
    0 ≤ n ∧ s.Movable env owner ∧ s.Transferable owner n ∧ s.Movable env spender ∧
      env.auth spender = true ∧
      ¬ (0 < (s.currentAllowance env (owner, spender)).expirationLedger ∧
        (s.currentAllowance env (owner, spender)).expirationLedger < env.sequence) ∧
      n ≤ (s.currentAllowance env (owner, spender)).amount ∧
      FitsI128 ((s.currentAllowance env (owner, spender)).amount - n) ∧
      (n ≤ s.readBalance owner ∧ FitsI128 (s.readBalance owner - n)) ∧
      FitsI128 (s.getTotalSupply - n) ∧
      t = (((s.charged env (owner, spender) n).debited owner n).setTotalSupply
        (s.getTotalSupply - n)).publish (.burn owner n) := by
  simp only [burnFrom, Tx.reject_bind_ok, not_lt, assertMovable_bind_ok,
    assertTransferable_bind_ok, requireAuth_bind_ok, readAllowance_bind_ok, spendAllowance_bind_ok,
    debit_bind_ok, shrinkSupply_bind_ok, publish_ok, State.charged, State.readBalance_putAllowance,
    State.readBalance_pruned, State.getTotalSupply_debited, State.getTotalSupply_putAllowance,
    State.getTotalSupply_pruned]

lemma mint_ok : mint env target n s = .ok (u, t) ↔
    ∃ admin, s.admin = some admin ∧ env.auth admin = true ∧ 0 < n ∧ s.Movable env target ∧
      (FitsI128 (s.getTotalSupply + n) ∧ s.getTotalSupply + n ≤ s.getMaxSupply) ∧
      FitsI128 (s.readBalance target + n) ∧
      t = ((s.credited target n).setTotalSupply (s.getTotalSupply + n)).publish
        (.mint target n) := by
  simp only [mint, requireAdminAuth_bind_ok, Tx.reject_bind_ok, not_le, assertMovable_bind_ok,
    grownSupply_bind_ok, credit_bind_ok, Tx.update_bind, publish_ok]

/-- What a permit that succeeds has shown. -/
structure PermitShown (d : Deployment) (env : Env) (s : State) (owner spender : Address) (value : ℤ)
    (deadline : ℕ) (signature : Bytes) : Prop where
  initialized : s.initialized = true
  nonneg : 0 ≤ value
  timely : env.timestamp ≤ deadline
  movable : s.Movable env owner
  signed : ∃ key, accountPublicKey (d.addressString owner) = some key ∧
    d.ed25519Verify (publicKey key) (permitDigestInternal d s.getName owner spender value
      (s.getPermitNonce owner) deadline) (signatureOf signature) = true

def State.permitted (s : State) (owner spender : Address) (value : ℤ) : State :=
  ((s.putAllowance (owner, spender) ⟨value, maxU32⟩).setPermitNonce owner
    (s.getPermitNonce owner + 1)).publish (.approve owner spender value maxU32)

lemma permit_ok {value : ℤ} (h : permit d env owner spender value deadline signature s = .ok (u, t)) :
    PermitShown d env s owner spender value deadline signature ∧
      t = s.permitted owner spender value := by
  rw [permit, Tx.read_bind, Tx.reject_bind_ok, Tx.reject_bind_ok, Tx.reject_bind_ok,
    Tx.reject_bind_ok, assertMovable_bind_ok, Tx.read_bind, Tx.reject_bind_ok, Tx.read_bind,
    Tx.reject_bind_ok, Tx.reject_bind_ok, Tx.unwrap_bind_ok] at h
  obtain ⟨hinit, hvalue, htimely, -, hmovable, -, -, -, key, hkey, h⟩ := h
  simp only [Tx.read_bind, Tx.demand_bind_ok, writeAllowance, Tx.update_bind, publish_ok] at h
  obtain ⟨hverify, rfl⟩ := h
  exact ⟨⟨by simpa using hinit, not_lt.mp hvalue, not_lt.mp htimely, hmovable, key, hkey, hverify⟩,
    rfl⟩

section Batches

variable {items : List (Address × ℤ)} {total r : ℤ}

lemma checkMints_ok (h : Tx.fold (checkMint env) total items s = .ok (r, t)) :
    t = s ∧ r = total + (items.map Prod.snd).sum ∧
      ∀ p ∈ items, 0 ≤ p.2 ∧ s.Movable env p.1 := by
  induction items generalizing total with
  | nil =>
    obtain ⟨rfl, rfl⟩ := Tx.fold_nil.mp h
    simp
  | cons p items ih =>
    obtain ⟨next, v, hp, hrest⟩ := Tx.fold_cons.mp h
    simp only [checkMint, Tx.reject_bind_ok, not_le, assertMovable_bind_ok, Tx.pure_ok] at hp
    obtain ⟨hpos, hmovable, -, rfl, rfl⟩ := hp
    obtain ⟨rfl, rfl, hall⟩ := ih hrest
    refine ⟨rfl, by simp [add_assoc], fun q hq => ?_⟩
    rcases List.mem_cons.mp hq with rfl | hq
    · exact ⟨hpos.le, hmovable⟩
    · exact hall q hq

lemma creditMints_ok (h : Tx.forEach creditMint items s = .ok (u, t)) :
    t.readBalance = post s.readBalance items ∧
      t = { s with balance := t.balance, history := t.history } := by
  induction items generalizing s with
  | nil =>
    obtain rfl := Tx.forEach_nil.mp h
    exact ⟨rfl, rfl⟩
  | cons p items ih =>
    obtain ⟨v, hp, hrest⟩ := Tx.forEach_cons.mp h
    simp only [creditMint, credit_bind_ok, publish_ok] at hp
    obtain ⟨-, rfl⟩ := hp
    obtain ⟨hbalance, hsame⟩ := ih hrest
    refine ⟨?_, ?_⟩
    · rw [hbalance, post_cons, State.readBalance_publish, State.credited,
        State.readBalance_setBalance]
    · rw [hsame]
      rfl

lemma batchMint_ok {recipients : List Address} {amounts : List ℤ}
    (h : batchMint env recipients amounts s = .ok (u, t)) :
    ∃ admin, s.admin = some admin ∧
      s.getTotalSupply + ((recipients.zip amounts).map Prod.snd).sum ≤ s.getMaxSupply ∧
      (∀ p ∈ recipients.zip amounts, 0 ≤ p.2 ∧ s.Movable env p.1) ∧
      t.readBalance = post s.readBalance (recipients.zip amounts) ∧
      t = { s with
        balance := t.balance
        totalSupply := some (s.getTotalSupply + ((recipients.zip amounts).map Prod.snd).sum)
        history := t.history } := by
  simp only [batchMint, requireAdminAuth_bind_ok, Tx.reject_bind_ok] at h
  obtain ⟨admin, hadmin, -, -, -, -, h⟩ := h
  obtain ⟨total, v, hchecks, h⟩ := Tx.bind_ok.mp h
  obtain ⟨rfl, rfl, hitems⟩ := checkMints_ok hchecks
  rw [grownSupply_bind_ok, zero_add] at h
  obtain ⟨⟨-, hcap⟩, h⟩ := h
  obtain ⟨_, w, hcredits, h⟩ := Tx.bind_ok.mp h
  obtain ⟨hbalance, hsame⟩ := creditMints_ok hcredits
  simp only [Tx.update_bind, publish_ok] at h
  subst h
  refine ⟨admin, hadmin, hcap, hitems, hbalance, ?_⟩
  rw [hsame]
  rfl

end Batches

end Outcomes

end StellarTags.Token
