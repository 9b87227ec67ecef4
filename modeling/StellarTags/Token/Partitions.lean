import StellarTags.Token.Allowances

/-! The partition and the collateral of an account, which burns ask and transfers do not. -/

namespace StellarTags.Token

open Library.Transactions Library.Integers Soroban

def Op.outflow : Op → Option (Address × ℤ)
  | .transferChecked source _ amount | .transfer source _ amount
  | .transferFromChecked _ source _ amount | .transferFrom _ source _ amount =>
    some (source, amount)
  | .burn owner amount | .burnFrom _ owner amount => some (owner, amount)
  | _ => none

def Op.route : Op → Option (Address × Address)
  | .transferChecked source target _ | .transfer source target _
  | .transferFromChecked _ source target _ | .transferFrom _ source target _ =>
    some (source, target)
  | _ => none

namespace State

/-- The partition is frozen, or the amount is more than the collateral leaves. -/
def Withheld (s : State) (account : Address) (n : ℤ) : Prop :=
  (0 < n ∧ s.isPartitionFrozen account = true) ∨
    s.readBalance account - s.readCollateralLocked account < n

/-- What every transfer checks, whoever it is by. -/
structure Settles (s : State) (env : Env) (source target : Address) (n : ℤ) : Prop where
  nonneg : 0 ≤ n
  movable : s.Movable env source ∧ s.Movable env target
  compliant : s.Compliant env source target n
  covered : n ≤ s.readBalance source
  fits : FitsI128 (s.readBalance source - n)
  room : FitsI128 ((s.debited source n).readBalance target + n)

/-- What a spender's transfer checks besides. -/
structure Spends (s : State) (env : Env) (spender source : Address) (n : ℤ) : Prop where
  movable : s.Movable env spender
  auth : env.auth spender = true
  covered : n ≤ (s.currentAllowance env (source, spender)).amount
  fits : FitsI128 ((s.currentAllowance env (source, spender)).amount - n)

end State

/-- The call is a transfer that passes all its own checks. -/
def Op.Settles (env : Env) (s : State) : Op → Prop
  | .transferChecked source target amount | .transfer source target amount =>
    env.auth source = true ∧ s.Settles env source target amount
  | .transferFromChecked spender source target amount
  | .transferFrom spender source target amount =>
    s.Spends env spender source amount ∧ s.Settles env source target amount
  | _ => False

variable {d : Deployment} {env : Env} {s : State} {op : Op} {a b : Address} {n : ℤ}

lemma transferAllowed_movable (h : s.Movable env a ∧ s.Movable env b) :
    transferAllowed env a b s = .ok (!s.isPartitionFrozen a, s) := by
  have hsettled : assertSettled env a b s = .ok ((), s) := by
    rw [assertSettled, assertMovable_bind_ok, assertMovable_ok]
    exact ⟨h.1, h.2, rfl, rfl⟩
  rw [transferAllowed, Tx.bind_of_ok (Tx.attempt_ok.mpr (Or.inl ⟨(), rfl, hsettled⟩)), Tx.read_bind]
  rfl

lemma transferChecked_settles : Tx.succeeds (transferChecked env a b n) s = true ↔
    env.auth a = true ∧ s.Settles env a b n := by
  rw [Tx.succeeds_unit]
  simp only [transferChecked_ok]
  constructor
  · rintro ⟨_, hn, hm, hauth, hc, ⟨hcovered, hfits⟩, hroom, -⟩
    exact ⟨hauth, hn, hm, hc, hcovered, hfits, hroom⟩
  · rintro ⟨hauth, hn, hm, hc, hcovered, hfits, hroom⟩
    exact ⟨_, hn, hm, hauth, hc, ⟨hcovered, hfits⟩, hroom, rfl⟩

lemma compliant_pruned {key : Address × Address} :
    (s.pruned env key).Compliant env a b n ↔ s.Compliant env a b n := by
  rw [State.pruned]
  split_ifs <;> rfl

lemma readBalance_charged {key : Address × Address} :
    ((s.charged env key n).debited a n).readBalance = (s.debited a n).readBalance := by
  simp [State.charged, State.debited]

lemma transferFromChecked_settles {spender : Address} :
    Tx.succeeds (transferFromChecked env spender a b n) s = true ↔
      s.Spends env spender a n ∧ s.Settles env a b n := by
  rw [Tx.succeeds_unit]
  simp only [transferFromChecked_ok, compliant_pruned, readBalance_charged]
  constructor
  · rintro ⟨_, hn, hm, hspender, hauth, hallowed, hc, hleft, ⟨hcovered, hfits⟩, hroom, -⟩
    exact ⟨⟨hspender, hauth, hallowed, hleft⟩, hn, hm, hc, hcovered, hfits, hroom⟩
  · rintro ⟨⟨hspender, hauth, hallowed, hleft⟩, hn, hm, hc, hcovered, hfits, hroom⟩
    exact ⟨_, hn, hm, hspender, hauth, hallowed, hc, hleft, ⟨hcovered, hfits⟩, hroom, rfl⟩

/-- The rule in one state: what is withheld does not leave, and what leaves by a transfer was
reported as allowed. -/
structure Op.KeepsPartitions (d : Deployment) (env : Env) (s : State) (op : Op) : Prop where
  withheld : ∀ account n, op.outflow = some (account, n) → s.Withheld account n →
    Tx.succeeds (op.invoke d env) s = false ∧ step d ⟨env, op⟩ s = s
  reported : ∀ source target, op.route = some (source, target) →
    Tx.succeeds (op.invoke d env) s = true → transferAllowed env source target s = .ok (true, s)

lemma Op.keepsPartitions_of_fails (h : Tx.succeeds (op.invoke d env) s = false) :
    op.KeepsPartitions d env s where
  withheld _ _ _ _ := ⟨h, Tx.commit_of_fails h⟩
  reported _ _ _ hs := by simp [h] at hs

lemma not_transferable_of_withheld (h : s.Withheld a n) : ¬ s.Transferable a n := by
  rintro ⟨hunfrozen, -, henough⟩
  rcases h with ⟨-, hfrozen⟩ | hless
  · rw [hunfrozen] at hfrozen
    exact Bool.false_ne_true hfrozen
  · omega

lemma burn_withheld (h : s.Withheld a n) : Tx.succeeds (burn env a n) s = false := by
  rw [Bool.eq_false_iff]
  intro hs
  obtain ⟨t, hs⟩ := Tx.succeeds_unit.mp hs
  obtain ⟨-, -, htransferable, -⟩ := burn_ok.mp hs
  exact not_transferable_of_withheld h htransferable

lemma burnFrom_withheld {spender : Address} (h : s.Withheld a n) :
    Tx.succeeds (burnFrom env spender a n) s = false := by
  rw [Bool.eq_false_iff]
  intro hs
  obtain ⟨t, hs⟩ := Tx.succeeds_unit.mp hs
  obtain ⟨-, -, htransferable, -⟩ := burnFrom_ok.mp hs
  exact not_transferable_of_withheld h htransferable

/-- The account may part with the amount: its partition is free, and so is that much of it. -/
def State.Free (s : State) (account : Address) (n : ℤ) : Prop :=
  s.isPartitionFrozen account = false ∧
    n ≤ s.readBalance account - s.readCollateralLocked account

lemma State.Free.not_withheld (h : s.Free a n) : ¬ s.Withheld a n := by
  rintro (⟨-, hfrozen⟩ | hless)
  · rw [h.1] at hfrozen
    exact Bool.false_ne_true hfrozen
  · exact absurd h.2 (not_le.mpr hless)

lemma Op.keepsPartitions_transfer (hout : op.outflow = some (a, n))
    (hroute : op.route = some (a, b))
    (hsucceeds : Tx.succeeds (op.invoke d env) s = true ↔ op.Settles env s)
    (hsettles : op.Settles env s → s.Settles env a b n) :
    op.KeepsPartitions d env s ↔ (op.Settles env s → s.Free a n) := by
  constructor
  · intro h hop
    have hs := hsucceeds.mpr hop
    have hallowed := h.reported a b hroute hs
    rw [transferAllowed_movable (hsettles hop).movable] at hallowed
    refine ⟨by simpa using hallowed, ?_⟩
    by_contra hless
    have hfails := (h.withheld a n hout (Or.inr (not_le.mp hless))).1
    rw [hs] at hfails
    exact Bool.false_ne_true hfails.symm
  · intro h
    by_cases hop : op.Settles env s
    · constructor
      · rintro account k hk hwithheld
        obtain ⟨rfl, rfl⟩ : a = account ∧ n = k := by simpa [hout] using hk
        exact absurd hwithheld (h hop).not_withheld
      · intro source target hk _
        obtain ⟨rfl, rfl⟩ : a = source ∧ b = target := by simpa [hroute] using hk
        rw [transferAllowed_movable (hsettles hop).movable, (h hop).1]
        rfl
    · exact keepsPartitions_of_fails (Bool.eq_false_iff.mpr fun hs => hop (hsucceeds.mp hs))

lemma Op.keepsPartitions_burn (hout : op.outflow = some (a, n)) (hroute : op.route = none)
    (hfails : s.Withheld a n → Tx.succeeds (op.invoke d env) s = false) :
    op.KeepsPartitions d env s := by
  constructor
  · intro account k hk hwithheld
    obtain ⟨rfl, rfl⟩ : a = account ∧ n = k := by simpa [hout] using hk
    exact ⟨hfails hwithheld, Tx.commit_of_fails (hfails hwithheld)⟩
  · intro source target hk
    rw [hroute] at hk
    cases hk

/-- The rule holds of a call if and only if a transfer that settles takes only what is free. -/
theorem partition_rule_iff (d : Deployment) (env : Env) (s : State) (op : Op) :
    op.KeepsPartitions d env s ↔
      ∀ account n, op.outflow = some (account, n) → op.Settles env s → s.Free account n := by
  have hout {account : Address} {n : ℤ} (h : op.outflow = some (account, n)) :
      (∀ a k, op.outflow = some (a, k) → op.Settles env s → s.Free a k) ↔
        (op.Settles env s → s.Free account n) := by
    refine ⟨fun hall => hall account n h, fun hone a k hk => ?_⟩
    obtain ⟨rfl, rfl⟩ : account = a ∧ n = k := by simpa [h] using hk
    exact hone
  cases op with
  | transferChecked source target amount | transfer source target amount =>
    rw [hout rfl]
    exact Op.keepsPartitions_transfer rfl rfl transferChecked_settles And.right
  | transferFromChecked spender source target amount
  | transferFrom spender source target amount =>
    rw [hout rfl]
    exact Op.keepsPartitions_transfer rfl rfl transferFromChecked_settles And.right
  | burn owner amount =>
    rw [hout rfl]
    exact ⟨fun _ hop => hop.elim, fun _ => Op.keepsPartitions_burn rfl rfl burn_withheld⟩
  | burnFrom spender owner amount =>
    rw [hout rfl]
    exact ⟨fun _ hop => hop.elim, fun _ => Op.keepsPartitions_burn rfl rfl burnFrom_withheld⟩
  | _ =>
    constructor
    · intro _ _ _ h
      cases h
    · intro _
      constructor
      · intro _ _ h
        cases h
      · intro _ _ h
        cases h

section Examples

/-- Of the ten that `⟨1⟩` has, eight are locked; its partition is frozen besides. -/
def locked : State :=
  { balance := fun a => if a = ⟨1⟩ then some 10 else none
    collateralLocked := fun a => if a = ⟨1⟩ then some 8 else none
    partitionFrozen := fun a => if a = ⟨1⟩ then some true else none }

def shipped : Op := .transfer ⟨1⟩ ⟨2⟩ ⟨5, fitsI128_five⟩

/-- Five of them can be sent all the same, though nothing of it may be burnt and the transfer is
reported as not allowed. -/
theorem locked_collateral_sent :
    locked.Withheld ⟨1⟩ 5 ∧
    ¬ shipped.KeepsPartitions sampleDeployment { auth := fun _ => true } locked ∧
    (step sampleDeployment ⟨{ auth := fun _ => true }, shipped⟩ locked).readBalance ⟨2⟩ = 5 ∧
    transferAllowed {} ⟨1⟩ ⟨2⟩ locked = .ok (false, locked) ∧
    Tx.succeeds ((Op.burn ⟨1⟩ ⟨5, fitsI128_five⟩).invoke sampleDeployment { auth := fun _ => true })
      locked = false := by
  have hsent : Tx.succeeds (shipped.invoke sampleDeployment { auth := fun _ => true }) locked = true := by
    decide
  have hheld : locked.Withheld ⟨1⟩ 5 := Or.inl (by decide)
  refine ⟨hheld, fun h => ?_, by decide, rfl, by decide⟩
  have hfails := (h.withheld ⟨1⟩ 5 rfl hheld).1
  rw [hsent] at hfails
  exact Bool.false_ne_true hfails.symm

end Examples

end StellarTags.Token
