import StellarTags.Token.Allowances
import StellarTags.Token.Supply

/-! What a freeze and a pause hold still, and how long they last. -/

namespace StellarTags.Token

open Library.Transactions Library.Integers Library.Runs Library.Holdings Soroban

/-- The token is paused, or the account frozen at the time of the call. -/
def State.Held (s : State) (env : Env) (a : Address) : Prop :=
  s.isPaused = true ∨ s.isFrozen env a = true

/-- The balance and the allowances granted are as they were, but for those whose ledger passed
and which a call then removed. -/
structure Untouched (envs : List Env) (s t : State) (a : Address) : Prop where
  balance : t.readBalance a = s.readBalance a
  allowance : ∀ spender, t.allowance (a, spender) = s.allowance (a, spender) ∨
    t.allowance (a, spender) = none ∧ ∃ env ∈ envs, (s.storedAllowance (a, spender)).Lapsed env

/-- The calls that end a permanent freeze of the account, or a timed one, or the pause. -/
def Op.Lifts (a : Address) : Op → Prop
  | .setFrozen account frozen => account = a ∧ frozen = false
  | .unfreeze account | .cancelFreeze account => account = a
  | _ => False

def Op.LiftsUntil (a : Address) : Op → Prop
  | .setFrozen account frozen => account = a ∧ frozen = false
  | .unfreeze account | .cancelFreeze account | .cancelFreezeUntil account => account = a
  | .freezeAccountUntil account _ => account = a
  | _ => False

def Op.Unpauses : Op → Prop
  | .setPaused paused => paused = false
  | .unpause => True
  | _ => False

variable {d : Deployment} {env : Env} {s t v : State} {a : Address}

lemma State.Held.not_movable (h : s.Held env a) : ¬ s.Movable env a := by
  rintro ⟨hp, hf⟩
  rcases h with h | h
  · simp [hp] at h
  · simp [hf] at h

namespace Untouched

lemma refl (envs : List Env) (s : State) (a : Address) : Untouched envs s s a :=
  ⟨rfl, fun _ => Or.inl rfl⟩

lemma trans {envs later : List Env} (h : Untouched envs s t a) (k : Untouched later t v a) :
    Untouched (envs ++ later) s v a := by
  refine ⟨k.balance.trans h.balance, fun spender => ?_⟩
  rcases k.allowance spender with hk | ⟨hk, env, hmem, hlapsed⟩
  · rcases h.allowance spender with hh | ⟨hh, env, hmem, hlapsed⟩
    · exact Or.inl (hk.trans hh)
    · exact Or.inr ⟨hk.trans hh, env, List.mem_append_left _ hmem, hlapsed⟩
  · rcases h.allowance spender with hh | ⟨hh, -⟩
    · have hstored : t.storedAllowance (a, spender) = s.storedAllowance (a, spender) := by
        rw [State.storedAllowance, State.storedAllowance, hh]
      exact Or.inr ⟨hk, env, List.mem_append_right _ hmem, hstored ▸ hlapsed⟩
    · have hpos := hlapsed.1
      simp [State.storedAllowance, hh] at hpos

end Untouched

/-- What is held may be read, and what has lapsed removed; nothing else is written. -/
lemma Op.invoke_held {op : Op} (hheld : s.Held env a) (h : op.invoke d env s = .ok ((), t)) :
    Untouched [env] s t a := by
  have hmovable := hheld.not_movable
  constructor
  · by_cases hop : ∀ admin name symbol decimals, op ≠ .initialise admin name symbol decimals
    · obtain ⟨postings, hp⟩ := op.invoke_posted hop h
      exact hp.frozen hmovable
    · push Not at hop
      obtain ⟨admin, name, symbol, decimals, rfl⟩ := hop
      obtain ⟨-, rfl⟩ := initializeToken_ok h
      rfl
  · intro spender
    cases Op.invoke_allowance h with
    | unchanged none same => exact Or.inl (by rw [same])
    | pruned key none write =>
      rw [write]
      by_cases hk : (a, spender) = key
      · subst hk
        rw [allowance_pruned]
        split_ifs with hlapsed
        · exact Or.inr ⟨rfl, env, by simp, hlapsed⟩
        · exact Or.inl rfl
      · exact Or.inl (allowance_pruned_ne hk)
    | approved key value entry movable nonneg fits write =>
      have hk : (a, spender) ≠ key := by
        rintro rfl
        exact hmovable movable
      rw [write]
      exact Or.inl (allowance_putAllowance_ne value hk)
    | spent key n entry movable nonneg le write =>
      have hk : (a, spender) ≠ key := by
        rintro rfl
        exact hmovable movable
      rw [write]
      exact Or.inl (allowance_charged_ne hk)

lemma step_held (call : Call) (hheld : s.Held call.env a) :
    Untouched [call.env] s (step d call s) a := by
  rcases step_cases d call s with he | h
  · rw [he]
    exact .refl _ s a
  · exact call.op.invoke_held hheld h

lemma run_held (calls : List Call)
    (hheld : Along (step d) (fun s call => s.Held call.env a) s calls) :
    Untouched (calls.map Call.env) s (run (step d) s calls) a := by
  induction calls generalizing s with
  | nil => exact .refl [] s a
  | cons call calls ih =>
    obtain ⟨hcall, hcalls⟩ := hheld
    exact (step_held call hcall).trans (ih hcalls)

/-- A paused token has been set up, so it keeps its supply. -/
lemma step_paused (call : Call) (hs : s.Supplied) (hpaused : s.isPaused = true) :
    (step d call s).getTotalSupply = s.getTotalSupply := by
  rcases step_cases d call s with he | h
  · rw [he]
  · generalize step d call s = t at h
    obtain ⟨env, op⟩ := call
    by_cases hop : ∀ admin name symbol decimals, op ≠ .initialise admin name symbol decimals
    · obtain ⟨postings, hp⟩ := op.invoke_posted hop h
      have hnone : postings = [] := by
        refine List.eq_nil_iff_forall_not_mem.mpr fun p hmem => ?_
        exact State.Held.not_movable (Or.inl hpaused) (hp.movable p hmem)
      simpa [hnone] using hp.supply
    · push Not at hop
      obtain ⟨admin, name, symbol, decimals, rfl⟩ := hop
      obtain ⟨hinit, -⟩ := initializeToken_ok h
      have hunpaused := (hs.unborn hinit).2.1
      simp [hpaused] at hunpaused

section Persistence

/-- The pause and the freezes are as they were. -/
structure SameHolds (s t : State) : Prop where
  paused : t.paused = s.paused
  frozen : t.frozen = s.frozen
  frozenUntil : t.frozenUntil = s.frozenUntil

lemma SameSupply.holds (h : SameSupply s t) : SameHolds s t := ⟨h.paused, h.frozen, h.frozenUntil⟩

namespace SameHolds

lemma transfer (h : SameHolds s v) (b c : Address) (n : ℤ) (event : Event) :
    SameHolds s (((v.debited b n).credited c n).publish event) :=
  ⟨h.paused, h.frozen, h.frozenUntil⟩

lemma burn (h : SameHolds s v) (b : Address) (n supply : ℤ) (event : Event) :
    SameHolds s (((v.debited b n).setTotalSupply supply).publish event) :=
  ⟨h.paused, h.frozen, h.frozenUntil⟩

end SameHolds

lemma Op.invoke_holds {op : Op} (hadmin : ¬ op.IsAdministration)
    (hop : ∀ admin name symbol decimals, op ≠ .initialise admin name symbol decimals)
    (h : op.invoke d env s = .ok ((), t)) : SameHolds s t := by
  cases op with
  | initialise admin name symbol decimals => exact absurd rfl (hop admin name symbol decimals)
  | transferChecked source target amount =>
    obtain ⟨-, -, -, -, -, -, rfl⟩ := transferChecked_ok.mp h
    exact (SameSupply.refl s).holds.transfer _ _ _ _
  | transfer source target amount =>
    obtain ⟨-, -, -, -, -, -, rfl⟩ := transferChecked_ok.mp h
    exact (SameSupply.refl s).holds.transfer _ _ _ _
  | transferFromChecked spender source target amount =>
    obtain ⟨-, -, -, -, -, -, -, -, -, rfl⟩ := transferFromChecked_ok.mp h
    exact (SameSupply.charged s env (source, spender) amount).holds.transfer _ _ _ _
  | transferFrom spender source target amount =>
    obtain ⟨-, -, -, -, -, -, -, -, -, rfl⟩ := transferFromChecked_ok.mp h
    exact (SameSupply.charged s env (source, spender) amount).holds.transfer _ _ _ _
  | approve owner spender amount expirationLedger =>
    obtain ⟨-, -, -, -, -, rfl⟩ := approve_ok.mp h
    exact ((SameSupply.putAllowance s _ _).publish _).holds
  | allowance owner spender =>
    obtain ⟨_, h⟩ := Tx.void_ok.mp h
    obtain ⟨-, rfl⟩ := allowance_ok.mp h
    exact (SameSupply.pruned s env (owner, spender)).holds
  | permit owner spender value deadline signature =>
    obtain ⟨-, rfl⟩ := permit_ok h
    exact (((SameSupply.putAllowance s _ _).setPermitNonce owner _).publish _).holds
  | mint target amount =>
    obtain ⟨admin, -, -, -, -, -, -, rfl⟩ := mint_ok.mp h
    exact ⟨rfl, rfl, rfl⟩
  | batchMint recipients amounts =>
    obtain ⟨admin, -, -, -, -, ht⟩ := batchMint_ok h
    exact ⟨by rw [ht], by rw [ht], by rw [ht]⟩
  | burn owner amount =>
    obtain ⟨-, -, -, -, -, -, rfl⟩ := burn_ok.mp h
    exact (SameSupply.refl s).holds.burn _ _ _ _
  | burnFrom spender owner amount =>
    obtain ⟨-, -, -, -, -, -, -, -, -, -, rfl⟩ := burnFrom_ok.mp h
    exact (SameSupply.charged s env (owner, spender) amount).holds.burn _ _ _ _
  | _ => exact absurd trivial hadmin

/-- Freezes and the pause stay until a call that lifts them. -/
structure Lasting (call : Call) (s t : State) (a : Address) : Prop where
  frozen : s.frozen a = some true → ¬ call.op.Lifts a → t.frozen a = some true
  frozenUntil : ∀ untilTimestamp, s.frozenUntil a = some untilTimestamp →
    ¬ call.op.LiftsUntil a → t.frozenUntil a = some untilTimestamp
  paused : s.initialized = true → s.paused = some true → ¬ call.op.Unpauses → t.paused = some true

lemma SameHolds.lasting {call : Call} (h : SameHolds s t) : Lasting call s t a :=
  ⟨fun hs _ => by rw [h.frozen, hs], fun _ hs _ => by rw [h.frozenUntil, hs],
    fun _ hs _ => by rw [h.paused, hs]⟩

lemma Lasting.of_freezes {call : Call} (hpaused : t.paused = s.paused)
    (hfrozen : s.frozen a = some true → ¬ call.op.Lifts a → t.frozen a = some true)
    (huntil : ¬ call.op.LiftsUntil a → t.frozenUntil a = s.frozenUntil a) :
    Lasting call s t a :=
  ⟨hfrozen, fun _ hs hl => by rw [huntil hl, hs], fun _ hs _ => by rw [hpaused, hs]⟩

lemma setFrozen_lasting {call : Call} {account : Address} {frozen : Bool}
    (h : setFrozen env account frozen s = .ok ((), t))
    (hlifts : account = a ∧ frozen = false → call.op.Lifts a ∧ call.op.LiftsUntil a) :
    Lasting call s t a := by
  obtain ⟨admin, event, -, rfl⟩ := setFrozen_ok h
  cases frozen with
  | true =>
    refine .of_freezes rfl (fun hs _ => ?_) fun _ => rfl
    by_cases ha : a = account
    · simp [State.publish, State.freeze, ha]
    · simpa [State.publish, State.freeze, ha] using hs
  | false =>
    refine .of_freezes rfl (fun hs hl => ?_) fun hl => ?_
    · have ha : a ≠ account := fun he => hl (hlifts ⟨he.symm, rfl⟩).1
      simpa [State.publish, State.lift, ha] using hs
    · have ha : a ≠ account := fun he => hl (hlifts ⟨he.symm, rfl⟩).2
      simp [State.publish, State.lift, ha]

lemma setPaused_lasting {call : Call} {paused : Bool} (h : setPaused env paused s = .ok ((), t))
    (hunpauses : paused = false → call.op.Unpauses) : Lasting call s t a := by
  obtain ⟨admin, event, -, rfl⟩ := setPaused_ok h
  refine ⟨fun hs _ => hs, fun _ hs _ => hs, fun _ _ hl => ?_⟩
  cases paused with
  | true => rfl
  | false => exact absurd (hunpauses rfl) hl

lemma Op.administer_lasting {op : Op} (hadmin : op.IsAdministration)
    (h : op.invoke d env s = .ok ((), t)) : Lasting ⟨env, op⟩ s t a := by
  cases op with
  | setAdmin newAdmin =>
    obtain ⟨admin, event, -, rfl⟩ := setAdmin_ok h
    exact SameHolds.lasting ⟨rfl, rfl, rfl⟩
  | setPaused paused => exact setPaused_lasting h id
  | pause => exact setPaused_lasting h fun he => by simp at he
  | unpause => exact setPaused_lasting h fun _ => trivial
  | setFrozen account frozen => exact setFrozen_lasting h fun hl => ⟨hl, hl⟩
  | freeze account => exact setFrozen_lasting h fun hl => by simp at hl
  | unfreeze account => exact setFrozen_lasting h fun hl => ⟨hl.1, hl.1⟩
  | freezeAccountUntil account untilTimestamp =>
    obtain ⟨admin, event, -, rfl⟩ := freezeAccountUntil_ok h
    split_ifs
    · refine .of_freezes rfl (fun hs _ => hs) fun hl => ?_
      have ha : a ≠ account := Ne.symm hl
      simp [State.publish, State.liftUntil, ha]
    · refine .of_freezes rfl (fun hs _ => hs) fun hl => ?_
      have ha : a ≠ account := Ne.symm hl
      simp [State.publish, State.freezeUntil, ha]
  | cancelFreeze account =>
    obtain ⟨admin, event, -, rfl⟩ := cancelFreeze_ok h
    refine .of_freezes rfl (fun hs hl => ?_) fun hl => ?_
    · have ha : a ≠ account := Ne.symm hl
      simpa [State.publish, State.lift, ha] using hs
    · have ha : a ≠ account := Ne.symm hl
      simp [State.publish, State.lift, ha]
  | cancelFreezeUntil account =>
    obtain ⟨admin, event, -, rfl⟩ := cancelFreezeUntil_ok h
    refine .of_freezes rfl (fun hs _ => hs) fun hl => ?_
    have ha : a ≠ account := Ne.symm hl
    simp [State.publish, State.liftUntil, ha]
  | setComplianceHook hook =>
    obtain ⟨admin, event, -, rfl⟩ := setComplianceHook_ok h
    exact SameHolds.lasting ⟨rfl, rfl, rfl⟩
  | registerComplianceHook hook =>
    obtain ⟨admin, event, -, rfl⟩ := setComplianceHook_ok h
    exact SameHolds.lasting ⟨rfl, rfl, rfl⟩
  | removeComplianceHook =>
    obtain ⟨admin, event, -, rfl⟩ := removeComplianceHook_ok h
    exact SameHolds.lasting ⟨rfl, rfl, rfl⟩
  | deregisterComplianceHook =>
    obtain ⟨admin, event, -, rfl⟩ := removeComplianceHook_ok h
    exact SameHolds.lasting ⟨rfl, rfl, rfl⟩
  | setMaxSupply newMaxSupply =>
    obtain ⟨admin, event, -, -, rfl⟩ := setMaxSupply_ok h
    exact SameHolds.lasting ⟨rfl, rfl, rfl⟩
  | _ => exact hadmin.elim

lemma step_lasting (call : Call) : Lasting call s (step d call s) a := by
  rcases step_cases d call s with he | h
  · rw [he]
    exact SameHolds.lasting ⟨rfl, rfl, rfl⟩
  · generalize step d call s = t at h
    obtain ⟨env, op⟩ := call
    by_cases hadmin : op.IsAdministration
    · exact op.administer_lasting hadmin h
    · by_cases hop : ∀ admin name symbol decimals, op ≠ .initialise admin name symbol decimals
      · exact (op.invoke_holds hadmin hop h).lasting
      · push Not at hop
        obtain ⟨admin, name, symbol, decimals, rfl⟩ := hop
        obtain ⟨hinit, rfl⟩ := initializeToken_ok h
        exact ⟨fun hs _ => hs, fun _ hs _ => hs, fun hs => by simp [hinit] at hs⟩

lemma run_frozen (calls : List Call) (hs : s.frozen a = some true)
    (hl : ∀ call ∈ calls, ¬ call.op.Lifts a) :
    Along (step d) (fun s call => s.Held call.env a) s calls := by
  refine along_invariant (I := fun s => s.frozen a = some true)
    (P := fun _ call => ¬ call.op.Lifts a) (fun s call hs hl => ?_) (fun s call hs _ => ?_) hs
    (along_of_mem (step d) hl s)
  · exact (step_lasting call).frozen hs hl
  · exact Or.inr (by simp [State.isFrozen, hs])

lemma run_frozenUntil (calls : List Call) {untilTimestamp : ℕ}
    (hs : s.frozenUntil a = some untilTimestamp)
    (hl : ∀ call ∈ calls, call.env.timestamp < untilTimestamp ∧ ¬ call.op.LiftsUntil a) :
    Along (step d) (fun s call => s.Held call.env a) s calls := by
  refine along_invariant (I := fun s => s.frozenUntil a = some untilTimestamp)
    (P := fun _ call => call.env.timestamp < untilTimestamp ∧ ¬ call.op.LiftsUntil a)
    (fun s call hs hl => ?_) (fun s call hs hl => ?_) hs (along_of_mem (step d) hl s)
  · exact (step_lasting call).frozenUntil untilTimestamp hs hl.2
  · exact Or.inr (by simp [State.isFrozen, hs, hl.1])

lemma run_paused (calls : List Call) (hs : s.Supplied) (hp : s.paused = some true)
    (hl : ∀ call ∈ calls, ¬ call.op.Unpauses) :
    Along (step d) (fun s _ => s.Supplied ∧ s.paused = some true) s calls ∧
      (run (step d) s calls).getTotalSupply = s.getTotalSupply := by
  induction calls generalizing s with
  | nil => exact ⟨trivial, rfl⟩
  | cons call calls ih =>
    have hpaused : s.isPaused = true := by simp [State.isPaused, hp]
    have hinit : s.initialized = true := by
      by_contra h
      have hunpaused := (hs.unborn (by simpa using h)).2.1
      simp [hpaused] at hunpaused
    have hnext := (step_lasting (d := d) (a := ⟨0⟩) call).paused hinit hp (hl call (by simp))
    obtain ⟨halong, hsupply⟩ := ih (step_supplied call hs) hnext fun c hc => hl c (by simp [hc])
    exact ⟨⟨⟨hs, hp⟩, halong⟩, hsupply.trans (step_paused call hs hpaused)⟩

end Persistence

/-- What holds of a state whatever is called next: nothing of a held account moves, in one call or
in any number of them, until the freeze or the pause is lifted or its time is over. -/
structure State.HoldsStill (d : Deployment) (s : State) : Prop where
  call : ∀ call a, s.Held call.env a → Untouched [call.env] s (step d call s) a
  supply : ∀ call, s.isPaused = true → (step d call s).getTotalSupply = s.getTotalSupply
  calls : ∀ calls a, Along (step d) (fun s call => s.Held call.env a) s calls →
    Untouched (calls.map Call.env) s (run (step d) s calls) a
  whileFrozen : ∀ calls a, s.frozen a = some true → (∀ call ∈ calls, ¬ call.op.Lifts a) →
    Untouched (calls.map Call.env) s (run (step d) s calls) a
  whileTimed : ∀ calls a untilTimestamp, s.frozenUntil a = some untilTimestamp →
    (∀ call ∈ calls, call.env.timestamp < untilTimestamp ∧ ¬ call.op.LiftsUntil a) →
      Untouched (calls.map Call.env) s (run (step d) s calls) a
  whilePaused : ∀ calls, s.paused = some true → (∀ call ∈ calls, ¬ call.op.Unpauses) →
    (run (step d) s calls).getTotalSupply = s.getTotalSupply ∧
      ∀ a, Untouched (calls.map Call.env) s (run (step d) s calls) a

/-- In every reachable state, the tokens and allowances of frozen accounts, and all those of a
paused token, stay as they are. -/
theorem frozen_accounts_untouched (d : Deployment) (calls : List Call) :
    (after d calls).HoldsStill d where
  call call _ hheld := step_held call hheld
  supply call hpaused := step_paused call (after_supplied d calls) hpaused
  calls later _ hheld := run_held later hheld
  whileFrozen later _ hs hl := run_held later (run_frozen later hs hl)
  whileTimed later _ _ hs hl := run_held later (run_frozenUntil later hs hl)
  whilePaused later hp hl := by
    obtain ⟨halong, hsupply⟩ := run_paused (d := d) later (after_supplied d calls) hp hl
    refine ⟨hsupply, fun a => run_held later (along_mono (fun s call h => ?_) halong)⟩
    exact Or.inl (by simp [State.isPaused, h.2])

end StellarTags.Token
