import StellarTags.Library.Approvals
import StellarTags.Token.Calls

/-! What spenders take under an allowance, against what the owner approved. -/

namespace StellarTags.Token

open Library.Transactions Library.Integers Library.Runs Library.Approvals Soroban

/-- What an entry point enters into the account of the allowance it is about. -/
def Op.entry (sequence : ℕ) : Op → Option ((Address × Address) × Entry)
  | .approve owner spender amount expirationLedger =>
    some ((owner, spender), .approved ⟨amount, expirationLedger⟩)
  | .permit owner spender value _ _ => some ((owner, spender), .approved ⟨value, maxU32⟩)
  | .transferFromChecked spender source _ amount | .transferFrom spender source _ amount =>
    some ((source, spender), .spent sequence amount)
  | .burnFrom spender owner amount => some ((owner, spender), .spent sequence amount)
  | _ => none

def Call.entries (d : Deployment) (key : Address × Address) (s : State) (call : Call) :
    List Entry :=
  match call.op.entry call.env.sequence with
  | some (k, entry) =>
    if k = key ∧ Tx.succeeds (call.op.invoke d call.env) s = true then [entry] else []
  | none => []

def ledgerOf (d : Deployment) (key : Address × Address) (calls : List Call) : List Entry :=
  trace (step d) (Call.entries d key) {} calls

variable {d : Deployment} {env : Env} {s t : State} {key other : Address × Address} {n : ℤ}

/-- What a call that succeeds writes to allowances. -/
inductive AllowanceWrite (env : Env) (s t : State) (op : Op) : Prop
  | unchanged (none : op.entry env.sequence = none) (same : t.allowance = s.allowance)
  | pruned (key : Address × Address) (none : op.entry env.sequence = none)
      (write : t.allowance = (s.pruned env key).allowance)
  | approved (key : Address × Address) (value : Allowance)
      (entry : op.entry env.sequence = some (key, .approved ⟨value.amount, value.expirationLedger⟩))
      (movable : s.Movable env key.1) (nonneg : 0 ≤ value.amount) (fits : value.Fits)
      (write : t.allowance = (s.putAllowance key value).allowance)
  | spent (key : Address × Address) (n : ℤ)
      (entry : op.entry env.sequence = some (key, .spent env.sequence n))
      (movable : s.Movable env key.1) (nonneg : 0 ≤ n)
      (le : n ≤ (s.currentAllowance env key).amount)
      (write : t.allowance = (s.charged env key n).allowance)

lemma allowance_moved (s : State) (source target : Address) (n : ℤ) (event : Event) :
    (((s.debited source n).credited target n).publish event).allowance = s.allowance := rfl

lemma allowance_burnt (s : State) (owner : Address) (n supply : ℤ) (event : Event) :
    (((s.debited owner n).setTotalSupply supply).publish event).allowance = s.allowance := rfl

lemma Op.invoke_allowance {op : Op} (h : op.invoke d env s = .ok ((), t)) :
    AllowanceWrite env s t op := by
  by_cases hadmin : op.IsAdministration
  · refine .unchanged ?_ (op.invoke_administered hadmin h).allowance
    cases op <;> first | rfl | exact hadmin.elim
  cases op with
  | initialise admin name symbol decimals =>
    obtain ⟨-, rfl⟩ := initializeToken_ok h
    exact .unchanged rfl rfl
  | transferChecked source target amount =>
    obtain ⟨-, -, -, -, -, -, rfl⟩ := transferChecked_ok.mp h
    exact .unchanged rfl (allowance_moved _ _ _ _ _)
  | transfer source target amount =>
    obtain ⟨-, -, -, -, -, -, rfl⟩ := transferChecked_ok.mp h
    exact .unchanged rfl (allowance_moved _ _ _ _ _)
  | transferFromChecked spender source target amount =>
    obtain ⟨hn, ⟨hs, -⟩, -, -, hle, -, -, -, -, rfl⟩ := transferFromChecked_ok.mp h
    exact .spent (source, spender) amount rfl hs hn hle (allowance_moved _ _ _ _ _)
  | transferFrom spender source target amount =>
    obtain ⟨hn, ⟨hs, -⟩, -, -, hle, -, -, -, -, rfl⟩ := transferFromChecked_ok.mp h
    exact .spent (source, spender) amount rfl hs hn hle (allowance_moved _ _ _ _ _)
  | approve owner spender amount expirationLedger =>
    obtain ⟨hn, -, hmovable, -, -, rfl⟩ := approve_ok.mp h
    exact .approved (owner, spender) ⟨amount, expirationLedger⟩ rfl hmovable hn
      ⟨amount.2, expirationLedger.2⟩ rfl
  | allowance owner spender =>
    obtain ⟨_, h⟩ := Tx.void_ok.mp h
    obtain ⟨-, rfl⟩ := allowance_ok.mp h
    exact .pruned (owner, spender) rfl rfl
  | permit owner spender value deadline signature =>
    obtain ⟨hshown, rfl⟩ := permit_ok h
    exact .approved (owner, spender) ⟨value, maxU32⟩ rfl hshown.movable hshown.nonneg
      ⟨value.2, le_rfl⟩ rfl
  | mint target amount =>
    obtain ⟨admin, -, -, -, -, -, -, rfl⟩ := mint_ok.mp h
    exact .unchanged rfl rfl
  | batchMint recipients amounts =>
    obtain ⟨admin, -, -, -, -, ht⟩ := batchMint_ok h
    exact .unchanged rfl (by rw [ht])
  | burn owner amount =>
    obtain ⟨-, -, -, -, -, -, rfl⟩ := burn_ok.mp h
    exact .unchanged rfl (allowance_burnt _ _ _ _ _)
  | burnFrom spender owner amount =>
    obtain ⟨hn, hmovable, -, -, -, -, hle, -, -, -, rfl⟩ := burnFrom_ok.mp h
    exact .spent (owner, spender) amount rfl hmovable hn hle (allowance_burnt _ _ _ _ _)
  | _ => exact absurd trivial hadmin

section Entries

lemma allowance_putAllowance (value : Allowance) : (s.putAllowance key value).allowance key =
    if value.amount = 0 then none else some (packAllowance value.amount value.expirationLedger) := by
  rw [State.putAllowance]
  split_ifs <;> simp [State.setAllowance]

lemma allowance_putAllowance_ne (value : Allowance) (h : other ≠ key) :
    (s.putAllowance key value).allowance other = s.allowance other := by
  rw [State.putAllowance]
  split_ifs <;> simp [State.setAllowance, h]

lemma allowance_pruned : (s.pruned env key).allowance key =
    if (s.storedAllowance key).Lapsed env then none else s.allowance key := by
  rw [State.pruned]
  split_ifs <;> simp [State.setAllowance]

lemma allowance_pruned_ne (h : other ≠ key) :
    (s.pruned env key).allowance other = s.allowance other := by
  rw [State.pruned]
  split_ifs
  · simp [State.setAllowance, h]
  · rfl

lemma allowance_charged_ne (h : other ≠ key) :
    (s.charged env key n).allowance other = s.allowance other := by
  rw [State.charged, allowance_putAllowance_ne _ h, allowance_pruned_ne h]

end Entries

/-- What is stored for an allowance goes with its account: what remains, packed, or nothing once
its time is over. -/
structure Kept (now : ℕ) (log : List Entry) (entry : Option Bytes) : Prop where
  lawful : Lawful log
  fits : Allowance.Fits ⟨(account log).approval.amount, (account log).approval.expiry⟩
  stored : (entry = if (account log).remaining = 0 then none else
      some (packAllowance (account log).remaining (account log).approval.expiry)) ∨
    entry = none ∧ (account log).approval.expiry < now

namespace Kept

variable {now later : ℕ} {log : List Entry}

lemma fresh : Kept 0 [] none := ⟨.nil, ⟨by decide, by decide⟩, Or.inl rfl⟩

lemma wait (h : Kept now log (s.allowance key)) (hle : now ≤ later) :
    Kept later log (s.allowance key) := by
  refine ⟨h.lawful, h.fits, ?_⟩
  rcases h.stored with hs | ⟨hs, hlt⟩
  · exact Or.inl hs
  · exact Or.inr ⟨hs, by omega⟩

lemma remaining_nonneg (h : Kept now log (s.allowance key)) : 0 ≤ (account log).remaining := by
  have hle := h.lawful.spent_le.2
  simp only [Account.remaining]
  omega

lemma fits_remaining (h : Kept now log (s.allowance key)) :
    Allowance.Fits ⟨(account log).remaining, (account log).approval.expiry⟩ := by
  have hnonneg := h.remaining_nonneg
  have hspent := h.lawful.spent_le.1
  refine ⟨⟨?_, ?_⟩, h.fits.expirationLedger⟩
  · simp only [minI128]
    omega
  · have hmax := h.fits.amount.2
    simp only [Account.remaining] at hmax ⊢
    omega

lemma storedAllowance (h : Kept now log (s.allowance key)) (hs : s.allowance key ≠ none) :
    s.storedAllowance key = ⟨(account log).remaining, (account log).approval.expiry⟩ := by
  rcases h.stored with he | ⟨he, -⟩
  · split_ifs at he with hzero
    · exact absurd he hs
    · have hunpack := unpack_pack h.fits_remaining
      simpa only [State.storedAllowance, he] using hunpack
  · exact absurd he hs

lemma currentAllowance (h : Kept now log (s.allowance key)) (hnow : now ≤ env.sequence) :
    (s.currentAllowance env key).amount = (account log).available env.sequence := by
  rw [Account.available]
  cases hs : s.allowance key with
  | none =>
    have hstored : s.storedAllowance key = ⟨0, 0⟩ := by rw [State.storedAllowance, hs]
    have hcurrent : (s.currentAllowance env key).amount = 0 := by
      rw [State.currentAllowance, hstored]
      split_ifs <;> rfl
    rw [hcurrent]
    rcases h.stored with he | ⟨-, hlt⟩
    · rw [hs] at he
      split_ifs at he with hzero
      simp [hzero]
    · rw [if_pos (by omega)]
  | some packed =>
    have hne : s.allowance key ≠ none := by simp [hs]
    have hstored := h.storedAllowance hne
    have hnonneg := h.remaining_nonneg
    have hpos : 0 < (account log).remaining := by
      rcases h.stored with he | ⟨he, -⟩
      · split_ifs at he with hzero
        · exact absurd he hne
        · omega
      · exact absurd he hne
    rw [State.currentAllowance, hstored]
    by_cases hlapsed : (account log).approval.expiry < env.sequence
    · rw [if_pos hlapsed, if_pos ⟨hpos, hlapsed⟩]
    · rw [if_neg hlapsed, if_neg fun hl => hlapsed hl.2]

lemma pruned (h : Kept now log (s.allowance key)) (hnow : now ≤ env.sequence) :
    Kept env.sequence log ((s.pruned env key).allowance key) := by
  have hw := h.wait hnow
  rw [allowance_pruned]
  split_ifs with hlapsed
  · refine ⟨h.lawful, h.fits, Or.inr ⟨rfl, ?_⟩⟩
    have hne : s.allowance key ≠ none := by
      intro hnone
      have hpos := hlapsed.1
      simp [State.storedAllowance, hnone] at hpos
    rw [h.storedAllowance hne] at hlapsed
    exact hlapsed.2
  · exact hw

lemma approve (h : Kept now log (s.allowance key)) {value : Allowance} (hfits : value.Fits)
    (hnonneg : 0 ≤ value.amount) : Kept later
      (log ++ [.approved ⟨value.amount, value.expirationLedger⟩])
      ((s.putAllowance key value).allowance key) := by
  refine ⟨h.lawful.append hnonneg, ?_, Or.inl ?_⟩
  · rw [account_append]
    exact hfits
  · rw [allowance_putAllowance, account_append]
    simp [Account.enter, Account.remaining]

lemma spend (h : Kept now log (s.allowance key)) (hnow : now ≤ env.sequence) (hn : 0 ≤ n)
    (hle : n ≤ (s.currentAllowance env key).amount) :
    Kept env.sequence (log ++ [.spent env.sequence n]) ((s.charged env key n).allowance key) := by
  have havailable := h.currentAllowance hnow
  rw [havailable, Account.available] at hle
  have hadmits : (account log).Admits (.spent env.sequence n) := by
    refine ⟨hn, ?_, ?_⟩
    · have hremaining := h.remaining_nonneg
      have hmost : n ≤ (account log).remaining := by split_ifs at hle <;> omega
      simp only [Account.remaining] at hmost
      omega
    · intro hpos
      by_contra hlate
      rw [if_pos (by omega)] at hle
      omega
  refine ⟨h.lawful.append hadmits, ?_, ?_⟩
  · rw [account_append]
    exact h.fits
  · have hentered : ((account log).enter (.spent env.sequence n)).remaining =
        (account log).remaining - n := by
      simp only [Account.enter, Account.remaining]
      ring
    have hexpiry : ((account log).enter (.spent env.sequence n)).approval =
        (account log).approval := rfl
    rw [account_append, hentered, hexpiry, State.charged, allowance_putAllowance]
    dsimp only
    rw [havailable, Account.available]
    by_cases hlapsed : (account log).approval.expiry < env.sequence
    · -- Nothing is left to spend, and what the entry kept is gone.
      rw [if_pos hlapsed] at hle ⊢
      obtain rfl : n = 0 := by omega
      exact Or.inr ⟨if_pos rfl, hlapsed⟩
    · rw [if_neg hlapsed] at hle ⊢
      refine Or.inl ?_
      by_cases hzero : (account log).remaining - n = 0
      · rw [if_pos hzero, if_pos hzero]
      · have hpos : (account log).remaining ≠ 0 := by omega
        have hne : s.allowance key ≠ none := by
          rcases h.stored with he | ⟨-, hlt⟩
          · rw [he, if_neg hpos]
            simp
          · exact absurd (by omega) hlapsed
        have hledger : (s.currentAllowance env key).expirationLedger =
            (account log).approval.expiry := by
          rw [State.currentAllowance, h.storedAllowance hne]
          split_ifs <;> rfl
        rw [if_neg hzero, if_neg hzero, hledger]

end Kept

lemma step_kept {now : ℕ} {log : List Entry} (call : Call) (h : Kept now log (s.allowance key))
    (hnow : now ≤ call.env.sequence) : Kept call.env.sequence (log ++ call.entries d key s)
      ((step d call s).allowance key) := by
  have hw := h.wait hnow
  cases hs : Tx.succeeds (call.op.invoke d call.env) s with
  | false =>
    have hentries : call.entries d key s = [] := by
      rw [Call.entries]
      cases call.op.entry call.env.sequence <;> simp [hs]
    rw [hentries, List.append_nil, step, Tx.commit_of_fails hs]
    exact hw
  | true =>
    obtain ⟨_, hok⟩ := Tx.succeeds_iff.mp hs
    change Kept _ _ ((Tx.commit (call.op.invoke d call.env) s).allowance key)
    generalize Tx.commit (call.op.invoke d call.env) s = t at hok
    cases Op.invoke_allowance hok with
    | unchanged none same =>
      rw [Call.entries, none, same]
      simpa using hw
    | pruned k none write =>
      rw [Call.entries, none, write]
      by_cases hk : key = k
      · subst hk
        simpa using h.pruned hnow
      · rw [allowance_pruned_ne hk]
        simpa using hw
    | approved k value entry movable nonneg fits write =>
      simp only [Call.entries, entry, write, hs, and_true]
      by_cases hk : key = k
      · subst hk
        rw [if_pos rfl]
        exact h.approve fits nonneg
      · rw [allowance_putAllowance_ne _ hk, if_neg (Ne.symm hk), List.append_nil]
        exact hw
    | spent k n entry movable nonneg le write =>
      simp only [Call.entries, entry, write, hs, and_true]
      by_cases hk : key = k
      · subst hk
        rw [if_pos rfl]
        exact h.spend hnow nonneg le
      · rw [allowance_charged_ne hk, if_neg (Ne.symm hk), List.append_nil]
        exact hw

/-- Where a run's ledgers come in order, an allowance and its account go together afterwards. -/
lemma run_kept (d : Deployment) (key : Address × Address) {calls : List Call}
    (ht : (calls.map (·.env.sequence)).Pairwise (· ≤ ·)) {last : ℕ}
    (hlast : ∀ call ∈ calls, call.env.sequence ≤ last) :
    Kept last (ledgerOf d key calls) ((after d calls).allowance key) := by
  have hstep : ∀ now log (s : State) (call : Call), now ≤ last ∧ Kept now log (s.allowance key) →
      now ≤ call.env.sequence → call.env.sequence ≤ last → call.env.sequence ≤ last ∧
        Kept call.env.sequence (log ++ call.entries d key s) ((step d call s).allowance key) :=
    fun now log s call h hnow hle => ⟨hle, step_kept call h.2 hnow⟩
  have hstart : 0 ≤ last ∧ Kept 0 [] (({} : State).allowance key) := ⟨Nat.zero_le _, .fresh⟩
  have hrun := trace_invariant_timed hstep hstart
    (List.pairwise_cons.mpr ⟨fun _ _ => Nat.zero_le _, ht⟩) (along_of_mem (step d) hlast {})
  obtain ⟨now, hnow, hkept⟩ := hrun
  exact hkept.wait hnow

lemma storedAllowance_putAllowance {value : Allowance} (h : value.Fits) (hne : value.amount ≠ 0) :
    (s.putAllowance key value).storedAllowance key = value := by
  have hentry : (s.putAllowance key value).allowance key = _ := allowance_putAllowance value
  rw [if_neg hne] at hentry
  simpa only [State.storedAllowance, hentry] using unpack_pack h

/-- Over every run and for every pair: what the spender takes was approved and not yet spent, and
in time; the allowance reported is what is left; and what is written reads back. -/
theorem allowances_accounted (d : Deployment) (owner spender : Address) (calls : List Call)
    (ht : (calls.map (·.env.sequence)).Pairwise (· ≤ ·)) :
    Lawful (ledgerOf d (owner, spender) calls) ∧
      (account (ledgerOf d (owner, spender) calls)).spent ≤
        (account (ledgerOf d (owner, spender) calls)).approval.amount ∧
      (∀ env : Env, (∀ call ∈ calls, call.env.sequence ≤ env.sequence) →
        ∃ t, allowance env owner spender (after d calls) =
          .ok ((account (ledgerOf d (owner, spender) calls)).available env.sequence, t)) ∧
      ∀ (amount : I128) (expirationLedger : U32), amount.val ≠ 0 →
        ((after d calls).putAllowance (owner, spender) ⟨amount, expirationLedger⟩).storedAllowance
          (owner, spender) = ⟨amount, expirationLedger⟩ := by
  have hbound : ∀ call ∈ calls, call.env.sequence ≤ (calls.map (·.env.sequence)).sum :=
    fun call hc => List.le_sum_of_mem (List.mem_map_of_mem hc)
  have hlawful := (run_kept d (owner, spender) ht hbound).lawful
  refine ⟨hlawful, hlawful.spent_le.2, fun env hlast => ?_, fun amount expirationLedger hne => ?_⟩
  · have hkept := run_kept d (owner, spender) ht hlast
    exact ⟨_, allowance_ok.mpr ⟨(hkept.currentAllowance le_rfl).symm, rfl⟩⟩
  · exact storedAllowance_putAllowance ⟨amount.2, expirationLedger.2⟩ hne

section Examples

def sampleDeployment : Deployment := { Host.sample with addressString := fun _ => [] }

def everyone (timestamp sequence : ℕ) : Env := { timestamp, sequence, auth := fun _ => true }

/-- `⟨1⟩` mints a hundred to `⟨2⟩`, who lets `⟨3⟩` spend forty until ledger 20: it moves fifteen
and burns ten at the last ledger, and is refused one more at the next. -/
def lending : List Call :=
  [⟨everyone 0 0, .initialise ⟨1⟩ "Tag" "TAG" 7⟩,
    ⟨everyone 0 1, .mint ⟨2⟩ ⟨100, by decide⟩⟩,
    ⟨everyone 0 2, .approve ⟨2⟩ ⟨3⟩ ⟨40, fitsI128_forty⟩ ⟨20, by decide⟩⟩,
    ⟨everyone 0 3, .transferFrom ⟨3⟩ ⟨2⟩ ⟨4⟩ ⟨15, by decide⟩⟩,
    ⟨everyone 0 20, .burnFrom ⟨3⟩ ⟨2⟩ ⟨10, by decide⟩⟩,
    ⟨everyone 0 21, .transferFrom ⟨3⟩ ⟨2⟩ ⟨4⟩ ⟨1, fitsI128_one⟩⟩]

example : ledgerOf sampleDeployment (⟨2⟩, ⟨3⟩) lending =
    [.approved ⟨40, 20⟩, .spent 3 15, .spent 20 10] := by decide +kernel

theorem allowances_accounted_lending :
    Lawful (ledgerOf sampleDeployment (⟨2⟩, ⟨3⟩) lending) ∧
      (account (ledgerOf sampleDeployment (⟨2⟩, ⟨3⟩) lending)).spent ≤
        (account (ledgerOf sampleDeployment (⟨2⟩, ⟨3⟩) lending)).approval.amount ∧
      (∀ env : Env, (∀ call ∈ lending, call.env.sequence ≤ env.sequence) →
        ∃ t, allowance env ⟨2⟩ ⟨3⟩ (after sampleDeployment lending) =
          .ok ((account (ledgerOf sampleDeployment (⟨2⟩, ⟨3⟩) lending)).available env.sequence, t)) ∧
      ∀ (amount : I128) (expirationLedger : U32), amount.val ≠ 0 →
        ((after sampleDeployment lending).putAllowance (⟨2⟩, ⟨3⟩)
          ⟨amount, expirationLedger⟩).storedAllowance (⟨2⟩, ⟨3⟩) = ⟨amount, expirationLedger⟩ :=
  allowances_accounted sampleDeployment ⟨2⟩ ⟨3⟩ lending (by decide)

end Examples

end StellarTags.Token
