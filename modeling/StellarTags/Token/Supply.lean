import StellarTags.Token.Calls

/-! The total supply is the sum of the balances, and stays under its cap. -/

namespace StellarTags.Token

open Library.Transactions Library.Integers Library.Runs Library.Holdings Soroban

variable {d : Deployment} {env : Env} {s t v : State} {a b : Address} {n : ℤ}
  {key : Address × Address} {postings : List (Address × ℤ)}

/-- What the supply is about stays the same, and so do the pause and the freezes. -/
structure SameSupply (s t : State) : Prop where
  balance : t.readBalance = s.readBalance
  supply : t.getTotalSupply = s.getTotalSupply
  cap : t.getMaxSupply = s.getMaxSupply
  initialized : t.initialized = s.initialized
  admin : t.admin = s.admin
  paused : t.paused = s.paused
  frozen : t.frozen = s.frozen
  frozenUntil : t.frozenUntil = s.frozenUntil

namespace SameSupply

lemma refl (s : State) : SameSupply s s := ⟨rfl, rfl, rfl, rfl, rfl, rfl, rfl, rfl⟩

lemma trans (h : SameSupply s t) (k : SameSupply t v) : SameSupply s v :=
  ⟨k.balance.trans h.balance, k.supply.trans h.supply, k.cap.trans h.cap,
    k.initialized.trans h.initialized, k.admin.trans h.admin, k.paused.trans h.paused,
    k.frozen.trans h.frozen, k.frozenUntil.trans h.frozenUntil⟩

lemma putAllowance (s : State) (key : Address × Address) (value : Allowance) :
    SameSupply s (s.putAllowance key value) := by
  rw [State.putAllowance]
  split_ifs
  · exact ⟨rfl, rfl, rfl, rfl, rfl, rfl, rfl, rfl⟩
  · exact ⟨rfl, rfl, rfl, rfl, rfl, rfl, rfl, rfl⟩

lemma pruned (s : State) (env : Env) (key : Address × Address) :
    SameSupply s (s.pruned env key) := by
  rw [State.pruned]
  split_ifs
  · exact ⟨rfl, rfl, rfl, rfl, rfl, rfl, rfl, rfl⟩
  · exact refl s

lemma charged (s : State) (env : Env) (key : Address × Address) (n : ℤ) :
    SameSupply s (s.charged env key n) :=
  (pruned s env key).trans (putAllowance _ key _)

lemma publish (h : SameSupply s t) (event : Event) : SameSupply s (t.publish event) :=
  ⟨h.balance, h.supply, h.cap, h.initialized, h.admin, h.paused, h.frozen, h.frozenUntil⟩

lemma setPermitNonce (h : SameSupply s t) (owner : Address) (nonce : ℕ) :
    SameSupply s (t.setPermitNonce owner nonce) :=
  ⟨h.balance, h.supply, h.cap, h.initialized, h.admin, h.paused, h.frozen, h.frozenUntil⟩

end SameSupply

/-- The balances change by the postings, to accounts that may move, and the supply with them. -/
structure Posted (env : Env) (s t : State) (postings : List (Address × ℤ)) : Prop where
  balance : t.readBalance = post s.readBalance postings
  supply : t.getTotalSupply = s.getTotalSupply + (postings.map Prod.snd).sum
  movable : ∀ p ∈ postings, s.Movable env p.1
  covered : (∀ a, 0 ≤ s.readBalance a) → ∀ a, 0 ≤ t.readBalance a
  capped : s.getTotalSupply ≤ s.getMaxSupply → t.getTotalSupply ≤ t.getMaxSupply
  initialized : t.initialized = s.initialized
  admin : t.admin = none ↔ s.admin = none
  paused : s.admin = none → t.isPaused = s.isPaused
  /-- Without an admin nothing is minted, and without a balance nothing is moved. -/
  inert : s.admin = none → (∀ a, s.readBalance a = 0) → ∀ p ∈ postings, p.2 = 0

namespace Posted

lemma of_same (h : SameSupply s t) : Posted env s t [] where
  balance := h.balance
  supply := by simpa using h.supply
  movable := by simp
  covered hs := h.balance ▸ hs
  capped hs := by rwa [h.supply, h.cap]
  initialized := h.initialized
  admin := by rw [h.admin]
  paused _ := by rw [State.isPaused, State.isPaused, h.paused]
  inert := by simp

lemma of_administered (h : Administered s t) : Posted env s t [] where
  balance := h.balance
  supply := by simpa using h.supply
  movable := by simp
  covered hs := h.balance ▸ hs
  capped := h.capped
  initialized := h.initialized
  admin := by
    have hs := Option.ne_none_iff_isSome.mpr h.admin.1
    have ht := Option.ne_none_iff_isSome.mpr h.admin.2
    simp [hs, ht]
  paused hnone := by
    have hs := h.admin.1
    simp [hnone] at hs
  inert := by simp

lemma transfer (hv : SameSupply s v) (ha : s.Movable env a) (hb : s.Movable env b)
    (hn : 0 ≤ n) (hle : n ≤ s.readBalance a) (event : Event) :
    Posted env s (((v.debited a n).credited b n).publish event) [(a, -n), (b, n)] where
  balance := by
    simp [State.debited, State.credited, hv.balance, sub_eq_add_neg]
  supply := by
    have h : (((v.debited a n).credited b n).publish event).getTotalSupply = s.getTotalSupply :=
      hv.supply
    simp [h]
  movable := by
    rintro p hp
    rcases List.mem_pair.mp hp with rfl | rfl
    · exact ha
    · exact hb
  covered hs x := by
    have hdebited : ∀ x, 0 ≤ Function.update s.readBalance a (s.readBalance a - n) x := by
      intro x
      by_cases hx : x = a
      · simpa [hx] using hle
      · simpa [hx] using hs x
    have hposting : ∀ p ∈ [(b, n)], 0 ≤ p.2 := by simpa using hn
    have hboth := post_nonneg hdebited hposting x
    simpa [State.debited, State.credited, hv.balance] using hboth
  capped hs := by
    have h : v.getTotalSupply ≤ v.getMaxSupply := by rwa [hv.supply, hv.cap]
    exact h
  initialized := hv.initialized
  admin := by
    have h := hv.admin
    simp [State.publish, State.credited, State.debited, State.setBalance, h]
  paused _ := congrArg (Option.getD · false) hv.paused
  inert _ hs p hp := by
    have hzero : n = 0 := by
      have := hs a
      omega
    rcases List.mem_pair.mp hp with rfl | rfl
    · simp [hzero]
    · exact hzero

lemma burn (hv : SameSupply s v) (ha : s.Movable env a) (hn : 0 ≤ n) (hle : n ≤ s.readBalance a)
    (event : Event) :
    Posted env s (((v.debited a n).setTotalSupply (s.getTotalSupply - n)).publish event)
      [(a, -n)] where
  balance := by
    simp [State.debited, hv.balance, sub_eq_add_neg]
  supply := by
    simp [State.getTotalSupply, State.setTotalSupply, State.publish, sub_eq_add_neg]
  movable := by
    rintro p hp
    rw [List.mem_singleton.mp hp]
    exact ha
  covered hs x := by
    by_cases hx : x = a
    · simpa [State.debited, hv.balance, hx] using hle
    · simpa [State.debited, hv.balance, hx] using hs x
  capped hs := by
    have hcap := hv.cap
    change s.getTotalSupply - n ≤ v.getMaxSupply
    omega
  initialized := hv.initialized
  admin := by
    have h := hv.admin
    simp [State.publish, State.setTotalSupply, State.debited, State.setBalance, h]
  paused _ := congrArg (Option.getD · false) hv.paused
  inert _ hs p hp := by
    have hzero := hs a
    rw [List.mem_singleton.mp hp]
    change -n = 0
    omega

lemma mint {admin : Address} (hadmin : s.admin = some admin)
    (hpostings : ∀ p ∈ postings, 0 ≤ p.2 ∧ s.Movable env p.1)
    (hcap : s.getTotalSupply + (postings.map Prod.snd).sum ≤ s.getMaxSupply)
    (hbalance : t.readBalance = post s.readBalance postings)
    (ht : t = { s with
      balance := t.balance
      totalSupply := some (s.getTotalSupply + (postings.map Prod.snd).sum)
      history := t.history }) : Posted env s t postings where
  balance := hbalance
  supply := by
    rw [ht]
    rfl
  movable p hp := (hpostings p hp).2
  covered hs := by
    rw [hbalance]
    exact post_nonneg hs fun p hp => (hpostings p hp).1
  capped _ := by
    rw [ht]
    exact hcap
  initialized := by rw [ht]
  admin := by rw [ht]
  paused hnone := by simp [hnone] at hadmin
  inert hnone := by simp [hnone] at hadmin

lemma frozen (h : Posted env s t postings) (ha : ¬ s.Movable env a) :
    t.readBalance a = s.readBalance a := by
  rw [h.balance]
  refine post_of_notMem fun p hp he => ha ?_
  exact he ▸ h.movable p hp

end Posted

lemma Op.invoke_posted {op : Op} (hop : ∀ admin name symbol decimals,
    op ≠ .initialise admin name symbol decimals) (h : op.invoke d env s = .ok ((), t)) :
    ∃ postings, Posted env s t postings := by
  by_cases hadmin : op.IsAdministration
  · exact ⟨[], .of_administered (op.invoke_administered hadmin h)⟩
  cases op with
  | initialise admin name symbol decimals => exact absurd rfl (hop admin name symbol decimals)
  | transferChecked source target amount =>
    obtain ⟨hn, ⟨hs, ht⟩, -, -, ⟨hle, -⟩, -, rfl⟩ := transferChecked_ok.mp h
    exact ⟨_, .transfer (.refl s) hs ht hn hle _⟩
  | transfer source target amount =>
    obtain ⟨hn, ⟨hs, ht⟩, -, -, ⟨hle, -⟩, -, rfl⟩ := transferChecked_ok.mp h
    exact ⟨_, .transfer (.refl s) hs ht hn hle _⟩
  | transferFromChecked spender source target amount =>
    obtain ⟨hn, ⟨hs, ht⟩, -, -, -, -, -, ⟨hle, -⟩, -, rfl⟩ := transferFromChecked_ok.mp h
    exact ⟨_, .transfer (.charged s env _ _) hs ht hn hle _⟩
  | transferFrom spender source target amount =>
    obtain ⟨hn, ⟨hs, ht⟩, -, -, -, -, -, ⟨hle, -⟩, -, rfl⟩ := transferFromChecked_ok.mp h
    exact ⟨_, .transfer (.charged s env _ _) hs ht hn hle _⟩
  | approve owner spender amount expirationLedger =>
    obtain ⟨-, -, -, -, -, rfl⟩ := approve_ok.mp h
    exact ⟨[], .of_same ((SameSupply.putAllowance s _ _).publish _)⟩
  | allowance owner spender =>
    obtain ⟨_, h⟩ := Tx.void_ok.mp h
    obtain ⟨-, rfl⟩ := allowance_ok.mp h
    exact ⟨[], .of_same (.pruned s env (owner, spender))⟩
  | permit owner spender value deadline signature =>
    obtain ⟨-, rfl⟩ := permit_ok h
    exact ⟨[], .of_same (((SameSupply.putAllowance s _ _).setPermitNonce owner _).publish _)⟩
  | mint target amount =>
    obtain ⟨admin, hadmin, -, hn, hmovable, ⟨-, hcap⟩, -, rfl⟩ := mint_ok.mp h
    refine ⟨[(target, amount)], .mint hadmin ?_ (by simpa using hcap) ?_ ?_⟩
    · intro p hp
      rw [List.mem_singleton.mp hp]
      exact ⟨hn.le, hmovable⟩
    · simp [State.credited]
    · simp [State.credited, State.setBalance, State.setTotalSupply, State.publish]
  | batchMint recipients amounts =>
    obtain ⟨admin, hadmin, hcap, hitems, hbalance, ht⟩ := batchMint_ok h
    exact ⟨_, .mint hadmin hitems hcap hbalance ht⟩
  | burn owner amount =>
    obtain ⟨hn, hmovable, -, -, ⟨hle, -⟩, -, rfl⟩ := burn_ok.mp h
    exact ⟨_, .burn (.refl s) hmovable hn hle _⟩
  | burnFrom spender owner amount =>
    obtain ⟨hn, hmovable, -, -, -, -, -, -, ⟨hle, -⟩, -, rfl⟩ := burnFrom_ok.mp h
    exact ⟨_, .burn (.charged s env _ _) hmovable hn hle _⟩
  | _ => exact absurd trivial hadmin

/-- The supply is what the accounts hold together, none of them less than nothing, and within
the cap; before the token is set up there is none. -/
structure State.Supplied (s : State) : Prop where
  totals : Totals s.readBalance s.getTotalSupply
  nonneg : ∀ a, 0 ≤ s.readBalance a
  capped : s.getTotalSupply ≤ s.getMaxSupply
  unborn : s.initialized = false →
    s.admin = none ∧ s.isPaused = false ∧ ∀ a, s.readBalance a = 0

lemma State.Supplied.fresh : ({} : State).Supplied where
  totals := .zero
  nonneg _ := le_rfl
  capped := by decide
  unborn _ := ⟨rfl, rfl, fun _ => rfl⟩

lemma Posted.supplied (h : Posted env s t postings) (hs : s.Supplied) : t.Supplied where
  totals := by
    rw [h.balance, h.supply]
    exact hs.totals.post postings
  nonneg := h.covered hs.nonneg
  capped := h.capped hs.capped
  unborn ht := by
    obtain ⟨hadmin, hpaused, hzero⟩ := hs.unborn (h.initialized ▸ ht)
    refine ⟨h.admin.mpr hadmin, (h.paused hadmin).trans hpaused, fun x => ?_⟩
    rw [h.balance, post_zero (h.inert hadmin hzero)]
    exact hzero x

lemma State.Supplied.started (hs : s.Supplied) (hinit : s.initialized = false) (admin : Address)
    (name symbol : String) (decimals : ℕ) (event : Event) :
    ((s.started admin name symbol decimals).publish event).Supplied where
  totals := by
    have hzero : s.readBalance = fun _ => 0 := funext (hs.unborn hinit).2.2
    change Totals s.readBalance 0
    rw [hzero]
    exact .zero
  nonneg := hs.nonneg
  capped := by
    change (0 : ℤ) ≤ defaultMaxSupply
    decide
  unborn h := by simp [State.started, State.publish] at h

lemma step_supplied (call : Call) (hs : s.Supplied) : (step d call s).Supplied := by
  rcases step_cases d call s with he | h
  · rwa [he]
  · generalize step d call s = t at h
    obtain ⟨env, op⟩ := call
    by_cases hop : ∀ admin name symbol decimals, op ≠ .initialise admin name symbol decimals
    · obtain ⟨postings, hp⟩ := op.invoke_posted hop h
      exact hp.supplied hs
    · push Not at hop
      obtain ⟨admin, name, symbol, decimals, rfl⟩ := hop
      obtain ⟨hinit, rfl⟩ := initializeToken_ok h
      exact hs.started hinit admin name symbol decimals _

lemma after_supplied (d : Deployment) (calls : List Call) : (after d calls).Supplied :=
  reachable_invariant (I := State.Supplied) (fun _ call hs => step_supplied call hs) .fresh
    ⟨calls, rfl⟩

/-- Whatever calls are made, the total supply is the sum of the balances. -/
theorem supply_accounts_for_balances (d : Deployment) (calls : List Call) :
    Totals (after d calls).readBalance (after d calls).getTotalSupply ∧
      (∀ a, 0 ≤ (after d calls).readBalance a) ∧
      ∀ cap, (after d calls).maxSupply = some cap → (after d calls).getTotalSupply ≤ cap := by
  have hs := after_supplied d calls
  refine ⟨hs.totals, hs.nonneg, fun cap hcap => ?_⟩
  have hle := hs.capped
  rwa [State.getMaxSupply, hcap] at hle

end StellarTags.Token
