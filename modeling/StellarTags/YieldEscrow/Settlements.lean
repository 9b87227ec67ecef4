import StellarTags.YieldEscrow.Availability
import StellarTags.YieldEscrow.Rebalancing

/-! What a settlement pays, and what it leaves in the vault, with honest strategies of any kind. -/

namespace StellarTags.YieldEscrow

open Library.Transactions Library.Integers Library.Apportionment Soroban

section Tally

variable {W : Type}

/-- The deployment, with a tally of what was harvested of each token. -/
def tallied (d : Deployment W) : Deployment (W × (Address → ℤ)) where
  self := d.self
  deposit strategy source token amount w :=
    (d.deposit strategy source token amount w.1).map fun world => (world, w.2)
  withdraw strategy target token amount w :=
    (d.withdraw strategy target token amount w.1).map fun world => (world, w.2)
  harvest strategy target token w := (d.harvest strategy target token w.1).map fun answer =>
    (answer.1, answer.2, Function.update w.2 token (w.2 token + answer.1.val))
  yieldRateBps strategy token w :=
    (d.yieldRateBps strategy token w.1).map fun answer => (answer.1, answer.2, w.2)
  getBalance strategy token w :=
    (d.getBalance strategy token w.1).map fun answer => (answer.1, answer.2, w.2)
  balance token account w := (d.balance token account w.1).map fun answer => (answer.1, answer.2, w.2)
  transfer token source target amount w :=
    (d.transfer token source target amount w.1).map fun world => (world, w.2)

/-- Standard tokens and honest strategies, as far as the vault's holdings show: a withdrawal delivers
what is asked, a harvest what it reports, and a strategy's balance is not negative. -/
structure Honest (d : Deployment W) (vault : W → Address → ℤ) : Prop where
  withdraw : ∀ strategy token amount w w', d.withdraw strategy d.self token amount w = some w' →
    vault w' token = vault w token + amount
  harvest : ∀ strategy token w n w', d.harvest strategy d.self token w = some (n, w') →
    vault w' token = vault w token + n.val
  transfer : ∀ token target amount w w', target ≠ d.self →
    d.transfer token d.self target amount w = some w' → vault w' token = vault w token - amount
  yieldRateBps : ∀ strategy token w n w', d.yieldRateBps strategy token w = some (n, w') →
    vault w' = vault w
  getBalance : ∀ strategy token w n w', d.getBalance strategy token w = some (n, w') →
    0 ≤ n.val ∧ vault w' = vault w

/-- The same deployment for calls that only ask. -/
def Deployment.watching (d : Deployment W) : Deployment W where
  self := d.self
  deposit _ _ _ _ _ := none
  withdraw _ _ _ _ _ := none
  harvest _ _ _ _ := none
  yieldRateBps := d.yieldRateBps
  getBalance := d.getBalance
  balance _ _ _ := none
  transfer _ _ _ _ _ := none

end Tally

section Tracks

variable {W : Type} {d : Deployment W} {vault : W → Address → ℤ} {token : Address}
  {m m' m₁ m₂ : Machine (W × (Address → ℤ))} {gain more harvested later : ℤ}

/-- The vault has this much more of the token, this much of it harvested. -/
structure Tracks (vault : W → Address → ℤ) (token : Address) (gain harvested : ℤ)
    (m m' : Machine (W × (Address → ℤ))) : Prop where
  vault : vault m'.world.1 token = vault m.world.1 token + gain
  tally : m'.world.2 token = m.world.2 token + harvested

lemma Tracks.trans (h : Tracks vault token gain harvested m m₁)
    (h' : Tracks vault token more later m₁ m') :
    Tracks vault token (gain + more) (harvested + later) m m' where
  vault := by rw [h'.vault, h.vault, add_assoc]
  tally := by rw [h'.tally, h.tally, add_assoc]

/-- Neither the vault's holdings nor the tally are others. -/
def Unmoved (vault : W → Address → ℤ) (w w' : W × (Address → ℤ)) : Prop :=
  vault w'.1 = vault w.1 ∧ w'.2 = w.2

instance unmovedPreorder : IsPreorder (W × (Address → ℤ)) (Unmoved vault) where
  refl _ := ⟨rfl, rfl⟩
  trans _ _ _ h h' := ⟨h'.1.trans h.1, h'.2.trans h.2⟩

lemma Honest.watching (hd : Honest d vault) : (tallied d).watching.Keeps (Unmoved vault) := by
  refine ⟨?_, ?_, ?_, ?_, ?_, ?_, ?_⟩
  · rintro _ _ _ _ _ _ ⟨⟩
  · rintro _ _ _ _ _ _ ⟨⟩
  · rintro _ _ _ _ _ _ ⟨⟩
  · intro strategy token w n w' h
    obtain ⟨answer, hanswer, heq⟩ := Option.map_eq_some_iff.mp h
    obtain ⟨rfl, rfl⟩ := Prod.mk.inj heq
    exact ⟨hd.yieldRateBps _ _ _ _ _ hanswer, rfl⟩
  · intro strategy token w n w' h
    obtain ⟨answer, hanswer, heq⟩ := Option.map_eq_some_iff.mp h
    obtain ⟨rfl, rfl⟩ := Prod.mk.inj heq
    exact ⟨(hd.getBalance _ _ _ _ _ hanswer).2, rfl⟩
  · rintro _ _ _ _ _ ⟨⟩
  · rintro _ _ _ _ _ _ ⟨⟩

lemma Tracks.of_unmoved (h : Unmoved vault m.world m'.world) : Tracks vault token 0 0 m m' where
  vault := by rw [h.1, add_zero]
  tally := by rw [h.2, add_zero]

lemma Tracks.congr (h : Tracks vault token gain harvested m m') (hgain : gain = more)
    (hharvested : harvested = later) : Tracks vault token more later m m' := hgain ▸ hharvested ▸ h

end Tracks

section Steps

variable {W : Type} {d : Deployment W} {vault : W → Address → ℤ} {token : Address} {env : Env}
  {m m' m₁ : Machine (W × (Address → ℤ))} {n k : ℤ} {u : Unit} {record : Escrow} {escrowId : ℕ}
  {strategies : List StrategyAllocation}

lemma withdraw_tracks (hd : Honest d vault) {strategy : Address} (hn : 0 ≤ n)
    (h : Tx.whenever (0 < n) (withdraw (tallied d) strategy token n) m = .ok (u, m')) :
    Tracks vault token n 0 m m' := by
  rcases Tx.whenever_ok.mp h with ⟨-, h⟩ | ⟨hzero, rfl⟩
  · obtain ⟨_, hworld, rfl⟩ := order_ok.mp h
    obtain ⟨w, hw, rfl⟩ := Option.map_eq_some_iff.mp hworld
    exact ⟨hd.withdraw _ _ _ _ _ hw, (add_zero _).symm⟩
  · obtain rfl : n = 0 := by omega
    exact .of_unmoved ⟨rfl, rfl⟩

lemma harvest_tracks (hd : Honest d vault) {strategy : Address}
    (h : harvest (tallied d) strategy token m = .ok (k, m')) : Tracks vault token k k m m' := by
  simp only [harvest, Tx.bind_ok, ask_ok, Tx.pure_ok] at h
  obtain ⟨_, _, ⟨_, hworld, rfl⟩, rfl, rfl⟩ := h
  obtain ⟨answer, hanswer, heq⟩ := Option.map_eq_some_iff.mp hworld
  obtain ⟨rfl, rfl⟩ := Prod.mk.inj heq
  exact ⟨hd.harvest _ _ _ _ _ hanswer, by simp⟩

lemma payOut_tracks (hd : Honest d vault) {target : Address} (htarget : target ≠ d.self) (hn : 0 ≤ n)
    (h : payOut (tallied d) token target n m = .ok (u, m')) : Tracks vault token (-n) 0 m m' := by
  obtain ⟨-, -, hworld⟩ := payOut_ok.mp h
  split_ifs at hworld with hpos
  · obtain ⟨w, hw, heq⟩ := Option.map_eq_some_iff.mp hworld
    refine ⟨?_, ?_⟩
    · rw [← heq, hd.transfer _ _ _ _ _ htarget hw]
      ring
    · rw [← heq, add_zero]
  · obtain rfl : n = 0 := by omega
    rw [neg_zero]
    apply Tracks.of_unmoved
    rw [hworld]
    exact ⟨rfl, rfl⟩

lemma updateYieldState_tracks (hd : Honest d vault) {y : YieldState}
    (h : updateYieldState (tallied d) env token m = .ok (y, m')) :
    Tracks vault token 0 0 m m' ∧ m'.store.getStrategies = m.store.getStrategies := by
  obtain ⟨-, rate, m₁, hrate, rfl, rfl⟩ := updateYieldState_ok.mp h
  have hout := Outward.currentYieldRate hd.watching token m rate m₁ hrate
  refine ⟨.of_unmoved hout.world, ?_⟩
  rw [Machine.put_store, hout.store]
  rfl

lemma close_tracks (hd : Honest d vault)
    (h : close (tallied d) escrowId record n m = .ok (u, m')) : Tracks vault token 0 0 m m' := by
  obtain ⟨y, rate, m₁, -, -, hrate, -, rfl⟩ := close_ok.mp h
  have hout := nextYieldRate_outward hd.watching record.token _ m rate m₁ hrate
  exact .of_unmoved hout.world

lemma strategyBalances_tracks (hd : Honest d vault) {r : List ℤ × ℤ}
    (h : strategyBalances (tallied d) token strategies m = .ok (r, m')) :
    Tracks vault token 0 0 m m' ∧ m'.store = m.store ∧ r.1.length = strategies.length ∧
      (∀ balance ∈ r.1, 0 ≤ balance) ∧ r.2 = r.1.sum := by
  have hout := Outward.strategyBalances hd.watching token strategies m r m' h
  refine ⟨.of_unmoved hout.world, hout.store, ?_⟩
  clear hout
  suffices hfrom : ∀ found : List ℤ × ℤ, (∀ balance ∈ found.1, 0 ≤ balance) →
      found.2 = found.1.sum →
      Tx.fold (fun (found : List ℤ × ℤ) (strategy : StrategyAllocation) => do
        let balance ← getBalance (tallied d) strategy.address token
        let total ← checked (found.2 + balance)
        pure (found.1 ++ [balance], total)) found strategies m = .ok (r, m') →
      r.1.length = found.1.length + strategies.length ∧ (∀ balance ∈ r.1, 0 ≤ balance) ∧
        r.2 = r.1.sum by
    simpa using hfrom ([], 0) (by simp) rfl h
  clear h
  induction strategies generalizing m with
  | nil =>
    rintro found hnonneg hsum h
    obtain ⟨rfl, -⟩ := Tx.pure_ok.mp h
    exact ⟨rfl, hnonneg, hsum⟩
  | cons s rest ih =>
    rintro found hnonneg hsum h
    obtain ⟨next, m₁, hnext, h⟩ := Tx.fold_cons.mp h
    simp only [getBalance, Tx.bind_ok, ask_ok, Tx.pure_ok, checked_ok] at hnext
    obtain ⟨_, _, ⟨answer, _, ⟨_, hworld, rfl⟩, rfl, rfl⟩, _, _, ⟨-, rfl, rfl⟩, rfl, rfl⟩ := hnext
    obtain ⟨found', hfound, heq⟩ := Option.map_eq_some_iff.mp hworld
    obtain ⟨rfl, rfl⟩ := Prod.mk.inj heq
    have hbalance := (hd.getBalance _ _ _ _ _ hfound).1
    obtain ⟨hlength, hall, htotal⟩ := ih _ (by
      intro balance hmem
      rcases List.mem_append.mp hmem with hmem | hmem
      · exact hnonneg balance hmem
      · rwa [List.mem_singleton.mp hmem]) (by simp [hsum]) h
    refine ⟨?_, hall, htotal⟩
    rw [hlength]
    simp
    omega

lemma topUp_drawn {remainder x : ℤ} {share : (StrategyAllocation × ℤ) × ℕ}
    (h : topUp remainder share.1.2 share.2 m = .ok (x, m')) :
    x = (drawn remainder share).2 ∧ m' = m := by
  rw [topUp] at h
  rw [drawn]
  split_ifs at h ⊢
  · obtain ⟨-, rfl, rfl⟩ := checkedI128_ok.mp h
    exact ⟨rfl, rfl⟩
  · exact Tx.pure_ok.mp h

lemma redeemShares_tracks (hd : Honest d vault) {shares : List ((StrategyAllocation × ℤ) × ℕ)}
    {remainder : ℤ} (hshares : ∀ s ∈ shares, 0 ≤ s.1.2)
    (h : redeemShares (tallied d) token remainder shares m = .ok (k, m')) :
    Tracks vault token (((shares.map (drawn remainder)).map Prod.snd).sum + k) k m m' := by
  suffices hfrom : ∀ interest : ℤ, Tx.fold (fun interest share => do
      let amount ← topUp remainder share.1.2 share.2
      Tx.whenever (0 < amount) (withdraw (tallied d) share.1.1.address token amount)
      let harvested ← harvest (tallied d) share.1.1.address token
      Tx.reject (harvested < 0) .invalidInterest
      checked (interest + harvested)) interest shares m = .ok (k, m') →
      Tracks vault token (((shares.map (drawn remainder)).map Prod.snd).sum + (k - interest))
        (k - interest) m m' by
    simpa using hfrom 0 h
  clear h
  induction shares generalizing m with
  | nil =>
    intro interest h
    obtain ⟨rfl, rfl⟩ := Tx.pure_ok.mp h
    simpa using Tracks.of_unmoved (refl_of (Unmoved vault) m'.world)
  | cons share rest ih =>
    intro interest h
    obtain ⟨hshare, hrest⟩ := List.forall_mem_cons.mp hshares
    obtain ⟨next, m₁, hnext, hfold⟩ := Tx.fold_cons.mp h
    simp only [Tx.bind_ok, Tx.reject_ok, checked_ok] at hnext
    obtain ⟨amount, _, htop, _, m₂, hwithdraw, harvested, m₃, hharvest, _, _, ⟨-, rfl⟩, -, rfl, rfl⟩ :=
      hnext
    obtain ⟨rfl, rfl⟩ := topUp_drawn htop
    have htail := ih hrest _ hfold
    have hfirst := (withdraw_tracks hd (drawn_nonneg hshare) hwithdraw).trans
      (harvest_tracks hd hharvest)
    refine (hfirst.trans htail).congr ?_ ?_
    · rw [List.map_cons, List.map_cons, List.sum_cons]
      ring
    · ring

/-- What is asked of the strategies is the principal. -/
lemma redeemPosition_tracks (hd : Honest d vault) (hvalid : ValidPortfolio m.store.getStrategies)
    (hprincipal : 0 ≤ record.principal) {p : ℤ × ℤ}
    (h : redeemPosition (tallied d) record m = .ok (p, m')) :
    Tracks vault record.token (record.principal + p.2) p.2 m m' := by
  rw [redeemPosition, view_bind] at h
  generalize m.store.getStrategies = strategies at *
  obtain ⟨r, m₁, hread, hrest⟩ := Tx.bind_ok.mp h
  obtain ⟨hreads, -, hlength, hnonneg, hsum⟩ := strategyBalances_tracks hd hread
  obtain ⟨shared, m₂, hshared, hlast⟩ := Tx.bind_ok.mp hrest
  have hspread : m₂ = m₁ ∧ ∃ parts : List ℤ, shared.1 = floors record.principal parts.sum parts ∧
      shared.2 = shared.1.sum ∧ (∀ part ∈ parts, 0 ≤ part) ∧ 0 < parts.sum ∧
      parts.length = strategies.length := by
    rw [redemption] at hshared
    split_ifs at hshared with hpos
    · obtain ⟨-, -, rfl, rfl⟩ := allocate_ok.mp hshared
      rw [hsum] at hpos
      exact ⟨rfl, r.1, by rw [hsum], by rw [hsum], hnonneg, hpos, hlength⟩
    · obtain ⟨-, -, rfl, rfl⟩ := allocate_ok.mp hshared
      have hweights := sum_weights hvalid
      refine ⟨rfl, weights strategies, by rw [hweights], rfl, weights_nonneg strategies, ?_,
        List.length_map _⟩
      rw [hweights]
      decide
  obtain ⟨rfl, parts, hfloors, hallocated, hparts, hwhole, hcount⟩ := hspread
  simp only [Tx.bind_ok, checkedI128_ok, Tx.pure_ok] at hlast
  obtain ⟨_, _, ⟨-, rfl, rfl⟩, k, m₃, hredeem, rfl, rfl⟩ := hlast
  have hshares : ∀ s ∈ (strategies.zip shared.1).zipIdx, 0 ≤ s.1.2 := by
    intro s hs
    have hmem := (List.of_mem_zip (List.fst_mem_of_mem_zipIdx hs)).2
    rw [hfloors] at hmem
    exact floors_nonneg hprincipal hwhole.le hparts _ hmem
  have hasked : (((strategies.zip shared.1).zipIdx.map
      (drawn (record.principal - shared.2))).map Prod.snd).sum = record.principal := by
    rw [map_drawn, hallocated, hfloors, ← apportioned, List.map_snd_zip
      (by simp [length_apportioned, hcount])]
    exact sum_apportioned hprincipal hwhole hparts
  have hredeemed := redeemShares_tracks hd hshares hredeem
  rw [hasked] at hredeemed
  exact (hreads.trans hredeemed).congr (zero_add _) (zero_add _)

end Steps

section Conservation

variable {W : Type} {d : Deployment W} {vault : W → Address → ℤ} {env : Env} {record : Escrow}
  {m m' : Machine (W × (Address → ℤ))} {escrowId : ℕ} {outcome : ReleaseOutcome}

lemma redeem_tracks (hd : Honest d vault) (hvalid : ValidPortfolio m.store.getStrategies)
    (hprincipal : 0 ≤ record.principal) {p : ℤ × ℤ}
    (h : redeem (tallied d) env record m = .ok (p, m')) :
    p = (record.principal, m.store.interest env record) ∧ ∃ harvested,
      m.store.interest env record ≤ harvested ∧
        Tracks vault record.token (record.principal + harvested) harvested m m' := by
  obtain ⟨y, m₁, harvested, hupdate, hposition, -, -, hcovered, rfl⟩ := redeem_ok.mp h
  obtain ⟨hstill, hstrategies⟩ := updateYieldState_tracks hd hupdate
  have hindex : record.yieldAt y.index = m.store.interest env record := by
    obtain ⟨-, rate, m₂, -, rfl, -⟩ := updateYieldState_ok.mp hupdate
    rfl
  rw [hindex] at hcovered ⊢
  rw [← hstrategies] at hvalid
  refine ⟨rfl, harvested, hcovered, ?_⟩
  exact (hstill.trans (redeemPosition_tracks hd hvalid hprincipal hposition)).congr (zero_add _)
    (zero_add _)

/-- The parties get the principal and the interest, and the vault keeps what was harvested beyond it. -/
structure Conserved (d : Deployment W) (vault : W → Address → ℤ) (record : Escrow)
    (outcome : ReleaseOutcome) (m m' : Machine (W × (Address → ℤ))) : Prop where
  nonneg : 0 ≤ outcome.toBeneficiary ∧ 0 ≤ outcome.toPayer
  sum : outcome.toBeneficiary + outcome.toPayer = record.principal + outcome.interest
  paid : m'.transfers = d.paid record.token
    [(record.beneficiary, outcome.toBeneficiary), (record.payer, outcome.toPayer)] ++ m.transfers
  vault : vault m'.world.1 record.token - vault m.world.1 record.token =
    m'.world.2 record.token - m.world.2 record.token - outcome.interest
  kept : outcome.interest ≤ m'.world.2 record.token - m.world.2 record.token

lemma settled_transfers {op : Op} (heffect : Effect (tallied d) Anywhere env m m' op)
    (hop : op.subject = some (escrowId, true)) (hfound : m.store.escrow escrowId = some record)
    (hnormal : m.store.emergencyVaultMode = false) : m'.transfers =
      d.paid record.token (op.payments record (m.store.interest env record)) ++ m.transfers := by
  obtain ⟨r, settled, party, rate, -, hclosed⟩ := heffect.settled hop hnormal
  obtain rfl : record = r := Option.some.inj (hfound.symm.trans hclosed.found)
  exact hclosed.transfers

lemma release_conserved (hd : Honest d vault) (hs : Sound m.store)
    (hfound : m.store.escrow escrowId = some record)
    (hnormal : m.store.emergencyVaultMode = false) (hbeneficiary : record.beneficiary ≠ d.self)
    (hpayer : record.payer ≠ d.self)
    (h : release (tallied d) env escrowId m = .ok (outcome, m')) :
    Conserved d vault record outcome m m' := by
  have htransfers := settled_transfers (release_effect (tallied d).keepsAnywhere h) rfl hfound hnormal
  rw [release, requireInitialized_bind_ok, Tx.bind_ok] at h
  obtain ⟨hinit, r, m₀, hrecord, hrest⟩ := h
  obtain ⟨hsame, hactive, rfl⟩ := activeEscrow_ok.mp hrecord
  obtain rfl : record = r := Option.some.inj (hfound.symm.trans hsame)
  rw [view_bind, Tx.reject_bind_ok, hnormal, if_neg (by decide)] at hrest
  simp only [Tx.bind_ok, publish_ok, Tx.pure_ok, splitInterest_ok] at hrest
  obtain ⟨-, p, m₁, hredeem, q, _, ⟨-, -, -, rfl, rfl⟩, _, m₂, hfirst, _, m₃, hsecond, _, m₄, hclose,
    _, _, rfl, rfl, rfl⟩ := hrest
  have hprincipal := (hs.positive hfound).le
  have hinterest := hs.interest_nonneg env hfound
  obtain ⟨hshare, hrest⟩ := split_le hinterest (hs.shares escrowId record hfound)
  obtain ⟨rfl, harvested, hcovered, hredeemed⟩ :=
    redeem_tracks hd (hs.held.valid hinit) hprincipal hredeem
  dsimp only at hfirst hsecond hclose
  have htracks := hredeemed.trans (((payOut_tracks hd hbeneficiary (by omega) hfirst).trans
    (payOut_tracks hd hpayer (by omega) hsecond)).trans (close_tracks hd hclose))
  have hvault := htracks.vault
  have htally := htracks.tally
  refine ⟨⟨by dsimp only; omega, by dsimp only; omega⟩, by dsimp only; ring, ?_, ?_, ?_⟩
  · exact htransfers
  · dsimp only [Machine.put_world]
    omega
  · dsimp only [Machine.put_world]
    omega

lemma cancel_conserved (hd : Honest d vault) (hs : Sound m.store)
    (hfound : m.store.escrow escrowId = some record)
    (hnormal : m.store.emergencyVaultMode = false) (hpayer : record.payer ≠ d.self)
    (h : cancel (tallied d) env escrowId m = .ok (outcome, m')) :
    Conserved d vault record outcome m m' := by
  have htransfers := settled_transfers (cancel_effect (tallied d).keepsAnywhere h) rfl hfound hnormal
  rw [cancel, requireInitialized_bind_ok, Tx.bind_ok] at h
  obtain ⟨hinit, r, m₀, hrecord, hrest⟩ := h
  obtain ⟨hsame, hactive, rfl⟩ := activeEscrow_ok.mp hrecord
  obtain rfl : record = r := Option.some.inj (hfound.symm.trans hsame)
  rw [view_bind, Tx.reject_bind_ok, requireAuth_bind_ok, hnormal, if_neg (by decide)] at hrest
  simp only [Tx.bind_ok, publish_ok, Tx.pure_ok, checkedI128_ok] at hrest
  obtain ⟨-, -, p, m₁, hredeem, q, _, ⟨-, rfl, rfl⟩, _, m₂, hpay, _, m₃, hclose, _, _, rfl, rfl,
    rfl⟩ := hrest
  have hprincipal := (hs.positive hfound).le
  have hinterest := hs.interest_nonneg env hfound
  obtain ⟨rfl, harvested, hcovered, hredeemed⟩ :=
    redeem_tracks hd (hs.held.valid hinit) hprincipal hredeem
  dsimp only at hpay hclose
  have htracks := hredeemed.trans ((payOut_tracks hd hpayer (by omega) hpay).trans
    (close_tracks hd hclose))
  have hvault := htracks.vault
  have htally := htracks.tally
  refine ⟨⟨by dsimp only; omega, by dsimp only; omega⟩, by dsimp only; ring, ?_, ?_, ?_⟩
  · exact htransfers
  · dsimp only [Machine.put_world]
    omega
  · dsimp only [Machine.put_world]
    omega

/-- Whichever way an open escrow is settled outside emergencies, after any calls and in any world. -/
theorem settlement_conserved (d : Deployment W) (vault : W → Address → ℤ) (hd : Honest d vault)
    (world : W × (Address → ℤ)) (moves : List (Move (W × (Address → ℤ)))) (env : Env) (escrowId : ℕ)
    (record : Escrow) (hfound : (after (tallied d) world moves).store.escrow escrowId = some record)
    (hnormal : (after (tallied d) world moves).store.emergencyVaultMode = false)
    (hbeneficiary : record.beneficiary ≠ d.self) (hpayer : record.payer ≠ d.self)
    (outcome : ReleaseOutcome) (m' : Machine (W × (Address → ℤ)))
    (h : release (tallied d) env escrowId (after (tallied d) world moves) = .ok (outcome, m') ∨
      cancel (tallied d) env escrowId (after (tallied d) world moves) = .ok (outcome, m')) :
    Conserved d vault record outcome (after (tallied d) world moves) m' := by
  have hs := after_sound (tallied d) world moves
  rcases h with h | h
  · exact release_conserved hd hs hfound hnormal hbeneficiary hpayer h
  · exact cancel_conserved hd hs hfound hnormal hpayer h

end Conservation

section Examples

/-- The vault of the lending pools at the address. -/
def poolVault (self : Address) (w : Pools) (token : Address) : ℤ := w.holdings (token, self)

lemma honest_pools (self : Address) : Honest (honest self) (poolVault self) := by
  have hself : (honest self).self = self := rfl
  refine ⟨?_, ?_, ?_, ?_, ?_⟩
  · intro strategy token amount w w' h
    have hmoved : Moved self token (-1) [(strategy, amount)] w w' := .withdraw h
    simpa [poolVault] using hmoved.vault
  · intro strategy token w n w' h
    obtain ⟨hn, rfl⟩ := Pools.harvest_ok.mp h
    simp [poolVault, Pools.credit, hself, hn]
  · intro token target amount w w' htarget h
    obtain ⟨hlow, hle, rfl⟩ := Pools.transfer_ok.mp h
    rw [hself] at htarget hle
    simp [poolVault, Pools.credit, Pools.debit, hself, htarget.symm]
    omega
  · rintro strategy token w n w' h
    obtain ⟨-, rfl⟩ := Prod.mk.inj (Option.some.inj h)
    rfl
  · intro strategy token w n w' h
    obtain ⟨hn, rfl⟩ := Pools.report_ok.mp h
    exact ⟨by omega, rfl⟩

def oneTallied : List (Move (Pools × (Address → ℤ))) :=
  [.call signed (.initialise ⟨1⟩ ⟨7⟩),
    .call signed (.createEscrow 1 ⟨2⟩ ⟨3⟩ ⟨9⟩ ⟨1000, fitsI128_thousand⟩ 10 5000),
    .outside fun w => (w.1.accrue ⟨7⟩ ⟨9⟩ 100, w.2)]

def halves : Escrow := ⟨⟨2⟩, ⟨3⟩, ⟨9⟩, 1000, 10, 5000, 0, false, false⟩

theorem settlement_conserved_matured :
    ∃ outcome m', release (tallied (honest ⟨0⟩)) matured 1
        (after (tallied (honest ⟨0⟩)) (tenth, fun _ => 0) oneTallied) = .ok (outcome, m') ∧
      Conserved (honest ⟨0⟩) (poolVault ⟨0⟩) halves outcome
        (after (tallied (honest ⟨0⟩)) (tenth, fun _ => 0) oneTallied) m' := by
  have hok : Tx.succeeds (release (tallied (honest ⟨0⟩)) matured 1)
      (after (tallied (honest ⟨0⟩)) (tenth, fun _ => 0) oneTallied) = true := by decide +kernel
  have hfound : (after (tallied (honest ⟨0⟩)) (tenth, fun _ => 0) oneTallied).store.escrow 1 =
      some halves := by decide +kernel
  have hnormal : (after (tallied (honest ⟨0⟩)) (tenth, fun _ => 0)
      oneTallied).store.emergencyVaultMode = false := by decide +kernel
  have hapart : halves.beneficiary ≠ ⟨0⟩ ∧ halves.payer ≠ ⟨0⟩ := by decide
  obtain ⟨outcome, h⟩ := Tx.succeeds_iff.mp hok
  exact ⟨outcome, _, h, settlement_conserved (honest ⟨0⟩) (poolVault ⟨0⟩) (honest_pools ⟨0⟩)
    (tenth, fun _ => 0) oneTallied matured 1 halves hfound hnormal hapart.1 hapart.2 outcome _
    (Or.inl h)⟩

end Examples

end StellarTags.YieldEscrow
