import StellarTags.YieldEscrow.Index
import StellarTags.YieldEscrow.Redemption

/-! What each settlement takes from honest strategies, and what it leaves to the others. -/

namespace StellarTags.YieldEscrow

open Library.Transactions Library.Integers Library.Runs Library.Holdings Soroban

variable {self token : Address} {m m' : Machine Pools} {env : Env} {op : Op} {s t : State} {w : Pools}
  {escrowId : ℕ} {record : Escrow} {n : ℤ}

section Redeem

def State.indexNow (s : State) (env : Env) (token : Address) : ℤ :=
  (s.yieldNow env token).index + (s.yieldNow env token).growth env.timestamp

def State.interest (s : State) (env : Env) (record : Escrow) : ℤ :=
  record.yieldAt (s.indexNow env record.token)

def Pools.rateBps (w : Pools) (token : Address) (strategies : List StrategyAllocation) : ℕ :=
  w.weighted token strategies / 10000 % 2 ^ 32

def Pools.yieldNow (w : Pools) (s : State) (env : Env) (token : Address) : YieldState :=
  (s.yieldNow env token).accrued env.timestamp (w.rateBps token s.getStrategies)

lemma updateYieldState_honest {y : YieldState} (hvalid : ValidPortfolio m.store.getStrategies) :
    updateYieldState (honest self) env token m = .ok (y, m') ↔
      ((m.store.yieldNow env token).Accruable env.timestamp ∧
        m.world.Moderate token m.store.getStrategies) ∧ y = m.world.yieldNow m.store env token ∧
        m' = m.put (·.setYieldState token (m.world.yieldNow m.store env token)) := by
  rw [updateYieldState_ok]
  simp only [currentYieldRate_honest hvalid]
  constructor
  · rintro ⟨hyield, _, _, ⟨hmoderate, rfl, rfl⟩, rfl, rfl⟩
    exact ⟨⟨hyield, hmoderate⟩, rfl, rfl⟩
  · rintro ⟨⟨hyield, hmoderate⟩, rfl, rfl⟩
    exact ⟨hyield, _, _, ⟨hmoderate, rfl, rfl⟩, rfl, rfl⟩

/-- The amounts of a redemption can be worked out. -/
structure Computable (w : Pools) (s : State) (env : Env) (record : Escrow) : Prop where
  accruable : (s.yieldNow env record.token).Accruable env.timestamp
  moderate : w.Moderate record.token s.getStrategies
  total : (w.balances record.token s.getStrategies).sum ≤ maxI128
  products : ∀ b ∈ w.balances record.token s.getStrategies, record.principal * b ≤ maxI128
  delta : FitsI128 (s.indexNow env record.token - record.rewardDebt)
  product : FitsI128 (record.principal * (s.indexNow env record.token - record.rewardDebt))

/-- Each strategy has what it is to pay, and there is yield enough for the interest. -/
structure Payable (w : Pools) (s : State) (env : Env) (record : Escrow) : Prop where
  enough : ∀ d ∈ w.parts record.token s.getStrategies record.principal,
    d.2 ≤ w.balance (d.1, record.token)
  covered : s.interest env record ≤ w.gathered record.token s.getStrategies record.principal

/-- The position is in the vault, and the token's index up to date. -/
def redeemed (self : Address) (m : Machine Pools) (env : Env) (record : Escrow) : Machine Pools :=
  (m.put (·.setYieldState record.token (m.world.yieldNow m.store env record.token))).turn
    (m.world.draws self record.token
      (m.world.parts record.token m.store.getStrategies record.principal))

lemma redeem_honest (self : Address) {p : ℤ × ℤ} (hvalid : ValidPortfolio m.store.getStrategies)
    (hp : 0 < record.principal)
    (hle : record.principal ≤ m.world.deposits record.token m.store.getStrategies) :
    redeem (honest self) env record m = .ok (p, m') ↔
      (Computable m.world m.store env record ∧ Payable m.world m.store env record) ∧
        p = (record.principal, m.store.interest env record) ∧ m' = redeemed self m env record := by
  have hbalances : record.principal ≤ (m.world.balances record.token m.store.getStrategies).sum := by
    rw [sum_balances]
    omega
  have hposition {r : ℤ × ℤ} {m' : Machine Pools} :=
    redeemPosition_honest self record r m'
      (m := m.put (·.setYieldState record.token (m.world.yieldNow m.store env record.token)))
      hvalid.distinct hp hbalances
  rw [redeem_ok]
  simp only [updateYieldState_honest hvalid]
  constructor
  · rintro ⟨_, _, harvested, ⟨⟨hyield, hmoderate⟩, rfl, rfl⟩, hr, hdelta, hproduct, hcovered, rfl⟩
    obtain ⟨htotal, hproducts, henough, hsame, rfl⟩ := hposition.mp hr
    obtain rfl : harvested = _ := congrArg Prod.snd hsame
    exact ⟨⟨⟨hyield, hmoderate, htotal, hproducts, hdelta, hproduct⟩, ⟨henough, hcovered⟩⟩, rfl, rfl⟩
  · rintro ⟨⟨⟨hyield, hmoderate, htotal, hproducts, hdelta, hproduct⟩, ⟨henough, hcovered⟩⟩, rfl, rfl⟩
    exact ⟨_, _, _, ⟨⟨hyield, hmoderate⟩, rfl, rfl⟩,
      hposition.mpr ⟨htotal, hproducts, henough, rfl, rfl⟩, hdelta, hproduct, hcovered, rfl⟩

lemma redeemed_holdings (self : Address) (hvalid : ValidPortfolio m.store.getStrategies) (hp : 0 < record.principal)
    (hle : record.principal ≤ m.world.deposits record.token m.store.getStrategies)
    (hpay : Payable m.world m.store env record) : record.principal + m.store.interest env record ≤
      (redeemed self m env record).world.holdings (record.token, self) := by
  have hbalances : 0 < (m.world.balances record.token m.store.getStrategies).sum := by
    rw [sum_balances]
    omega
  have hdistinct : ((m.world.parts record.token m.store.getStrategies record.principal).map
      Prod.fst).Nodup := by
    rw [fst_parts]
    exact hvalid.distinct
  have hparts := sum_parts_toNat m.world record.token m.store.getStrategies hp.le hbalances
  have hcovered := hpay.covered
  have hvault := Pools.holdings_draws self record.token m.world hdistinct
  rw [redeemed, Machine.turn]
  dsimp only
  rw [hvault, ← Pools.gathered, Nat.cast_add, Nat.cast_add]
  omega

end Redeem

section Payments

/-- What the strategies keep is the same. -/
structure SameStrategies (w w' : Pools) : Prop where
  principal : w'.principal = w.principal
  accrued : w'.accrued = w.accrued
  rate : w'.rate = w.rate

lemma SameStrategies.trans {w₁ w₂ w₃ : Pools} (h : SameStrategies w₁ w₂) (h' : SameStrategies w₂ w₃) :
    SameStrategies w₁ w₃ :=
  ⟨h'.principal.trans h.principal, h'.accrued.trans h.accrued, h'.rate.trans h.rate⟩

lemma payOut_honest (self token target : Address) (m : Machine Pools) (n : ℤ) (hlow : 0 ≤ n) (hn : n ≤ m.world.holdings (token, self)) :
    ∃ w, payOut (honest self) token target n m =
        .ok ((), ⟨m.store, (honest self).paid token [(target, n)] ++ m.transfers, w⟩) ∧
      SameStrategies m.world w ∧
      m.world.holdings (token, self) - n ≤ (w.holdings (token, self) : ℤ) := by
  have htransfer (w : Pools) : payOut (honest self) token target n m =
      .ok ((), ⟨m.store, (honest self).paid token [(target, n)] ++ m.transfers, w⟩) ↔
        if 0 < n then (honest self).transfer token self target n m.world = some w
        else w = m.world := by
    rw [payOut_ok]
    exact ⟨fun h => h.2.2, fun h => ⟨rfl, rfl, h⟩⟩
  by_cases hpos : 0 < n
  · refine ⟨(m.world.debit token self n.toNat).credit token target n.toNat, (htransfer _).mpr ?_,
      ⟨rfl, rfl, rfl⟩, ?_⟩
    · rw [if_pos hpos]
      exact Pools.transfer_ok.mpr ⟨hlow, hn, rfl⟩
    · by_cases htarget : target = self
      · simp [Pools.credit, Pools.debit, htarget]
        omega
      · simp [Pools.credit, Pools.debit, Ne.symm htarget]
        omega
  · exact ⟨m.world, (htransfer _).mpr (by rw [if_neg hpos]), ⟨rfl, rfl, rfl⟩, by omega⟩

lemma close_honest {settled : Escrow} {y : YieldState} (hvalid : ValidPortfolio m.store.getStrategies)
    (hnormal : m.store.emergencyVaultMode = false) (hy : m.store.yieldState settled.token = some y)
    (hfits : FitsI128 (y.totalPrincipal - n))
    (hmoderate : m.world.Moderate settled.token m.store.getStrategies)
    (hcounted : 1 ≤ m.store.activeEscrows) :
    close (honest self) escrowId settled n m = .ok ((), m.put (·.closed escrowId settled
      { y with
        totalPrincipal := y.totalPrincipal - n
        rateBps := m.world.rateBps settled.token m.store.getStrategies })) := by
  have hrate : nextYieldRate (honest self) settled.token m.store.emergencyVaultMode m =
      .ok (m.world.rateBps settled.token m.store.getStrategies, m) := by
    rw [hnormal]
    exact (currentYieldRate_honest hvalid).mpr ⟨hmoderate, rfl, rfl⟩
  exact close_ok.mpr ⟨y, _, m, hy, hfits, hrate, hcounted, rfl⟩

end Payments

section Settlements

/-- What holds of an escrow contract's storage in any run. -/
structure Sound (s : State) : Prop where
  balanced : Balanced s
  held : PortfolioHeld s
  indebted : Indebted s
  shares : ∀ id r, s.escrow id = some r → r.beneficiaryInterestBps ≤ bpsDenominator

/-- The call that may settle an escrow now: anyone's once it is matured, the payer's before. -/
inductive Ready (env : Env) (escrowId : ℕ) (record : Escrow) : Op → Prop
  | release (hmatured : record.releaseLedger ≤ env.sequence) :
    Ready env escrowId record (.release escrowId)
  | cancel (hlocked : env.sequence < record.releaseLedger) (hauth : env.auth record.payer = true) :
    Ready env escrowId record (.cancel escrowId)

/-- The call is one that may settle the open escrow, outside emergencies. -/
structure Due (s : State) (env : Env) (op : Op) (escrowId : ℕ) (record : Escrow) : Prop where
  normal : s.emergencyVaultMode = false
  found : s.escrow escrowId = some record
  active : record.isActive = true
  ready : Ready env escrowId record op

/-- The strategies have kept at least what is deposited for the token's escrows. -/
def Pools.Keeps (w : Pools) (s : State) (token : Address) : Prop :=
  s.totalPrincipal token ≤ w.deposits token s.getStrategies

instance keepsDecidable (w : Pools) (s : State) (token : Address) : Decidable (w.Keeps s token) :=
  inferInstanceAs (Decidable (_ ≤ _))

lemma Sound.positive (hs : Sound s) (hfound : s.escrow escrowId = some record) :
    0 < record.principal := hs.balanced.positive escrowId record hfound

lemma locked_nonneg (hs : Sound s) (token : Address) (id : ℕ) : 0 ≤ s.locked token id := by
  rw [State.locked]
  cases hid : s.escrow id with
  | none => exact le_rfl
  | some r =>
    have hr := hs.balanced.positive id r hid
    dsimp only
    split_ifs
    · exact hr.le
    · exact le_rfl

lemma Sound.principal_le (hs : Sound s) (hfound : s.escrow escrowId = some record)
    (hactive : record.isActive = true) : record.principal ≤ s.totalPrincipal record.token := by
  have hle := (hs.balanced.principal record.token).le (locked_nonneg hs record.token) escrowId
  simpa [State.locked, hfound, hactive] using hle

lemma Sound.counted (hs : Sound s) (hfound : s.escrow escrowId = some record)
    (hactive : record.isActive = true) : 1 ≤ s.activeEscrows := by
  rw [← hs.balanced.count, Nat.one_le_iff_ne_zero]
  exact Set.ncard_ne_zero_of_mem ⟨record, hfound, hactive⟩ hs.balanced.finite

lemma Sound.initialized (hs : Sound s) (hfound : s.escrow escrowId = some record)
    (hactive : record.isActive = true) : s.initialized = true := by
  by_contra hinit
  have hnone := (hs.held.fresh ((Bool.not_eq_true _).mp hinit)).2
  have hcounted := hs.counted hfound hactive
  omega

lemma yieldAt_debt (record : Escrow) : record.yieldAt record.rewardDebt = 0 := by
  rw [Escrow.yieldAt, sub_self, mul_zero, Int.zero_tdiv]

lemma Sound.interest_nonneg (hs : Sound s) (env : Env) (hfound : s.escrow escrowId = some record) :
    0 ≤ s.interest env record := by
  obtain ⟨y, hy, hdebt⟩ := hs.indebted escrowId record hfound
  have hgrowth := growth_nonneg y env.timestamp
  rw [← yieldAt_debt record, State.interest, State.indexNow, yieldNow_of_some hy]
  apply yieldAt_mono_index (hs.positive hfound).le
  omega

lemma split_le {interest : ℤ} {bps : ℕ} (hi : 0 ≤ interest) (hbps : bps ≤ bpsDenominator) :
    0 ≤ (interest * bps).tdiv bpsDenominator ∧ (interest * bps).tdiv bpsDenominator ≤ interest := by
  have hproduct : 0 ≤ interest * bps := by positivity
  have hle : interest * bps ≤ interest * bpsDenominator := mul_le_mul_of_nonneg_left hbps hi
  rw [Int.tdiv_eq_ediv_of_nonneg hproduct]
  constructor
  · exact Int.ediv_nonneg hproduct (by decide)
  · exact Int.ediv_le_of_le_mul (by decide) hle

/-- All that a settlement is checked for. -/
structure Settleable (w : Pools) (s : State) (env : Env) (op : Op) (escrowId : ℕ) (record : Escrow) :
    Prop where
  computable : Computable w s env record
  payable : Payable w s env record
  split : op = .release escrowId →
    FitsI128 (s.interest env record * record.beneficiaryInterestBps)

variable (hs : Sound m.store) (hfound : m.store.escrow escrowId = some record)
  (hactive : record.isActive = true) (hkeeps : m.world.Keeps m.store record.token)
include hs hfound hactive hkeeps

lemma Sound.funded :
    record.principal ≤ m.world.deposits record.token m.store.getStrategies :=
  (hs.principal_le hfound hactive).trans hkeeps

lemma Settleable.fits (h : Settleable m.world m.store env op escrowId record) :
    FitsI128 (record.principal + m.store.interest env record) ∧
      FitsI128 (m.store.totalPrincipal record.token - record.principal) := by
  have hp := hs.positive hfound
  have hi := hs.interest_nonneg env hfound
  have hle := hs.principal_le hfound hactive
  have hgathered := gathered_le m.world record.token m.store.getStrategies record.principal
  have htotal := h.computable.total
  have hcovered := h.payable.covered
  rw [Pools.Keeps] at hkeeps
  rw [sum_balances] at htotal
  rw [fitsI128_of_nonneg (by omega), fitsI128_of_nonneg (by omega)]
  constructor <;> omega

lemma Settleable.close (h : Settleable m.world m.store env op escrowId record)
    (hnormal : m.store.emergencyVaultMode = false) (m₁ : Machine Pools) (settled : Escrow)
    (htoken : settled.token = record.token) (hstore : m₁.store = (redeemed self m env record).store)
    (hsame : SameStrategies (redeemed self m env record).world m₁.world) :
    ∃ m', YieldEscrow.close (honest self) escrowId settled record.principal m₁ = .ok ((), m') ∧
      m'.world = m₁.world := by
  have hvalid := hs.held.valid (hs.initialized hfound hactive)
  have htotal : (m.world.yieldNow m.store env record.token).totalPrincipal =
      m.store.totalPrincipal record.token := State.totalPrincipal_yieldNow m.store env record.token
  have hy : m₁.store.yieldState settled.token =
      some (m.world.yieldNow m.store env record.token) := by
    rw [hstore, htoken]
    exact yieldState_setYieldState _ _
  have hstrategies : m₁.store.getStrategies = m.store.getStrategies := by
    rw [hstore]
    rfl
  have hmoderate : m₁.world.Moderate settled.token m₁.store.getStrategies := by
    have hrate : m₁.world.rate = m.world.rate := hsame.rate.trans Pools.rate_draws
    rw [hstrategies, htoken, Pools.Moderate, hrate]
    exact h.computable.moderate
  have hfits := (h.fits hs hfound hactive hkeeps).2
  rw [← htotal] at hfits
  refine ⟨_, close_honest (by rwa [hstrategies]) (by rw [hstore]; exact hnormal) hy hfits hmoderate
    (by rw [hstore]; exact hs.counted hfound hactive), rfl⟩

variable {m₁ m₂ m₃ : Machine Pools}

omit hs hkeeps in
lemma release_of_steps (hinit : m.store.initialized = true)
    (hnormal : m.store.emergencyVaultMode = false) (hmatured : record.releaseLedger ≤ env.sequence)
    {p q : ℤ × ℤ} {m₄ : Machine Pools} (hredeem : redeem (honest self) env record m = .ok (p, m₁))
    (hsplit : splitInterest p.1 p.2 record.beneficiaryInterestBps m₁ = .ok (q, m₁))
    (hfirst : payOut (honest self) record.token record.beneficiary q.1 m₁ = .ok ((), m₂))
    (hsecond : payOut (honest self) record.token record.payer q.2 m₂ = .ok ((), m₃))
    (hclose : YieldEscrow.close (honest self) escrowId { record with released := true } p.1 m₃ =
      .ok ((), m₄)) :
    ∃ m', (Op.release escrowId).invoke (honest self) env m = .ok ((), m') ∧ m'.world = m₄.world := by
  have hrelease : release (honest self) env escrowId m = .ok (⟨p.1, p.2, q.1, q.2⟩,
      m₄.put (State.publish · (.released escrowId p.1 p.2 q.1 q.2))) := by
    rw [release, requireInitialized_bind_ok, Tx.bind_ok]
    refine ⟨hinit, record, m, activeEscrow_ok.mpr ⟨hfound, hactive, rfl⟩, ?_⟩
    rw [view_bind, Tx.reject_bind_ok, hnormal, if_neg Bool.false_ne_true]
    refine ⟨fun h => hmatured.not_gt h.2, ?_⟩
    rw [Tx.bind_of_ok hredeem]
    dsimp only
    rw [Tx.bind_of_ok hsplit, Tx.bind_of_ok hfirst, Tx.bind_of_ok hsecond, Tx.bind_of_ok hclose,
      publish_bind, Tx.pure_ok]
    exact ⟨rfl, rfl⟩
  exact ⟨_, Tx.void_ok.mpr ⟨_, hrelease⟩, rfl⟩

omit hs hkeeps in
lemma cancel_of_steps (hinit : m.store.initialized = true)
    (hnormal : m.store.emergencyVaultMode = false) (hlocked : env.sequence < record.releaseLedger)
    (hauth : env.auth record.payer = true) {p : ℤ × ℤ} (hfits : FitsI128 (p.1 + p.2))
    (hredeem : redeem (honest self) env record m = .ok (p, m₁))
    (hpay : payOut (honest self) record.token record.payer (p.1 + p.2) m₁ = .ok ((), m₂))
    (hclose : YieldEscrow.close (honest self) escrowId { record with cancelled := true } p.1 m₂ =
      .ok ((), m₃)) :
    ∃ m', (Op.cancel escrowId).invoke (honest self) env m = .ok ((), m') ∧ m'.world = m₃.world := by
  have hcancel : cancel (honest self) env escrowId m = .ok (⟨p.1, p.2, 0, p.1 + p.2⟩,
      m₃.put (State.publish · (.cancelled escrowId p.1 p.2 (p.1 + p.2)))) := by
    rw [cancel, requireInitialized_bind_ok, Tx.bind_ok]
    refine ⟨hinit, record, m, activeEscrow_ok.mpr ⟨hfound, hactive, rfl⟩, ?_⟩
    rw [view_bind, Tx.reject_bind_ok, requireAuth_bind_ok, hnormal, if_neg Bool.false_ne_true]
    refine ⟨fun h => hlocked.not_ge h.2, hauth, ?_⟩
    rw [Tx.bind_of_ok hredeem]
    dsimp only
    rw [checkedI128_bind_ok, Tx.bind_of_ok hpay, Tx.bind_of_ok hclose, publish_bind, Tx.pure_ok]
    exact ⟨hfits, rfl, rfl⟩
  exact ⟨_, Tx.void_ok.mpr ⟨_, hcancel⟩, rfl⟩

lemma Settleable.succeeds (h : Settleable m.world m.store env op escrowId record)
    (hnormal : m.store.emergencyVaultMode = false) (hready : Ready env escrowId record op) :
    ∃ m', op.invoke (honest self) env m = .ok ((), m') ∧
      SameStrategies (redeemed self m env record).world m'.world := by
  have hinit := hs.initialized hfound hactive
  have hvalid := hs.held.valid hinit
  have hp := hs.positive hfound
  have hi := hs.interest_nonneg env hfound
  have hfunded := hs.funded hfound hactive hkeeps
  have hfits := (h.fits hs hfound hactive hkeeps).1
  have hredeem := (redeem_honest self hvalid hp hfunded).mpr
    ⟨⟨h.computable, h.payable⟩, rfl, rfl⟩
  have hvault := redeemed_holdings self hvalid hp hfunded h.payable
  cases hready with
  | release hmatured =>
    obtain ⟨hlow, hhigh⟩ := split_le hi (hs.shares escrowId record hfound)
    have hsplit := h.split rfl
    have htotal := hfits.2
    obtain ⟨w₁, hfirst, hsame₁, hleft⟩ := payOut_honest self record.token
      record.beneficiary (redeemed self m env record) (record.principal +
        (m.store.interest env record * record.beneficiaryInterestBps).tdiv bpsDenominator)
      (by omega) (by omega)
    obtain ⟨w₂, hsecond, hsame₂, -⟩ := payOut_honest self record.token record.payer ⟨_, _, w₁⟩
      (m.store.interest env record -
        (m.store.interest env record * record.beneficiaryInterestBps).tdiv bpsDenominator)
      (by omega) (by dsimp only; omega)
    have hsame := hsame₁.trans hsame₂
    obtain ⟨m₄, hclose, hworld⟩ := h.close hs hfound hactive hkeeps hnormal ⟨_, _, w₂⟩
      { record with released := true } rfl rfl hsame
    have hshares : splitInterest record.principal (m.store.interest env record)
        record.beneficiaryInterestBps (redeemed self m env record) = .ok (_, _) :=
      splitInterest_ok.mpr ⟨hsplit, (fitsI128_of_nonneg (by omega)).mpr (by omega),
        (fitsI128_of_nonneg (by omega)).mpr (by omega), rfl, rfl⟩
    obtain ⟨m', hinvoke, hlast⟩ := release_of_steps hfound hactive hinit hnormal hmatured hredeem
      hshares hfirst hsecond hclose
    exact ⟨m', hinvoke, by rw [hlast, hworld]; exact hsame⟩
  | cancel hlocked hauth =>
    obtain ⟨w, hpay, hsame, -⟩ := payOut_honest self record.token record.payer
      (redeemed self m env record) (record.principal + m.store.interest env record) (by omega) hvault
    obtain ⟨m₃, hclose, hworld⟩ := h.close hs hfound hactive hkeeps hnormal ⟨_, _, w⟩
      { record with cancelled := true } rfl rfl hsame
    obtain ⟨m', hinvoke, hlast⟩ := cancel_of_steps hfound hactive hinit hnormal hlocked hauth hfits
      hredeem hpay hclose
    exact ⟨m', hinvoke, by rw [hlast, hworld]; exact hsame⟩

/-- And neither succeeds otherwise. -/
lemma settleable_of_ok (hnormal : m.store.emergencyVaultMode = false)
    (hready : Ready env escrowId record op) (h : op.invoke (honest self) env m = .ok ((), m')) :
    Settleable m.world m.store env op escrowId record := by
  have hvalid := hs.held.valid (hs.initialized hfound hactive)
  have hp := hs.positive hfound
  have hfunded := hs.funded hfound hactive hkeeps
  have hinverse {p : ℤ × ℤ} {m₁ : Machine Pools} (h : redeem (honest self) env record m = .ok (p, m₁)) :=
    (redeem_honest self hvalid hp hfunded).mp h
  have hrecord {β : Type} {r : β} {k : Escrow → Tx (Machine Pools) Error β} :
      (activeEscrow escrowId >>= k) m = .ok (r, m') ↔ k record m = .ok (r, m') := by
    rw [Tx.bind_of_ok (activeEscrow_ok.mpr ⟨hfound, hactive, rfl⟩)]
  cases hready with
  | release hmatured =>
    obtain ⟨outcome, h⟩ := Tx.void_ok.mp h
    rw [release, requireInitialized_bind_ok, hrecord, view_bind, Tx.reject_bind_ok, hnormal,
      if_neg Bool.false_ne_true, Tx.bind_ok] at h
    obtain ⟨-, -, p, m₁, hredeem, h⟩ := h
    obtain ⟨⟨hcomputable, hpayable⟩, rfl, rfl⟩ := hinverse hredeem
    obtain ⟨q, m₂, hsplit, -⟩ := Tx.bind_ok.mp h
    exact ⟨hcomputable, hpayable, fun _ => (splitInterest_ok.mp hsplit).1⟩
  | cancel hlocked hauth =>
    obtain ⟨outcome, h⟩ := Tx.void_ok.mp h
    rw [cancel, requireInitialized_bind_ok, hrecord, view_bind, Tx.reject_bind_ok,
      requireAuth_bind_ok, hnormal, if_neg Bool.false_ne_true, Tx.bind_ok] at h
    obtain ⟨-, -, -, p, m₁, hredeem, -⟩ := h
    obtain ⟨⟨hcomputable, hpayable⟩, -, -⟩ := hinverse hredeem
    exact ⟨hcomputable, hpayable, fun hop => by cases hop⟩

end Settlements

section Owed

/-- The interest that an open escrow of the token has to get. -/
def State.owed (s : State) (env : Env) (token : Address) (escrowId : ℕ) : ℤ :=
  match s.escrow escrowId with
  | some r => if r.isActive = true ∧ r.token = token then s.interest env r else 0
  | none => 0

lemma owed_of_found (hfound : s.escrow escrowId = some record) (hactive : record.isActive = true) :
    s.owed env record.token escrowId = s.interest env record := by
  simp [State.owed, hfound, hactive]

lemma Sound.owed_nonneg (hs : Sound s) (env : Env) (token : Address) (id : ℕ) :
    0 ≤ s.owed env token id := by
  rw [State.owed]
  cases hid : s.escrow id with
  | none => exact le_rfl
  | some r =>
    dsimp only
    split_ifs
    · exact hs.interest_nonneg env hid
    · exact le_rfl

lemma Sound.totals_owed (hs : Sound s) (env : Env) (token : Address) :
    Totals (s.owed env token) (∑ᶠ id, s.owed env token id) := by
  refine ⟨hs.balanced.finite.subset fun id hid => ?_, rfl⟩
  rw [Function.mem_support, State.owed] at hid
  cases hr : s.escrow id with
  | none => simp [hr] at hid
  | some r =>
    rw [hr] at hid
    by_cases hactive : r.isActive = true
    · exact ⟨r, hr, hactive⟩
    · simp [hactive] at hid

variable {settled : Escrow} {y : YieldState} {payments : List (Address × ℤ)} {party : Address}

lemma Closed.owed {d : Deployment Pools} {rate : ℕ} (h : Closed d escrowId record settled
      ((m.store.yieldNow env record.token).accrued env.timestamp rate) payments m m')
    (hsettles : Settles env escrowId record op party settled) :
    m'.store.owed env record.token = Function.update (m.store.owed env record.token) escrowId 0 := by
  obtain ⟨next, hyield⟩ := h.yieldState
  have hnow : m'.store.indexNow env record.token = m.store.indexNow env record.token := by
    have hlook := congrFun hyield record.token
    rw [hsettles.sameToken, Function.update_self] at hlook
    rw [State.indexNow, yieldNow_of_some hlook, State.indexNow]
    simp [YieldState.growth, YieldState.accrued]
  obtain ⟨next, event, hstore⟩ := h.store
  have hescrow : m'.store.escrow = Function.update m.store.escrow escrowId (some settled) := by
    rw [hstore]
    rfl
  have hinactive : settled.isActive = false := by
    rcases hsettles.flagged with rfl | rfl <;> simp [Escrow.isActive]
  funext id
  by_cases hid : id = escrowId
  · subst hid
    simp [State.owed, hescrow, hinactive]
  · rw [Function.update_of_ne hid, State.owed, State.owed, hescrow, Function.update_of_ne hid]
    cases m.store.escrow id with
    | none => rfl
    | some r =>
      dsimp only
      split_ifs with hr
      · rw [State.interest, State.interest, hr.2, hnow]
      · rfl

end Owed

section Strategies

variable {strategies : List StrategyAllocation} {principal : ℤ}

lemma yields_draws (hdistinct : (strategies.map StrategyAllocation.address).Nodup) :
    (w.draws self token (w.parts token strategies principal)).yields token strategies = 0 := by
  rw [Pools.yields, ← sum_parts_map w token strategies principal
    fun a => (w.draws self token (w.parts token strategies principal)).accrued (a, token)]
  apply List.sum_eq_zero
  intro n hn
  obtain ⟨d, hd, rfl⟩ := List.mem_map.mp hn
  exact (Pools.draws_of_mem (by rwa [fst_parts]) hd).2

/-- Where every strategy pays out of its principal, the principals lose what is withdrawn. -/
lemma deposits_draws (hdistinct : (strategies.map StrategyAllocation.address).Nodup)
    (hp : 0 ≤ principal) (htotal : 0 < (w.balances token strategies).sum)
    (hwithin : ∀ d ∈ w.parts token strategies principal, d.2 ≤ w.principal (d.1, token)) :
    (w.draws self token (w.parts token strategies principal)).deposits token strategies =
      w.deposits token strategies - principal := by
  have hleft : (w.draws self token (w.parts token strategies principal)).deposits token strategies =
      ((w.parts token strategies principal).map fun d =>
        w.principal (d.1, token) - d.2.toNat).sum := by
    rw [Pools.deposits, ← sum_parts_map w token strategies principal
      fun a => (w.draws self token (w.parts token strategies principal)).principal (a, token)]
    congr 1
    apply List.map_congr_left
    intro d hd
    exact (Pools.draws_of_mem (by rwa [fst_parts]) hd).1
  have hbefore : w.deposits token strategies = ((w.parts token strategies principal).map fun d =>
      w.principal (d.1, token) - d.2.toNat + d.2.toNat).sum := by
    rw [Pools.deposits, ← sum_parts_map w token strategies principal
      fun a => w.principal (a, token)]
    congr 1
    apply List.map_congr_left
    intro d hd
    have hle := hwithin d hd
    omega
  have hdrawn := sum_parts_toNat w token strategies hp htotal
  rw [List.sum_map_add] at hbefore
  rw [hleft, hbefore, Nat.cast_add, hdrawn]
  ring

/-- Where every strategy pays out of its principal, and only there, all yield is left. -/
lemma gathered_eq_iff (henough : ∀ d ∈ w.parts token strategies principal,
      d.2 ≤ w.balance (d.1, token)) :
    w.gathered token strategies principal = w.yields token strategies ↔
      ∀ d ∈ w.parts token strategies principal, d.2 ≤ w.principal (d.1, token) := by
  rw [Pools.gathered, Pools.yields, ← sum_parts_map w token strategies
    principal fun a => w.accrued (a, token)]
  constructor
  · intro hsum d hd
    by_contra hbeyond
    have hbalance := henough d hd
    rw [Pools.balance] at hbalance
    have hlt : ((w.parts token strategies principal).map (w.yieldLeft token)).sum <
        ((w.parts token strategies principal).map fun d => w.accrued (d.1, token)).sum := by
      apply List.sum_lt_sum
      · intro e _
        exact Nat.sub_le _ _
      · refine ⟨d, hd, ?_⟩
        rw [Pools.yieldLeft]
        omega
    omega
  · intro hwithin
    congr 1
    apply List.map_congr_left
    intro d hd
    have hle := hwithin d hd
    rw [Pools.yieldLeft]
    omega

end Strategies

section Service

/-- The strategies have what is deposited for the token's escrows, and have yielded all of their
interest and no more. -/
structure Backed (w : Pools) (s : State) (env : Env) (token : Address) : Prop where
  deposits : w.Keeps s token
  yields : ∑ᶠ id, s.owed env token id = w.yields token s.getStrategies

/-- The settlement pays the principal and the interest, and leaves the others theirs. -/
structure Served (vault : Address) (m : Machine Pools) (env : Env) (op : Op) (escrowId : ℕ)
    (record : Escrow) : Prop where
  succeeds : Tx.succeeds (op.invoke (honest vault) env) m = true
  paid : (step (honest vault) (.call env op) m).transfers = (honest vault).paid record.token
    (op.payments record (m.store.interest env record)) ++ m.transfers
  deposits : (step (honest vault) (.call env op) m).world.Keeps
    (step (honest vault) (.call env op) m).store record.token
  yields : ∑ᶠ id, (step (honest vault) (.call env op) m).store.owed env record.token id ≤
    (step (honest vault) (.call env op) m).world.yields record.token
      (step (honest vault) (.call env op) m).store.getStrategies

/-- The escrow is the only one of its token with interest to get, and no strategy's part of it is
more than the principal that the strategy has; and the amounts can be worked out. -/
structure Undisturbed (w : Pools) (s : State) (env : Env) (op : Op) (escrowId : ℕ)
    (record : Escrow) : Prop where
  alone : ∀ id, id ≠ escrowId → s.owed env record.token id = 0
  within : ∀ d ∈ w.parts record.token s.getStrategies record.principal,
    d.2 ≤ w.principal (d.1, record.token)
  computable : Computable w s env record
  split : op = .release escrowId →
    FitsI128 (s.interest env record * record.beneficiaryInterestBps)

lemma Ready.subject (h : Ready env escrowId record op) : op.subject = some (escrowId, true) := by
  cases h <;> rfl

variable (hs : Sound m.store) (hdue : Due m.store env op escrowId record)
  (hbacked : Backed m.world m.store env record.token)
include hs hdue

lemma Due.valid : ValidPortfolio m.store.getStrategies :=
  hs.held.valid (hs.initialized hdue.found hdue.active)

lemma Due.totals_after : Totals (Function.update (m.store.owed env record.token) escrowId 0)
    (∑ᶠ id, m.store.owed env record.token id - m.store.interest env record) := by
  have htotals := (hs.totals_owed env record.token).update escrowId (-m.store.interest env record)
  rw [owed_of_found hdue.found hdue.active, add_neg_cancel, ← sub_eq_add_neg] at htotals
  exact htotals

include hbacked

lemma Due.outcome (h : Settleable m.world m.store env op escrowId record) :
    Tx.succeeds (op.invoke (honest self) env) m = true ∧
    (step (honest self) (.call env op) m).transfers = (honest self).paid record.token
      (op.payments record (m.store.interest env record)) ++ m.transfers ∧
    (step (honest self) (.call env op) m).store.owed env record.token =
      Function.update (m.store.owed env record.token) escrowId 0 ∧
    (step (honest self) (.call env op) m).store.totalPrincipal record.token =
      m.store.totalPrincipal record.token - record.principal ∧
    (step (honest self) (.call env op) m).store.getStrategies = m.store.getStrategies ∧
    SameStrategies (redeemed self m env record).world (step (honest self) (.call env op) m).world := by
  obtain ⟨m', hinvoke, hsame⟩ : ∃ m', op.invoke (honest self) env m = .ok ((), m') ∧
      SameStrategies (redeemed self m env record).world m'.world :=
    h.succeeds hs hdue.found hdue.active hbacked.deposits hdue.normal hdue.ready
  have heffect := op.invoke_effect (honest self).keepsAnywhere hinvoke
  have hstep : step (honest self) (.call env op) m = m' := Tx.commit_ok hinvoke
  rw [hstep]
  obtain ⟨r, settled, party, rate, hsettles, hclosed⟩ :=
    heffect.settled hdue.ready.subject hdue.normal
  obtain rfl : record = r := by
    have hfound := hclosed.found
    rw [hdue.found] at hfound
    exact Option.some.inj hfound
  have hbook := hclosed.book hsettles (State.totalPrincipal_yieldNow _ _ _)
  refine ⟨Tx.succeeds_of_ok hinvoke, hclosed.transfers, hclosed.owed hsettles, ?_, ?_, hsame⟩
  · rw [hbook.totalPrincipal, Function.update_self]
  · obtain ⟨next, event, hstore⟩ := hclosed.store
    rw [hstore]
    rfl

lemma Due.served_iff : Served self m env op escrowId record ↔
    Undisturbed m.world m.store env op escrowId record := by
  have hvalid := hdue.valid hs
  have hp := hs.positive hdue.found
  have hfunded := hs.funded hdue.found hdue.active hbacked.deposits
  have hbalances : 0 < (m.world.balances record.token m.store.getStrategies).sum := by
    rw [sum_balances]
    omega
  have hafter := hdue.totals_after hs
  have hyields : (redeemed self m env record).world.yields record.token m.store.getStrategies = 0 :=
    yields_draws hvalid.distinct
  constructor
  · intro h
    obtain ⟨_, hinvoke⟩ := Tx.succeeds_unit.mp h.succeeds
    have hsettleable := settleable_of_ok hs hdue.found hdue.active hbacked.deposits hdue.normal
      hdue.ready hinvoke
    obtain ⟨-, -, howed, -, hstrategies, hsame⟩ := hdue.outcome hs hbacked hsettleable
    have hleft := h.yields
    rw [howed, hstrategies, hafter.sum, Pools.yields, hsame.accrued, ← Pools.yields, hyields] at hleft
    have hrest : ∀ id, 0 ≤ Function.update (m.store.owed env record.token) escrowId 0 id := by
      intro id
      by_cases hid : id = escrowId
      · simp [hid]
      · rw [Function.update_of_ne hid]
        exact hs.owed_nonneg env record.token id
    have hcovered := hsettleable.payable.covered
    have hgathered := gathered_le m.world record.token m.store.getStrategies record.principal
    rw [hbacked.yields] at hleft
    refine ⟨fun id hid => ?_, ?_, hsettleable.computable, hsettleable.split⟩
    · have hle := hafter.le hrest id
      have hnonneg := hs.owed_nonneg env record.token id
      rw [hbacked.yields, Function.update_of_ne hid] at hle
      push_cast at hleft
      omega
    · rw [← gathered_eq_iff hsettleable.payable.enough]
      push_cast at hleft
      omega
  · intro h
    have halone : ∑ᶠ id, m.store.owed env record.token id = m.store.interest env record := by
      rw [finsum_eq_single _ escrowId h.alone, owed_of_found hdue.found hdue.active]
    have henough : ∀ d ∈ m.world.parts record.token m.store.getStrategies record.principal,
        d.2 ≤ m.world.balance (d.1, record.token) := by
      intro d hd
      have hwithin := h.within d hd
      rw [Pools.balance]
      omega
    have hgathered := (gathered_eq_iff henough).mpr h.within
    have hsettleable : Settleable m.world m.store env op escrowId record := by
      refine ⟨h.computable, ⟨henough, ?_⟩, h.split⟩
      rw [hgathered, ← hbacked.yields, halone]
    obtain ⟨hsucceeds, hpaid, howed, htotal, hstrategies, hsame⟩ :=
      hdue.outcome hs hbacked hsettleable
    refine ⟨hsucceeds, hpaid, ?_, ?_⟩
    · have hdeposits : (redeemed self m env record).world.deposits record.token
          m.store.getStrategies = m.world.deposits record.token m.store.getStrategies -
            record.principal := deposits_draws hvalid.distinct hp.le hbalances h.within
      have hkeeps := hbacked.deposits
      rw [Pools.Keeps] at hkeeps ⊢
      rw [htotal, hstrategies, Pools.deposits, hsame.principal, ← Pools.deposits, hdeposits]
      omega
    · rw [howed, hafter.sum, halone, sub_self]
      positivity

end Service

section Runs

lemma after_sound {W : Type} (d : Deployment W) (world : W) (moves : List (Move W)) :
    Sound (after d world moves).store where
  balanced := (after_accounted d world moves).1.2
  held := after_portfolio d world moves
  indebted := after_indebted d world moves
  shares := after_shares d world moves

/-- The strategies back the escrows whenever one is to be settled. -/
def Backs (m : Machine Pools) (move : Move Pools) : Prop :=
  ∀ env op escrowId record, move = .call env op → Due m.store env op escrowId record →
    Backed m.world m.store env record.token

/-- A settlement that is due is served. -/
def Serves (vault : Address) (m : Machine Pools) (move : Move Pools) : Prop :=
  ∀ env op escrowId record, move = .call env op → Due m.store env op escrowId record →
    Served vault m env op escrowId record

/-- A settlement that is due takes nothing from the others. -/
def Spares (m : Machine Pools) (move : Move Pools) : Prop :=
  ∀ env op escrowId record, move = .call env op → Due m.store env op escrowId record →
    Undisturbed m.world m.store env op escrowId record

/-- Honest strategies that back the escrows whenever one is settled serve all of them in the runs in
which each settlement spares the others, and in no others. -/
theorem settlements_served_iff (self : Address) (world : Pools) (moves : List (Move Pools))
    (hbacks : Along (step (honest self)) Backs ⟨{}, [], world⟩ moves) :
    Along (step (honest self)) (Serves self) ⟨{}, [], world⟩ moves ↔
      Along (step (honest self)) Spares ⟨{}, [], world⟩ moves := by
  have hstep : ∀ m move, Reachable (step (honest self)) ⟨{}, [], world⟩ m → Backs m move →
      (Serves self m move ↔ Spares m move) := by
    rintro m move ⟨before, rfl⟩ hback
    have hs := after_sound (honest self) world before
    constructor <;> intro h env op escrowId record hmove hdue
    · exact (hdue.served_iff hs (hback env op escrowId record hmove hdue)).mp
        (h env op escrowId record hmove hdue)
    · exact (hdue.served_iff hs (hback env op escrowId record hmove hdue)).mpr
        (h env op escrowId record hmove hdue)
  constructor <;> intro h
  · exact along_reachable (fun m move hr hm => (hstep m move hr hm.1).mp hm.2)
      ((along_and _ _ _ _ _).mpr ⟨hbacks, h⟩)
  · exact along_reachable (fun m move hr hm => (hstep m move hr hm.1).mpr hm.2)
      ((along_and _ _ _ _ _).mpr ⟨hbacks, h⟩)

end Runs

section Examples

def matured : Env := { timestamp := 31536000, sequence := 10 }

def oneEscrow : List (Move Pools) :=
  [.call signed (.initialise ⟨1⟩ ⟨7⟩), create 1, .outside (Pools.accrue ⟨7⟩ ⟨9⟩ 100)]

def twoEscrows : List (Move Pools) :=
  [.call signed (.initialise ⟨1⟩ ⟨7⟩), create 1, create 2, .outside (Pools.accrue ⟨7⟩ ⟨9⟩ 200)]

/-- One escrow at two strategies, the first of which yields all of its interest. -/
def uneven : List (Move Pools) :=
  [.call signed (.initialise ⟨1⟩ ⟨7⟩), .call signed (.setStrategies [⟨⟨7⟩, 5000⟩, ⟨⟨8⟩, 5000⟩]),
    create 1, .outside (Pools.accrue ⟨7⟩ ⟨9⟩ 100)]

lemma sum_owed {world : Pools} {moves : List (Move Pools)} (ids : Finset ℕ)
    (hids : ∀ e ∈ logOf (honest self) world moves, e.escrowId ∈ ids) (env : Env) (token : Address) :
    ∑ᶠ id, (after (honest self) world moves).store.owed env token id =
      ∑ id ∈ ids, (after (honest self) world moves).store.owed env token id := by
  apply finsum_eq_sum_of_support_subset
  intro id hid
  have hopened := (after_accounted (honest self) world moves).1.1.opened id
  have hfound : (after (honest self) world moves).store.escrow id ≠ none := by
    intro hnone
    simp [State.owed, hnone] at hid
  obtain ⟨e, he, heq⟩ := List.mem_map.mp (hopened.mp hfound)
  obtain ⟨rfl, -⟩ := Prod.mk.inj heq
  exact hids e he

def Move.settles : Move Pools → Bool
  | .call _ op => (op.subject.map Prod.snd).getD false
  | .outside _ => false

lemma backs_last {world : Pools} {moves : List (Move Pools)} (token : Address)
    (hquiet : ∀ move ∈ moves, move.settles = false) (hop : op.subject = some (escrowId, true))
    (htoken : ((after (honest self) world moves).store.escrow escrowId).map Escrow.token = some token)
    (hbacked : Backed (after (honest self) world moves).world (after (honest self) world moves).store
      env token) :
    Along (step (honest self)) Backs ⟨{}, [], world⟩ (moves ++ [.call env op]) := by
  rw [along_append]
  refine ⟨along_mono (fun m move hmove => ?_) (along_of_mem _ hquiet _), ?_, trivial⟩
  · intro env op id r hcall hdue
    rw [hcall, Move.settles, hdue.ready.subject] at hmove
    cases hmove
  · intro env op id r hcall hdue
    obtain ⟨rfl, rfl⟩ := Move.call.inj hcall
    have hid := hdue.ready.subject
    rw [hop] at hid
    obtain ⟨rfl, -⟩ := Prod.mk.inj (Option.some.inj hid)
    have hfound : (after (honest self) world moves).store.escrow escrowId = some r := hdue.found
    rw [hfound] at htoken
    obtain rfl := Option.some.inj htoken
    exact hbacked

/-- A settlement that leaves the others less than they have to get does not serve them. -/
lemma not_serves {world : Pools} {moves : List (Move Pools)} (ids : Finset ℕ)
    (hdue : Due (after (honest self) world moves).store env op escrowId record)
    (hids : ∀ e ∈ logOf (honest self) world (moves ++ [.call env op]), e.escrowId ∈ ids)
    (hless : (after (honest self) world (moves ++ [.call env op])).world.yields record.token
        (after (honest self) world (moves ++ [.call env op])).store.getStrategies <
      ∑ id ∈ ids, (after (honest self) world (moves ++ [.call env op])).store.owed env record.token
        id) :
    ¬ Along (step (honest self)) (Serves self) ⟨{}, [], world⟩ (moves ++ [.call env op]) := by
  intro h
  have hlast : after (honest self) world (moves ++ [.call env op]) =
      step (honest self) (.call env op) (after (honest self) world moves) := by simp [after, run]
  rw [← sum_owed ids hids, hlast] at hless
  have hserved := ((along_append _ _ _ _ _).mp h).2.1 env op escrowId record rfl hdue
  exact hserved.yields.not_gt hless

theorem settlements_served_iff_once :
    Along (step (honest ⟨0⟩)) (Serves ⟨0⟩) ⟨{}, [], tenth⟩
        (oneEscrow ++ [.call matured (.release 1)]) ↔
      Along (step (honest ⟨0⟩)) Spares ⟨{}, [], tenth⟩
        (oneEscrow ++ [.call matured (.release 1)]) := by
  apply settlements_served_iff
  apply backs_last ⟨9⟩ (by decide) rfl (by decide +kernel)
  refine ⟨by decide +kernel, ?_⟩
  rw [sum_owed {1} (by decide +kernel)]
  decide +kernel

/-- The strategies back two escrows, either of which could be released. Once the one is the other
cannot be: the yield is all in the vault, or paid to the first. Nor can an escrow be released at all
if the strategy that has all of its interest is to pay its part out of it. -/
theorem settlement_starves :
    (Along (step (honest ⟨0⟩)) Backs ⟨{}, [], tenth⟩
        (twoEscrows ++ [.call matured (.release 1)]) ∧
      ¬ Along (step (honest ⟨0⟩)) (Serves ⟨0⟩) ⟨{}, [], tenth⟩
        (twoEscrows ++ [.call matured (.release 1)]) ∧
      Tx.succeeds ((Op.release 2).invoke (honest ⟨0⟩) matured)
        (after (honest ⟨0⟩) tenth twoEscrows) = true ∧
      Tx.succeeds ((Op.release 2).invoke (honest ⟨0⟩) matured)
        (after (honest ⟨0⟩) tenth (twoEscrows ++ [.call matured (.release 1)])) = false) ∧
    Backed (after (honest ⟨0⟩) tenth uneven).world (after (honest ⟨0⟩) tenth uneven).store matured
      ⟨9⟩ ∧
    Tx.succeeds ((Op.release 1).invoke (honest ⟨0⟩) matured) (after (honest ⟨0⟩) tenth uneven) =
      false := by
  have htwo : Backed (after (honest ⟨0⟩) tenth twoEscrows).world
      (after (honest ⟨0⟩) tenth twoEscrows).store matured ⟨9⟩ := by
    refine ⟨by decide +kernel, ?_⟩
    rw [sum_owed {1, 2} (by decide +kernel)]
    decide +kernel
  refine ⟨⟨backs_last ⟨9⟩ (by decide) rfl (by decide +kernel) htwo, ?_, by decide +kernel,
    by decide +kernel⟩, ⟨by decide +kernel, ?_⟩, by decide +kernel⟩
  · have hdue : Due (after (honest ⟨0⟩) tenth twoEscrows).store matured (.release 1) 1
        ⟨⟨2⟩, ⟨3⟩, ⟨9⟩, 1000, 10, 5000, 0, false, false⟩ :=
      ⟨by decide +kernel, by decide +kernel, rfl, .release (by decide)⟩
    exact not_serves {1, 2} hdue (by decide +kernel) (by decide +kernel)
  · rw [sum_owed {1} (by decide +kernel)]
    decide +kernel

end Examples

end StellarTags.YieldEscrow
