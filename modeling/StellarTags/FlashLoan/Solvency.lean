import StellarTags.FlashLoan.Operations

/-! The provider's reserves: no callback takes from them, and every loan adds its fee. -/

namespace StellarTags.FlashLoan

open Library.Transactions Library.Integers Library.Runs Library.Tokens Soroban

variable {d : Host} {env : Env} {s t m : State} {u : Unit} {amount reserves fee n : ℤ}
  {token : Address}

section Fees

lemma checked_ok {k : ℤ} : checked n s = .ok (k, t) ↔ FitsI128 n ∧ k = n ∧ t = s := by
  simp [checked]

@[simp] lemma checked_bind_ok {α : Type} {r : α} {k : ℤ → Tx State Error α} :
    (checked n >>= k) s = .ok (r, t) ↔ FitsI128 n ∧ k n s = .ok (r, t) :=
  Tx.bind_iff fun _ _ => checked_ok

/-- How much the rate rises over its base, below the kink and above it. -/
def feeSlope (utilizationBps : ℤ) : ℤ × ℤ × ℤ :=
  if utilizationBps ≤ kinkUtilizationBps then
    (baseFeeBps, baseFeeBps * utilizationBps, kinkUtilizationBps)
  else
    (kinkFeeBps, (maxFeeBps - kinkFeeBps) * (utilizationBps - kinkUtilizationBps),
      bpsDivisor - kinkUtilizationBps)

def feeBpsAt (utilizationBps : ℤ) : ℤ :=
  let (base, rise, run) := feeSlope utilizationBps
  base + (rise + (run - 1)).tdiv run

def SlopeFits (utilizationBps : ℤ) : Prop :=
  let (_, rise, run) := feeSlope utilizationBps
  FitsI128 rise ∧ FitsI128 (rise + (run - 1))

lemma utilizationFeeBps_ok {utilizationBps : ℤ} :
    utilizationFeeBps utilizationBps s = .ok (n, t) ↔
      SlopeFits utilizationBps ∧ n = feeBpsAt utilizationBps ∧ t = s := by
  by_cases h : utilizationBps ≤ kinkUtilizationBps
  · simp [utilizationFeeBps, feeBpsAt, SlopeFits, feeSlope, h, ceilDiv, and_assoc]
  · simp [utilizationFeeBps, feeBpsAt, SlopeFits, feeSlope, h, ceilDiv, and_assoc]

def utilization (amount reserves : ℤ) : ℤ := (amount * bpsDivisor + (reserves - 1)).tdiv reserves

def rate (amount reserves : ℤ) : ℤ := min (feeBpsAt (utilization amount reserves)) maxFeeBps

def quote (amount reserves : ℤ) : ℤ :=
  (amount * rate amount reserves + (bpsDivisor - 1)).tdiv bpsDivisor

/-- The reserves cover the amount, and the fee can be worked out. -/
structure Quotable (amount reserves : ℤ) : Prop where
  positive : 0 < amount
  covered : amount ≤ reserves
  fits : FitsI128 (amount * bpsDivisor) ∧ FitsI128 (amount * bpsDivisor + (reserves - 1))
  slope : SlopeFits (utilization amount reserves)
  fee : FitsI128 (amount * rate amount reserves) ∧
    FitsI128 (amount * rate amount reserves + (bpsDivisor - 1))

lemma calculateAmountFee_ok {feeBps : ℤ} : calculateAmountFee amount feeBps s = .ok (fee, t) ↔
    0 < amount ∧ (FitsI128 (amount * feeBps) ∧ FitsI128 (amount * feeBps + (bpsDivisor - 1))) ∧
      fee = (amount * feeBps + (bpsDivisor - 1)).tdiv bpsDivisor ∧ t = s := by
  simp [calculateAmountFee, and_assoc]

lemma calculateFee_ok : calculateFee amount reserves s = .ok (fee, t) ↔
    Quotable amount reserves ∧ fee = quote amount reserves ∧ t = s := by
  rw [calculateFee, Tx.reject_bind_ok, Tx.reject_bind_ok, checked_bind_ok, checked_bind_ok,
    Tx.bind_iff fun _ _ => utilizationFeeBps_ok, calculateAmountFee_ok]
  constructor
  · rintro ⟨ha, hr, hp, hq, hslope, -, hfee, rfl, rfl⟩
    push Not at ha hr
    exact ⟨⟨ha, hr.2, ⟨hp, hq⟩, hslope, hfee⟩, rfl, rfl⟩
  · rintro ⟨⟨ha, hr, ⟨hp, hq⟩, hslope, hfee⟩, rfl, rfl⟩
    have hreserves : ¬ (reserves ≤ 0 ∨ reserves < amount) := by omega
    exact ⟨not_le.mpr ha, hreserves, hp, hq, hslope, ha, hfee, rfl, rfl⟩

lemma rate_pos (h : Quotable amount reserves) : 0 < rate amount reserves := by
  have hreserves : 0 < reserves := h.positive.trans_le h.covered
  have hutilization : 0 ≤ utilization amount reserves := by
    apply Int.tdiv_nonneg
    · have hamount := h.positive
      simp only [bpsDivisor]
      omega
    · exact hreserves.le
  have hslope : 0 < feeBpsAt (utilization amount reserves) := by
    rw [feeBpsAt, feeSlope]
    split_ifs with hkink
    · have hrise : 0 ≤ (baseFeeBps * utilization amount reserves + (kinkUtilizationBps - 1)).tdiv
          kinkUtilizationBps := by
        apply Int.tdiv_nonneg
        · simp only [baseFeeBps, kinkUtilizationBps]
          omega
        · decide
      simp only [baseFeeBps] at hrise ⊢
      omega
    · have hrise : 0 ≤ ((maxFeeBps - kinkFeeBps) * (utilization amount reserves - kinkUtilizationBps) +
          (bpsDivisor - kinkUtilizationBps - 1)).tdiv (bpsDivisor - kinkUtilizationBps) := by
        apply Int.tdiv_nonneg
        · simp only [maxFeeBps, kinkFeeBps, kinkUtilizationBps, bpsDivisor] at hkink ⊢
          omega
        · decide
      simp only [kinkFeeBps] at hrise ⊢
      omega
  exact lt_min hslope (by decide)

lemma quote_pos (h : Quotable amount reserves) : 0 < quote amount reserves := by
  have hproduct : 0 < amount * rate amount reserves := mul_pos h.positive (rate_pos h)
  rw [quote, Int.tdiv_eq_ediv_of_nonneg (by simp only [bpsDivisor]; omega)]
  simp only [bpsDivisor]
  omega

end Fees

section Loans

@[simp] lemma reserves_setLock (lock : Option Bool) :
    (s.setLock lock).reserves d token = s.reserves d token := rfl

variable {request : Request} {onFlashLoan : ℤ → Tx State Error Unit} {v : State}

def State.lent (s : State) (tokens : Ledger Address Address) : State :=
  { s with reentrancyLock := some true, tokens }

def State.closed (s : State) (request : Request) (fee : ℤ) : State :=
  { s with
    reentrancyLock := none
    history := ⟨request.borrower, request.token, request.initiator, request.amount, fee⟩ ::
      s.history }

def State.feeFor (s : State) (d : Host) (request : Request) : ℤ :=
  quote request.amount (s.reserves d request.token)

/-- The loan's checks pass, and its callback starts in `m`. -/
structure Opens (d : Host) (env : Env) (request : Request) (s m : State) : Prop where
  unlocked : s.reentrancyLock.getD false = false
  auth : env.authorises d request.initiator = true
  quotable : Quotable request.amount (s.reserves d request.token)
  fits : FitsI128 (s.reserves d request.token + s.feeFor d request)
  accepts : env.accepts = true
  moved : ∃ tokens, s.tokens.apply
    (.transfer request.token d.self request.borrower request.amount) = some tokens ∧
      m = s.lent tokens
  borrower : request.borrower ≠ d.self

lemma flashLoan_locked (h : s.reentrancyLock = some true) :
    flashLoan d env request onFlashLoan s = .error (.err .reentrancyGuard) := by
  rw [flashLoan, Tx.read_bind, Tx.reject_bind, h]
  rfl

lemma transferOut_ok {target : Address} : transferOut d env token target n s = .ok (u, t) ↔
    env.accepts = true ∧ ∃ tokens, s.tokens.apply (.transfer token d.self target n) = some tokens ∧
      t = { s with tokens } := by
  rw [transferOut, Tx.read_bind]
  cases s.tokens.apply (.transfer token d.self target n) with
  | none => simp
  | some tokens => simp

def collect (d : Host) (request : Request) (requiredBalance fee : ℤ) : Tx State Error ℤ := do
  let balance ← Tx.read fun s => s.reserves d request.token
  Tx.reject (balance < requiredBalance) .repaymentTooLow
  Tx.update fun s => s.closed request fee
  pure fee

lemma flashLoan_of_opens (h : Opens d env request s m) :
    flashLoan d env request onFlashLoan s = (onFlashLoan (s.feeFor d request) >>= fun _ =>
      collect d request (s.reserves d request.token + s.feeFor d request) (s.feeFor d request)) m := by
  obtain ⟨tokens, hmoved, rfl⟩ := h.moved
  have hlocked : ¬ s.reentrancyLock.getD false = true := by simp [h.unlocked]
  have hcovered := h.quotable.covered.not_gt
  have hfee : calculateFee request.amount (s.reserves d request.token)
      (s.setLock (some true)) =
        .ok (s.feeFor d request, (s.setLock (some true))) :=
    calculateFee_ok.mpr ⟨h.quotable, rfl, rfl⟩
  have hchecked : checked (s.reserves d request.token + s.feeFor d request)
      (s.setLock (some true)) =
        .ok (s.reserves d request.token + s.feeFor d request,
          (s.setLock (some true))) := checked_ok.mpr ⟨h.fits, rfl, rfl⟩
  have hout : transferOut d env request.token request.borrower request.amount
      (s.setLock (some true)) = .ok ((), s.lent tokens) :=
    transferOut_ok.mpr ⟨h.accepts, tokens, hmoved, rfl⟩
  rw [flashLoan, Tx.read_bind, Tx.reject_bind, if_neg hlocked, Tx.demand_bind, if_pos h.auth,
    Tx.update_bind, Tx.read_bind, reserves_setLock, Tx.reject_bind, if_neg hcovered,
    Tx.bind_of_ok hfee, Tx.bind_of_ok hchecked, Tx.bind_of_ok hout, Tx.demand_bind,
    if_pos h.borrower]
  rfl

lemma opens_of_ok (h : flashLoan d env request onFlashLoan s = .ok (fee, t)) :
    ∃ m, Opens d env request s m := by
  simp only [flashLoan, Tx.read_bind, Tx.reject_bind_ok, Tx.demand_bind_ok, Tx.update_bind,
    Tx.bind_iff fun _ _ => calculateFee_ok, checked_bind_ok] at h
  obtain ⟨hlocked, hauth, -, hquotable, hfits, h⟩ := h
  obtain ⟨_, m, hout, h⟩ := Tx.bind_ok.mp h
  obtain ⟨haccepts, tokens, hmoved, rfl⟩ := transferOut_ok.mp hout
  exact ⟨_, by simpa using hlocked, hauth, hquotable, hfits, haccepts, ⟨tokens, hmoved, rfl⟩,
    (Tx.demand_bind_ok.mp h).1⟩

lemma flashLoan_ok : flashLoan d env request onFlashLoan s = .ok (fee, t) ↔
    ∃ m v, Opens d env request s m ∧ fee = s.feeFor d request ∧ onFlashLoan fee m = .ok ((), v) ∧
      s.reserves d request.token + fee ≤ v.reserves d request.token ∧ t = v.closed request fee := by
  constructor
  · intro h
    obtain ⟨m, hopens⟩ := opens_of_ok h
    rw [flashLoan_of_opens hopens, Tx.bind_unit_ok] at h
    obtain ⟨v, hcallback, h⟩ := h
    simp only [collect, Tx.read_bind, Tx.reject_bind_ok, Tx.update_bind, Tx.pure_ok, not_lt] at h
    obtain ⟨hrepaid, rfl, rfl⟩ := h
    exact ⟨m, v, hopens, rfl, hcallback, hrepaid, rfl⟩
  · rintro ⟨m, v, hopens, rfl, hcallback, hrepaid, rfl⟩
    rw [flashLoan_of_opens hopens, Tx.bind_of_ok hcallback, collect, Tx.read_bind, Tx.reject_bind,
      if_neg hrepaid.not_gt]
    rfl

lemma flashLoan_underpaid (hopens : Opens d env request s m)
    (hcallback : onFlashLoan (s.feeFor d request) m = .ok ((), v))
    (h : v.reserves d request.token < s.reserves d request.token + s.feeFor d request) :
    flashLoan d env request onFlashLoan s = .error (.err .repaymentTooLow) := by
  rw [flashLoan_of_opens hopens, Tx.bind_of_ok hcallback, collect, Tx.read_bind, Tx.reject_bind,
    if_pos h]

end Loans

/-- All that a callback can do to the provider. -/
structure Guarded (d : Host) (s t : State) : Prop where
  lock : t.reentrancyLock = s.reentrancyLock
  history : t.history = s.history
  unlent : s.tokens.Unlent d.self → t.tokens.Unlent d.self
  kept : s.tokens.Unlent d.self → ∀ token, s.reserves d token ≤ t.reserves d token

namespace Guarded

variable {v : State}

lemma refl (s : State) : Guarded d s s := ⟨rfl, rfl, id, fun _ _ => le_rfl⟩

lemma trans (h : Guarded d s t) (k : Guarded d t v) : Guarded d s v where
  lock := k.lock.trans h.lock
  history := k.history.trans h.history
  unlent hs := k.unlent (h.unlent hs)
  kept hs token := (h.kept hs token).trans (k.kept (h.unlent hs) token)

lemma callToken {call : TokenCall Address Address} {accepted : Bool}
    (h : callToken d call s = .ok (accepted, t)) : Guarded d s t := by
  rw [FlashLoan.callToken, Tx.read_bind] at h
  split_ifs at h with hcall
  · obtain ⟨-, rfl⟩ := Tx.pure_ok.mp h
    exact refl _
  · cases happly : s.tokens.apply call with
    | none =>
      rw [happly] at h
      obtain ⟨-, rfl⟩ := Tx.pure_ok.mp h
      exact refl _
    | some tokens =>
      simp only [happly, Tx.update_bind, Tx.pure_ok] at h
      obtain ⟨-, rfl⟩ := h
      have hgiver := TokenCall.giver_ne hcall
      exact ⟨rfl, rfl, fun hs => Ledger.apply_unlent hs hgiver happly,
        fun hs token => Ledger.apply_balance hs hgiver happly token⟩

/-- While the lock is held, the provider refuses every loan that a callback asks for. -/
lemma perform {callback : Callback} (hlock : s.reentrancyLock = some true)
    (h : perform d env callback s = .ok (u, t)) : Guarded d s t := by
  induction callback generalizing s with
  | done =>
    obtain ⟨-, rfl⟩ := Tx.pure_ok.mp h
    exact refl _
  | trap => cases h
  | observe next ih => exact ih s hlock h
  | token call next ih =>
    obtain ⟨accepted, v, hcall, h⟩ := Tx.bind_ok.mp h
    have hguarded := Guarded.callToken hcall
    exact hguarded.trans (ih accepted (hguarded.lock.trans hlock) h)
  | loan request callback next _ ih =>
    have hrefused : tryInvokeContract (flashLoan d env request fun fee =>
        FlashLoan.perform d env (callback fee)) s = .ok (none, s) := by
      rw [tryInvokeContract, flashLoan_locked hlock]
    rw [FlashLoan.perform, Tx.bind_of_ok hrefused] at h
    exact ih none hlock h

end Guarded

section Runs

/-- Between calls the lock is free, and the provider has let nobody spend its reserves. -/
structure Ready (d : Host) (s : State) : Prop where
  unlocked : s.reentrancyLock = none
  unlent : s.tokens.Unlent d.self

def State.fees (s : State) (token : Address) : ℤ :=
  ((s.history.filter fun loan => loan.token = token).map Event.fee).sum

/-- What the provider has grows by what it was paid in fees, or more. -/
structure Grows (d : Host) (s t : State) : Prop where
  ready : Ready d t
  reserves : ∀ token, s.reserves d token + t.fees token ≤ t.reserves d token + s.fees token
  kept : ∀ token, s.reserves d token ≤ t.reserves d token

lemma Grows.refl (h : Ready d s) : Grows d s s := ⟨h, fun _ => le_rfl, fun _ => le_rfl⟩

variable {request : Request} {callback : ℤ → Callback} {v : State} {call : Call} {op : Op}

lemma reserves_lent {tokens : Ledger Address Address}
    (h : s.tokens.apply (.transfer request.token d.self request.borrower request.amount) =
      some tokens) (hne : token ≠ request.token) :
    (s.lent tokens).reserves d token = s.reserves d token := by
  have hflow := Ledger.apply_flow h token d.self
  simpa [TokenCall.flow, hne, State.reserves, State.lent] using hflow

lemma Opens.performed (hopens : Opens d env request s m) (hs : Ready d s)
    (h : perform d env (callback fee) m = .ok (u, v)) :
    v.tokens.Unlent d.self ∧ v.history = s.history ∧
      ∀ token, token ≠ request.token → s.reserves d token ≤ v.reserves d token := by
  obtain ⟨tokens, hmoved, rfl⟩ := hopens.moved
  have hguarded := Guarded.perform rfl h
  have hunlent := Ledger.apply_transfer_unlent hs.unlent (by trivial) hmoved
  refine ⟨hguarded.unlent hunlent, hguarded.history, fun token hne => ?_⟩
  rw [← reserves_lent hmoved hne]
  exact hguarded.kept hunlent token

lemma fees_closed : (v.closed request fee).fees token =
    (if token = request.token then fee else 0) + v.fees token := by
  by_cases h : token = request.token
  · simp [State.fees, State.closed, h]
  · simp [State.fees, State.closed, h, Ne.symm h]

lemma flashLoan_grows (hs : Ready d s)
    (h : flashLoan d env request (fun fee => perform d env (callback fee)) s = .ok (fee, t)) :
    Grows d s t := by
  obtain ⟨m, v, hopens, rfl, hcallback, hrepaid, rfl⟩ := flashLoan_ok.mp h
  obtain ⟨hunlent, hhistory, hothers⟩ := hopens.performed hs hcallback
  have hfee : 0 < s.feeFor d request := quote_pos hopens.quotable
  have hreserves : ∀ token, s.reserves d token +
      (if token = request.token then s.feeFor d request else 0) ≤ v.reserves d token := by
    intro token
    split_ifs with htoken
    · rw [htoken]
      exact hrepaid
    · rw [add_zero]
      exact hothers token htoken
  have hfees : ∀ token, v.fees token = s.fees token := fun token => by rw [State.fees, hhistory]; rfl
  refine ⟨⟨rfl, hunlent⟩, fun token => ?_, fun token => le_trans ?_ (hreserves token)⟩
  · rw [fees_closed, hfees, ← add_assoc]
    exact Int.add_le_add_right (hreserves token) _
  · split_ifs <;> omega

lemma Op.invoke_grows (hs : Ready d s) (h : op.invoke d env s = .ok (u, t)) : Grows d s t := by
  cases op with
  | getFlashLoanFee amount token =>
    obtain ⟨fee, h⟩ := Tx.void_ok.mp h
    obtain ⟨-, -, rfl⟩ := calculateFee_ok.mp h
    exact .refl hs
  | flashFee amount =>
    obtain ⟨fee, h⟩ := Tx.void_ok.mp h
    obtain ⟨-, -, -, rfl⟩ := calculateAmountFee_ok.mp h
    exact .refl hs
  | flashLoan request callback =>
    obtain ⟨fee, h⟩ := Tx.void_ok.mp h
    exact flashLoan_grows hs h
  | outside call =>
    simp only [Op.invoke, Tx.update_ok] at h
    subst h
    have hkept := Ledger.others_balance hs.unlent [call]
    exact ⟨⟨hs.unlocked, Ledger.others_unlent hs.unlent [call]⟩,
      fun token => Int.add_le_add_right (hkept token) _, hkept⟩

lemma step_grows (call : Call) (hs : Ready d s) : Grows d s (step d call s) := by
  rcases Tx.commit_cases (call.op.invoke d call.env) s with h | ⟨_, h⟩
  · rw [step, h]
    exact .refl hs
  · exact call.op.invoke_grows hs h

/-- What one call does, whatever its borrower's callback is. -/
structure Solvent (d : Host) (s : State) (call : Call) : Prop where
  kept : ∀ token, s.reserves d token ≤ (step d call s).reserves d token
  repaid : ∀ request callback fee t, call.op = .flashLoan request callback →
    flashLoan d call.env request (fun fee => perform d call.env (callback fee)) s = .ok (fee, t) →
      getFlashLoanFee d request.amount request.token s = .ok (fee, s) ∧ 0 < fee ∧
      s.reserves d request.token + fee ≤ t.reserves d request.token
  underpaid : ∀ request callback m v, call.op = .flashLoan request callback →
    Opens d call.env request s m →
    perform d call.env (callback (s.feeFor d request)) m = .ok ((), v) →
    v.reserves d request.token < s.reserves d request.token + s.feeFor d request →
      flashLoan d call.env request (fun fee => perform d call.env (callback fee)) s =
        .error (.err .repaymentTooLow) ∧ step d call s = s
  failed : Tx.succeeds (call.op.invoke d call.env) s = false → step d call s = s
  unlocked : (step d call s).reentrancyLock = none

lemma step_solvent (call : Call) (hs : Ready d s) : Solvent d s call where
  kept := (step_grows call hs).kept
  repaid request callback fee t _ h := by
    obtain ⟨m, v, hopens, rfl, hcallback, hrepaid, rfl⟩ := flashLoan_ok.mp h
    exact ⟨calculateFee_ok.mpr ⟨hopens.quotable, rfl, rfl⟩, quote_pos hopens.quotable, hrepaid⟩
  underpaid request callback m v hop hopens hcallback hless := by
    have hfails : flashLoan d call.env request (fun fee => perform d call.env (callback fee)) s =
        .error (.err .repaymentTooLow) := flashLoan_underpaid hopens hcallback hless
    refine ⟨hfails, ?_⟩
    rw [step, hop, Op.invoke, Tx.commit, Tx.void, Tx.bind_of_error hfails]
  failed h := Tx.commit_of_fails h
  unlocked := (step_grows call hs).ready.unlocked

/-- However calls, loans and callbacks follow one another, no reserve falls, each loan adds its fee
to what it borrowed from, and the lock is free again. -/
theorem flash_loans_solvent (d : Host) (tokens : Ledger Address Address)
    (hl : tokens.Unlent d.self) (calls : List Call) :
    Along (step d) (Solvent d) (State.fresh tokens) calls ∧
      ∀ token, tokens.balance token d.self + (after d tokens calls).fees token ≤
        (after d tokens calls).reserves d token := by
  have hfresh : Ready d (State.fresh tokens) := ⟨rfl, hl⟩
  have hcalls : Along (step d) (fun _ _ => True) (State.fresh tokens) calls :=
    along_of_forall (step d) (fun _ _ => trivial) _ _
  constructor
  · exact along_invariant (fun s call hs _ => (step_grows call hs).ready)
      (fun s call hs _ => step_solvent call hs) hfresh hcalls
  · have hgrown : Ready d (after d tokens calls) ∧ ∀ token, tokens.balance token d.self +
        (after d tokens calls).fees token ≤ (after d tokens calls).reserves d token := by
      refine run_invariant (I := fun s => Ready d s ∧ ∀ token,
        tokens.balance token d.self + s.fees token ≤ s.reserves d token)
        (fun s call hs _ => ?_) ⟨hfresh, fun token => ?_⟩ hcalls
      · have hgrows := step_grows call hs.1
        refine ⟨hgrows.ready, fun token => ?_⟩
        have hbefore := hs.2 token
        have hstep := hgrows.reserves token
        omega
      · simp [State.fees, State.fresh, State.reserves]
    exact hgrown.2

section Examples

def emptyTokens : Ledger Address Address := ⟨fun _ _ => 0, fun _ _ _ => 0⟩

/-- The borrower `⟨2⟩` asks for a second loan, does not get it, and pays the first one back. -/
def repay (fee : ℤ) : Callback :=
  .loan ⟨⟨1⟩, ⟨2⟩, ⟨9⟩, ⟨1, fitsI128_one⟩⟩ (fun _ => .done) fun granted =>
    .token (.transfer ⟨9⟩ ⟨2⟩ ⟨0⟩ (500 + fee)) fun _ => if granted.isNone then .done else .trap

/-- Then a loan that is paid back without its fee. -/
def borrowed : List Call :=
  [⟨{}, .outside (.mint ⟨9⟩ ⟨0⟩ 1000)⟩, ⟨{}, .outside (.mint ⟨9⟩ ⟨2⟩ 10)⟩,
    ⟨{ auth := fun _ => true, accepts := true },
      .flashLoan ⟨⟨1⟩, ⟨2⟩, ⟨9⟩, ⟨500, by decide⟩⟩ repay⟩,
    ⟨{ auth := fun _ => true, accepts := true },
      .flashLoan ⟨⟨1⟩, ⟨2⟩, ⟨9⟩, ⟨500, by decide⟩⟩ fun _ => repay 0⟩]

example : (after Host.sample emptyTokens borrowed).history = [⟨⟨2⟩, ⟨9⟩, ⟨1⟩, 500, 1⟩] := by
  decide +kernel

theorem flash_loans_solvent_borrowed :
    Along (step Host.sample) (Solvent Host.sample) (State.fresh emptyTokens) borrowed ∧
      ∀ token, emptyTokens.balance token ⟨0⟩ + (after Host.sample emptyTokens borrowed).fees token ≤
        (after Host.sample emptyTokens borrowed).reserves Host.sample token :=
  flash_loans_solvent Host.sample emptyTokens (fun _ _ => le_rfl) borrowed

end Examples

end Runs

end StellarTags.FlashLoan
