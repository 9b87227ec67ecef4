import StellarTags.Delegation.System

/-! What a session key's allowance bounds, and what it does not. -/

namespace StellarTags.Delegation

open Library.Transactions Library.Integers Library.Runs Library.Tokens Soroban
open Proxy (Func SessionAllowance sessionSpends chargeIfSession spent Covers)

section Arguments

variable {d : Deployment} {func : Func} {args items : List Val} {op : Router.Op} {v : Val}

lemma toPayment_transfer {payment : Router.Payment} (hv : toPayment v = some payment) :
    Proxy.Val.toPayment v = some ⟨payment.sender, payment.recipient, payment.amount⟩ := by
  unfold toPayment at hv
  split at hv
  · obtain rfl := Option.some.inj hv
    rfl
  · cases hv

lemma toSwapPayment_transfer {swap : Router.SwapPayment} (hv : toSwapPayment v = some swap) :
    Proxy.Val.toSwapPayment v = some ⟨swap.sender, swap.recipient, swap.amountIn⟩ := by
  unfold toSwapPayment at hv
  split at hv
  · obtain rfl := Option.some.inj hv
    rfl
  · cases hv

lemma mapM_transfers {α : Type} {decode : Val → Option α} {read : Val → Option Proxy.Transfer}
    {transfer : α → Proxy.Transfer}
    (h : ∀ v a, decode v = some a → read v = some (transfer a)) {as : List α}
    (ha : items.mapM decode = some as) : items.mapM read = some (as.map transfer) := by
  induction items generalizing as with
  | nil =>
    obtain rfl : [] = as := by simpa using ha
    rfl
  | cons v items ih =>
    simp only [List.mapM_cons, Option.bind_eq_bind, Option.bind_eq_some_iff, Option.pure_def,
      Option.some.injEq] at ha ⊢
    obtain ⟨a, hv, rest, hrest, rfl⟩ := ha
    exact ⟨_, h v a hv, _, ih hrest, rfl⟩

lemma vecArg_transfers {α : Type} {decode : Val → Option α} {read : Val → Option Proxy.Transfer}
    {transfer : α → Proxy.Transfer}
    (h : ∀ v a, decode v = some a → read v = some (transfer a)) {as : List α}
    (ha : toVec decode v = some as) : Proxy.vecArg read [v] = some (as.map transfer) := by
  unfold toVec at ha
  split at ha
  · exact mapM_transfers h ha
  · cases ha

/-- The proxy reads off the arguments what the router's entry point is charged with. -/
lemma decode_spends (hd : d.decode func args = some op) :
    sessionSpends func args = some op.spends := by
  unfold Deployment.decode at hd
  split at hd
  · obtain rfl := Option.some.inj hd
    rfl
  · obtain ⟨payments, hp, he⟩ := Option.bind_eq_some_iff.mp hd
    obtain rfl := Option.some.inj he
    simp only [sessionSpends, vecArg_transfers (fun _ _ => toPayment_transfer) hp]
    simp [Router.Op.spends, Router.RoutingOp.spends, Router.Payment.spend, Function.comp_def]
  · obtain ⟨signerPubkey, -, hd⟩ := Option.bind_eq_some_iff.mp hd
    obtain ⟨signature, -, he⟩ := Option.bind_eq_some_iff.mp hd
    obtain rfl := Option.some.inj he
    rfl
  · obtain ⟨quote, -, hd⟩ := Option.bind_eq_some_iff.mp hd
    obtain ⟨makerPubkey, -, hd⟩ := Option.bind_eq_some_iff.mp hd
    obtain ⟨signature, -, he⟩ := Option.bind_eq_some_iff.mp hd
    obtain rfl := Option.some.inj he
    rfl
  · obtain ⟨path, -, he⟩ := Option.bind_eq_some_iff.mp hd
    obtain rfl := Option.some.inj he
    rfl
  · obtain ⟨swap, hs, he⟩ := Option.bind_eq_some_iff.mp hd
    obtain rfl := Option.some.inj he
    simp [sessionSpends, toSwapPayment_transfer hs, Router.Op.spends, Router.RoutingOp.spends,
      Router.SwapPayment.spend]
  · obtain ⟨swaps, hs, he⟩ := Option.bind_eq_some_iff.mp hd
    obtain rfl := Option.some.inj he
    simp only [sessionSpends, vecArg_transfers (fun _ _ => toSwapPayment_transfer) hs]
    simp [Router.Op.spends, Router.RoutingOp.spends, Router.SwapPayment.spend, Function.comp_def]
  · obtain ⟨splits, -, he⟩ := Option.bind_eq_some_iff.mp hd
    obtain rfl := Option.some.inj he
    rfl
  · obtain ⟨path, -, hd⟩ := Option.bind_eq_some_iff.mp hd
    obtain ⟨floors, -, he⟩ := Option.bind_eq_some_iff.mp hd
    obtain rfl := Option.some.inj he
    rfl
  · obtain rfl := Option.some.inj hd
    rfl
  · obtain ⟨other, -, rfl⟩ := Option.map_eq_some_iff.mp hd
    cases other <;> rfl
  · cases hd

end Arguments

section Charges

variable {pd : Proxy.Deployment} {env : Proxy.Env} {s t : Proxy.State} {u : Unit} {op : Proxy.Op}
  {call : Func × List Val} {spends : List (Address × ℤ)} {account : Address}
  {allowance : SessionAllowance}

lemma chargeEach_session (ha : s.session account = some allowance)
    (hr : Tx.forEach (chargeIfSession env) spends s = .ok (u, t)) : t.session account =
      some { allowance with remaining := allowance.remaining - spent account spends } := by
  induction spends generalizing s allowance with
  | nil =>
    rw [Tx.forEach_nil.mp hr, ha, Proxy.spent_nil, sub_zero]
  | cons spend spends ih =>
    obtain ⟨v, hv, hr⟩ := Tx.forEach_cons.mp hr
    rw [Proxy.spent_cons]
    cases hs : s.session spend.1 with
    | none =>
      simp only [chargeIfSession, Tx.read_bind, hs, Tx.pure_ok, true_and] at hv
      have hne : spend.1 ≠ account := by
        rintro rfl
        rw [hs] at ha
        cases ha
      rw [if_neg hne, zero_add]
      exact ih (hv ▸ ha) hr
    | some other =>
      simp only [chargeIfSession, Tx.read_bind, hs, Tx.reject_bind_ok, Tx.update_ok] at hv
      obtain ⟨-, -, rfl⟩ := hv
      by_cases hk : spend.1 = account
      · obtain rfl : other = allowance := by
          rw [hk, ha] at hs
          exact (Option.some.inj hs).symm
        have hcharged : (s.setSession spend.1
            { other with remaining := other.remaining - spend.2 }).session account =
              some { other with remaining := other.remaining - spend.2 } := by
          rw [← hk]
          exact Function.update_self ..
        rw [ih hcharged hr, if_pos hk, sub_sub]
      · have hkept : (s.setSession spend.1
            { other with remaining := other.remaining - spend.2 }).session account =
              some allowance := (Function.update_of_ne (Ne.symm hk) _ _).trans ha
        rw [ih hkept hr, if_neg hk, zero_add]

lemma forwarded_ok (hf : forwarded op = some call) (hr : op.invoke pd env s = .ok (u, t)) :
    ∃ v, v.session = s.session ∧ v.tokens = s.tokens ∧ v.logicContract = s.logicContract ∧
      Proxy.forward pd env call.1 call.2 v = .ok (u, t) := by
  cases op with
  | forward func args =>
    obtain rfl := Option.some.inj hf
    exact ⟨s, rfl, rfl, rfl, hr⟩
  | forwardWithMeta signerPubkey intent signature func args =>
    obtain rfl := Option.some.inj hf
    obtain ⟨v, hv, hr⟩ := Tx.bind_unit_ok.mp hr
    obtain ⟨-, rfl⟩ := Proxy.executePaymentIntent_ok.mp hv
    exact ⟨s.settleIntent intent, rfl, rfl, rfl, hr⟩
  | _ => cases hf

lemma forwarded_session (hf : forwarded op = some call)
    (ha : s.session account = some allowance) (hr : op.invoke pd env s = .ok (u, t)) :
    ∃ spends, sessionSpends call.1 call.2 = some spends ∧ Covers env s.session spends ∧
      t.session account =
        some { allowance with remaining := allowance.remaining - spent account spends } := by
  obtain ⟨v, hsession, -, -, hr⟩ := forwarded_ok hf hr
  obtain ⟨logic, -, spends, hd, w, hc, hi⟩ := Proxy.forward_ok.mp hr
  obtain ⟨-, tokens, -, rfl⟩ := Proxy.invokeLogic_ok.mp hi
  have hw := chargeEach_session (hsession ▸ ha) hc
  refine ⟨spends, hd, ?_, hw⟩
  rw [← hsession]
  exact Proxy.chargeEach_ok.mp ⟨w, hc⟩

lemma batch_session {calls : List Proxy.MetaTxCall} {before results : List Bool}
    (hr : Tx.fold (Proxy.executeTolerant pd env) before calls s = .ok (results, t)) :
    t.session = s.session := by
  induction calls generalizing before s with
  | nil => rw [(Tx.fold_nil.mp hr).2]
  | cons call calls ih =>
    obtain ⟨between, v, hv, hr⟩ := Tx.fold_cons.mp hr
    rw [ih hr]
    rcases Proxy.executeTolerant_ok hv with ⟨-, -, rfl⟩ | ⟨error, -, -, rfl⟩
    · rfl
    · rfl

lemma unforwarded_session (hf : forwarded op = none)
    (hg : ∀ limit validUntil, op ≠ .authorizeSessionKey account limit validUntil)
    (hr : op.invoke pd env s = .ok (u, t)) : t.session account = s.session account := by
  cases op with
  | initializeProxy admin logicContract =>
    simp only [Proxy.Op.invoke, Proxy.initializeProxy, Proxy.requireAuth, Tx.read_bind,
      Tx.reject_bind_ok, Tx.demand_bind_ok, Tx.update_ok] at hr
    rw [hr.2.2]
  | upgradeLogic admin newLogicContract =>
    simp [Proxy.Op.invoke, Proxy.upgradeLogic, Proxy.assertAdmin, Proxy.requireAuth,
      Proxy.loadLogicContract] at hr
    obtain ⟨-, logic, -, -, rfl⟩ := hr
    rfl
  | transferAdmin admin newAdmin =>
    simp [Proxy.Op.invoke, Proxy.transferAdmin, Proxy.assertAdmin, Proxy.requireAuth] at hr
    rw [hr.2]
  | authorizeSessionKey sessionKey limit validUntil =>
    simp [Proxy.Op.invoke, Proxy.authorizeSessionKey, Proxy.requireAuth] at hr
    have hne : account ≠ sessionKey := fun he => hg limit validUntil (by rw [he])
    rw [hr.2.2]
    exact Function.update_of_ne hne _ _
  | forward name values => cases hf
  | verifyPaymentIntent signerPubkey intent signature =>
    simp [Proxy.Op.invoke, Proxy.verifyPaymentIntentInternal] at hr
    rw [hr.2.2.2]
  | executePaymentIntent signerPubkey intent signature =>
    rw [(Proxy.executePaymentIntent_ok.mp hr).2]
    rfl
  | forwardWithMeta signerPubkey intent signature name values => cases hf
  | executeMetaPayment payload signerPubkey signature =>
    obtain ⟨-, tokens, rfl, -⟩ := Proxy.executeMetaPayment_ok (m := ⟨payload, signerPubkey, signature⟩) hr
    rfl
  | routePaymentMeta payload signerPubkey signature =>
    obtain ⟨-, tokens, rfl, -⟩ := Proxy.executeMetaPayment_ok (m := ⟨payload, signerPubkey, signature⟩) hr
    rfl
  | executeSingleMetaTx call =>
    rw [(Proxy.executeSingleMetaTx_ok.mp hr).2]
    rfl
  | executeBatchTolerant calls =>
    obtain ⟨results, hr⟩ := Tx.void_ok.mp hr
    rw [batch_session hr]
  | outside call =>
    simp only [Proxy.Op.invoke, Tx.update_ok] at hr
    rw [hr]

end Charges

section Steps

variable {d : Deployment} {m : Move} {s : System} {account : Address} {limit : ℤ}
  {validUntil : ℕ} {op : Router.Op} {call : Proxy.Op}

lemma holding_self (s : System) : holding s.router s.proxy.tokens = s.router := by
  rw [← s.shared]
  rfl

lemma step_of_rejected (he : m.entry = .proxy call) (ha : s.accepts d m = false) :
    step d m s = s := by
  unfold System.accepts at ha
  unfold step
  rw [he] at ha ⊢
  dsimp only at ha ⊢
  cases hr : call.invoke d.proxy (m.proxyEnv d s.router) s.proxy with
  | ok r => simp [Tx.succeeds, hr, Except.toBool] at ha
  | error e => rfl

lemma step_of_accepted (he : m.entry = .proxy call) (ha : s.accepts d m = true) :
    call.invoke d.proxy (m.proxyEnv d s.router) s.proxy = .ok ((), (step d m s).proxy) ∧
      (step d m s).router = holding (s.followed d m) (step d m s).proxy.tokens := by
  unfold System.accepts at ha
  rw [he] at ha
  obtain ⟨t, hr⟩ := Tx.succeeds_unit.mp ha
  unfold step
  rw [he]
  dsimp only
  rw [hr]
  exact ⟨rfl, rfl⟩

lemma answer_ok {env : Router.Env} {func : Func} {args : List Val} {v w : Router.State}
    (hd : d.decode func args = some op) (ha : answer d env func args v = some w) :
    op.invoke d.router env v = .ok ((), w) := by
  rw [answer, hd, Option.bind_some] at ha
  cases hr : op.invoke d.router env v with
  | error e =>
    rw [hr] at ha
    cases ha
  | ok r =>
    rw [hr] at ha
    obtain rfl := Option.some.inj ha
    rfl

lemma routed_some (ho : s.routed d m = some op) : ∃ call values, m.entry = .proxy call ∧
    s.proxy.logicContract = some d.router.self ∧ forwarded call = some values ∧
      d.decode values.1 values.2 = some op := by
  unfold System.routed at ho
  split at ho
  · cases ho
  · split_ifs at ho with hlogic
    obtain ⟨values, hf, hd⟩ := Option.bind_eq_some_iff.mp ho
    exact ⟨_, values, ‹_›, hlogic, hf, hd⟩

lemma routed_ok (ha : s.accepts d m = true) (ho : s.routed d m = some op) :
    op.invoke d.router m.env s.router = .ok ((), (step d m s).router) := by
  obtain ⟨call, values, he, hlogic, hf, hd⟩ := routed_some ho
  obtain ⟨hr, hrouter⟩ := step_of_accepted he ha
  obtain ⟨v, -, htokens, hsame, hr⟩ := forwarded_ok hf hr
  obtain ⟨logic, hstored, spends, -, w, hc, hi⟩ := Proxy.forward_ok.mp hr
  obtain ⟨-, tokens, hanswer, hlast⟩ := Proxy.invokeLogic_ok.mp hi
  obtain rfl : logic = d.router.self := by
    rw [hsame, hlogic] at hstored
    exact (Option.some.inj hstored).symm
  rw [Proxy.chargeEach_keeps hc, htokens] at hanswer
  simp only [Move.proxyEnv, if_true, holding_self] at hanswer
  obtain ⟨router, hanswered, rfl⟩ := Option.map_eq_some_iff.mp hanswer
  have hinvoke := answer_ok hd hanswered
  have hfollowed : s.followed d m = router := by
    rw [System.followed, ho]
    exact Tx.commit_ok hinvoke
  rw [hinvoke, hrouter, hfollowed, hlast]
  rfl

lemma unrouted_outlay (ho : s.routed d m = none) (he : m.entry = .proxy call) :
    (step d m s).router.traffic.outlay account = s.router.traffic.outlay account := by
  cases ha : s.accepts d m with
  | false => rw [step_of_rejected he ha]
  | true =>
    rw [(step_of_accepted he ha).2, System.followed, ho]
    rfl

end Steps

section Bound

variable (d : Deployment) (account : Address)

/-- The account grants itself this session, and the proxy accepts it. -/
structure Granted (limit : ℤ) (validUntil : ℕ) (s : System) (m : Move) : Prop where
  entry : m.entry = .proxy (.authorizeSessionKey account limit validUntil)
  accepted : s.accepts d m = true

/-- An accepted forwarded call takes from the account no more than it names. -/
def Frugal (s : System) (m : Move) : Prop :=
  s.accepts d m = true → ∀ op, s.routed d m = some op → op.Frugal s.router account

/-- What the router's token calls take from the account in a call forwarded by the proxy. -/
def debit (m : Move) (s : System) : ℤ :=
  match m.entry with
  | .proxy _ => (step d m s).router.traffic.outlay account - s.router.traffic.outlay account
  | .router _ => 0

def totalDebit : System → List Move → ℤ
  | _, [] => 0
  | s, m :: moves => debit d account m s + totalDebit (step d m s) moves

/-- Forwarded calls take from the account no more than the limit, and nothing from the expiry on. -/
structure Bounded (limit : ℤ) (validUntil : ℕ) (s : System) (moves : List Move) : Prop where
  total : totalDebit d account s moves ≤ limit
  expired : Along (step d) (fun s m => validUntil ≤ m.env.timestamp → debit d account m s = 0) s
    moves

end Bound

section Steps

variable {d : Deployment} {m : Move} {s : System} {account : Address} {limit remaining : ℤ}
  {validUntil : ℕ} {op : Router.Op} {call : Proxy.Op} {values : Func × List Val}
  {spends : List (Address × ℤ)}

/-- What covers a session key's spending bounds it by the allowance, and by its expiry. -/
lemma covers_spent {env : Proxy.Env} {session : Address → Option SessionAllowance}
    (hc : Covers env session spends) (hs : session account = some ⟨remaining, validUntil⟩)
    (hr : 0 ≤ remaining) : (∀ spend ∈ spends, spend.1 = account → 0 < spend.2) ∧
      spent account spends ≤ remaining ∧
        (validUntil ≤ env.timestamp → spent account spends = 0) := by
  have hkey : ∀ spend ∈ spends, spend.1 = account → env.timestamp < validUntil ∧ 0 < spend.2 ∧
      spent account spends ≤ remaining := by
    rintro spend hmem rfl
    exact hc spend hmem _ hs
  refine ⟨fun spend hmem he => (hkey spend hmem he).2.1, ?_, fun hexpired => ?_⟩
  · by_cases hnamed : ∃ spend ∈ spends, spend.1 = account
    · obtain ⟨spend, hmem, he⟩ := hnamed
      exact (hkey spend hmem he).2.2
    · rw [Proxy.spent_eq_zero fun spend hmem he => hnamed ⟨spend, hmem, he⟩]
      exact hr
  · refine Proxy.spent_eq_zero fun spend hmem he => ?_
    have hlive := (hkey spend hmem he).1
    omega

lemma routed_spends (he : m.entry = .proxy call) (hf : forwarded call = some values)
    (hd : sessionSpends values.1 values.2 = some spends) (ho : s.routed d m = some op) :
    op.spends = spends := by
  obtain ⟨other, others, he', -, hf', hdecode⟩ := routed_some ho
  obtain rfl : call = other := by
    rw [he] at he'
    exact Entry.proxy.inj he'
  obtain rfl : values = others := by
    rw [hf] at hf'
    exact Option.some.inj hf'
  have hspends := decode_spends hdecode
  rw [hd] at hspends
  exact (Option.some.inj hspends).symm

/-- One move takes from the account at most what it takes off its allowance. -/
lemma step_session (ha : account ≠ d.router.self)
    (hs : s.proxy.session account = some ⟨remaining, validUntil⟩) (hr : 0 ≤ remaining)
    (hg : ∀ limit validUntil, ¬ Granted d account limit validUntil s m)
    (hm : Frugal d account s m) : ∃ k, k ≤ remaining ∧
      (step d m s).proxy.session account = some ⟨remaining - k, validUntil⟩ ∧
        0 ≤ debit d account m s ∧ debit d account m s ≤ k ∧
          (validUntil ≤ m.env.timestamp → k = 0) := by
  cases he : m.entry with
  | router op =>
    refine ⟨0, hr, ?_, ?_⟩
    · rw [sub_zero, ← hs, step, he]
    · simp [debit, he]
  | proxy call =>
    have hdebit : debit d account m s =
        (step d m s).router.traffic.outlay account - s.router.traffic.outlay account := by
      rw [debit, he]
    rw [hdebit]
    cases hacc : s.accepts d m with
    | false =>
      rw [step_of_rejected he hacc]
      exact ⟨0, hr, by rw [sub_zero, hs], by simp⟩
    | true =>
      obtain ⟨hinvoke, -⟩ := step_of_accepted he hacc
      cases hf : forwarded call with
      | none =>
        have hkept := unforwarded_session hf (fun limit validUntil hcall =>
          hg limit validUntil ⟨by rw [he, hcall], hacc⟩) hinvoke
        have hnone : s.routed d m = none := by
          simp [System.routed, he, hf]
        rw [unrouted_outlay hnone he, hkept]
        exact ⟨0, hr, by rw [sub_zero, hs], by simp⟩
      | some values =>
        obtain ⟨spends, hd, hcovers, hcharged⟩ := forwarded_session hf hs hinvoke
        obtain ⟨hpos, hle, hexpired⟩ := covers_spent hcovers hs hr
        refine ⟨spent account spends, hle, hcharged, ?_⟩
        cases ho : s.routed d m with
        | none =>
          rw [unrouted_outlay ho he, sub_self]
          exact ⟨le_rfl, Proxy.spent_nonneg hpos, hexpired⟩
        | some op =>
          obtain rfl := routed_spends he hf hd ho
          have hpaid := Router.Op.invoke_paid ha hpos (hm hacc op ho) (routed_ok hacc ho)
          exact ⟨sub_nonneg.mpr hpaid.grown, sub_le_iff_le_add'.mpr hpaid.bounded, hexpired⟩

/-- What is left of the allowance bounds what forwarded calls still take. -/
lemma run_session (ha : account ≠ d.router.self) {moves : List Move}
    (hs : s.proxy.session account = some ⟨remaining, validUntil⟩) (hr : 0 ≤ remaining)
    (hg : Along (step d) (fun s m => ∀ limit validUntil, ¬ Granted d account limit validUntil s m) s
      moves)
    (hm : Along (step d) (Frugal d account) s moves) :
    Bounded d account remaining validUntil s moves := by
  induction moves generalizing s remaining with
  | nil => exact ⟨hr, trivial⟩
  | cons m moves ih =>
    obtain ⟨k, hk, hnext, hnonneg, hle, hexpired⟩ := step_session ha hs hr hg.1 hm.1
    obtain ⟨htotal, hrest⟩ := ih hnext (by omega) hg.2 hm.2
    refine ⟨?_, fun hlate => ?_, hrest⟩
    · rw [totalDebit]
      omega
    · have hnone := hexpired hlate
      omega

lemma granted_session (hg : Granted d account limit validUntil s m) :
    account ≠ d.router.self ∧ 0 ≤ limit ∧
      (step d m s).proxy.session account = some ⟨limit, validUntil⟩ := by
  obtain ⟨hr, -⟩ := step_of_accepted hg.entry hg.accepted
  simp only [Proxy.Op.invoke, Proxy.authorizeSessionKey, Proxy.requireAuth, Tx.demand_bind_ok,
    Tx.reject_bind_ok, Tx.update_ok] at hr
  obtain ⟨hauth, hvalid, hnext⟩ := hr
  rw [Proxy.Env.authorises, Bool.and_eq_true] at hauth
  refine ⟨Router.authorises_ne hauth.1, by omega, ?_⟩
  rw [hnext]
  exact Function.update_self ..

end Steps

/-- Between two grants of an account, the allowance it granted itself bounds what forwarded calls
take from it, as long as every call takes no more than it names. -/
theorem session_bounds_debits (d : Deployment) (tokens : Ledger Address Address)
    (setup between : List Move) (grant : Move) (account : Address) (limit : ℤ) (validUntil : ℕ)
    (hg : Granted d account limit validUntil (after d tokens setup) grant)
    (hn : Along (step d) (fun s m => ∀ limit validUntil, ¬ Granted d account limit validUntil s m)
      (step d grant (after d tokens setup)) between)
    (hm : Along (step d) (Frugal d account) (step d grant (after d tokens setup)) between) :
    Bounded d account limit validUntil (step d grant (after d tokens setup)) between := by
  obtain ⟨ha, hlimit, hsession⟩ := granted_session hg
  exact run_session ha hsession hlimit hn hm

section Examples

/-- The proxy at `⟨7⟩`, in front of the router at `⟨0⟩`. -/
def sample : Deployment where
  proxy := { Host.sample with self := ⟨7⟩ }
  router := .sample
  toPublicKey bytes := some ⟨bytes.length⟩
  toSignature bytes := some ⟨bytes.length⟩
  toOther _ _ := none

def signed (accounts : List Address) (entry : Entry) : Move :=
  { env := { Router.signedBy accounts with reply := fun _ => { accepts := true } }, entry }

/-- `⟨2⟩` holds 100 of one token, and the maker `⟨3⟩` 5 of another. -/
def opened : List Move :=
  [signed [⟨1⟩] (.router (.administer (.initializeRouter ⟨1⟩ ⟨9⟩ 0 0 1000))),
    signed [⟨1⟩] (.proxy (.initializeProxy ⟨1⟩ ⟨0⟩)),
    signed [] (.router (.outside (.mint ⟨20⟩ ⟨2⟩ 100))),
    signed [] (.router (.outside (.mint ⟨21⟩ ⟨3⟩ 5)))]

def granted : Move := signed [⟨2⟩] (.proxy (.authorizeSessionKey ⟨2⟩ 10 50))

def paySix : Move :=
  signed [⟨2⟩] (.proxy (.forward .routePayment
    [.address ⟨2⟩, .address ⟨4⟩, .address ⟨20⟩, .i128 6]))

/-- A quote over all that `⟨2⟩` holds, forwarded after the session has expired. -/
def quoted : Move where
  env := { Router.signedBy [⟨2⟩, ⟨3⟩] with timestamp := 60, reply := fun _ => { accepts := true } }
  entry := .proxy (.forward .routePaymentWithQuote
    [.address ⟨2⟩, .address ⟨4⟩, .struct .quote [.i128 100, .i128 5, .u64 60, .address ⟨3⟩,
      .text "q", .address ⟨20⟩, .address ⟨21⟩], .bytes [], .bytes []])

theorem session_bounds_debits_payment :
    Bounded sample ⟨2⟩ 10 50 (step sample granted (after sample Router.emptyLedger opened)) [paySix] ∧
      totalDebit sample ⟨2⟩ (step sample granted (after sample Router.emptyLedger opened)) [paySix] = 6 := by
  refine ⟨session_bounds_debits sample Router.emptyLedger opened [paySix] granted ⟨2⟩ 10 50
    ⟨rfl, by decide +kernel⟩ ⟨?_, trivial⟩ ⟨?_, trivial⟩, by decide +kernel⟩
  · rintro limit validUntil ⟨he, -⟩
    cases he
  · intro _ op ho
    obtain rfl : Router.Op.route (.routePayment ⟨⟨2⟩, ⟨4⟩, ⟨20⟩, 6⟩) = op := Option.some.inj ho
    refine ⟨fun feeBps feeCap hb hc => ?_, trivial⟩
    obtain rfl : 0 = feeBps := Option.some.inj hb
    obtain rfl : 0 = feeCap := Option.some.inj hc
    exact ⟨le_rfl, Router.neg_bpsDivisor_lt (by norm_num) (Router.effectiveFeeBps_nonneg le_rfl)⟩

theorem session_overdrawn :
    Granted sample ⟨2⟩ 10 50 (after sample Router.emptyLedger opened) granted ∧
      Along (step sample) (fun s m => ∀ limit validUntil, ¬ Granted sample ⟨2⟩ limit validUntil s m)
        (step sample granted (after sample Router.emptyLedger opened)) [quoted] ∧
      ¬ Bounded sample ⟨2⟩ 10 50 (step sample granted (after sample Router.emptyLedger opened)) [quoted] := by
  refine ⟨⟨rfl, by decide +kernel⟩, ⟨?_, trivial⟩, fun hb => ?_⟩
  · rintro limit validUntil ⟨he, -⟩
    cases he
  · have htotal := hb.total
    revert htotal
    decide +kernel

end Examples

end StellarTags.Delegation
