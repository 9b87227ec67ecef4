import StellarTags.Proxy.Calls

/-! What is signed and what is forwarded: nothing ties one to the other. -/

namespace StellarTags.Proxy

open Library.Transactions Library.Integers Library.Runs Library.Tokens Soroban

section Payments

def Func.IsPayment : Func → Prop
  | .withdrawRefund | .other _ => False
  | _ => True

instance : DecidablePred Func.IsPayment := fun func => by
  cases func <;> unfold Func.IsPayment <;> infer_instance

/-- The input amount of a `Quote`, whose fields come in the order of their names. -/
def Val.toQuoteAmount : Val → Option ℤ
  | .struct .quote [.i128 amountIn, .i128 _, .u64 _, .address _, .text _, .address _, .address _] =>
    some amountIn
  | _ => none

/-- The payments that the arguments of a call to the router describe. -/
def paymentsOf (func : Func) (args : List Val) : Option (List Transfer) :=
  let positional (recipient amount : ℕ) := do
    let sender ← addressArg args 0
    let recipient ← addressArg args recipient
    let amount ← amountArg args amount
    pure [⟨sender, recipient, amount⟩]
  match func with
  | .routePayment => positional 1 3
  | .routePayments => vecArg Val.toPayment args
  | .routePaymentMeta => positional 2 4
  | .routePaymentWithQuote => do
    let sender ← addressArg args 0
    let recipient ← addressArg args 1
    let amount ← args[2]?.bind Val.toQuoteAmount
    pure [⟨sender, recipient, amount⟩]
  | .routePaymentWithSwapRaw => positional 1 5
  | .routePaymentWithSwap => (args[0]?.bind Val.toSwapPayment).map fun payment => [payment]
  | .routePaymentsWithSwap => vecArg Val.toSwapPayment args
  | .routeSplitPaymentWithSwap => positional 1 4
  | .routeMultihopSwap => positional 1 3
  | .withdrawRefund | .other _ => none

def PaymentIntent.transfer (intent : PaymentIntent) : Transfer :=
  ⟨intent.fromAddress, intent.toAddress, intent.amount⟩

/-- The call makes the payment of the intent, and no other. -/
def PaymentIntent.Describes (intent : PaymentIntent) (func : Func) (args : List Val) : Prop :=
  paymentsOf func args = some [intent.transfer]

end Payments

section Sessions

def spent (account : Address) (spends : List (Address × ℤ)) : ℤ :=
  ((spends.filter (·.1 = account)).map (·.2)).sum

/-- Every session key among the spenders is in time, and its allowance covers what it spends. -/
def Covers (env : Env) (session : Address → Option SessionAllowance)
    (spends : List (Address × ℤ)) : Prop :=
  ∀ spend ∈ spends, ∀ allowance, session spend.1 = some allowance →
    env.timestamp < allowance.validUntil ∧ 0 < spend.2 ∧ spent spend.1 spends ≤ allowance.remaining

variable {env : Env} {s t : State} {u : Unit} {account : Address} {spend : Address × ℤ}
  {spends : List (Address × ℤ)} {session : Address → Option SessionAllowance}
  {allowance : SessionAllowance}

@[simp] lemma spent_nil : spent account [] = 0 := rfl

@[simp] lemma spent_cons : spent account (spend :: spends) =
    (if spend.1 = account then spend.2 else 0) + spent account spends := by
  unfold spent
  by_cases ha : spend.1 = account <;> simp [ha]

lemma spent_eq_zero (h : ∀ spend ∈ spends, spend.1 ≠ account) : spent account spends = 0 := by
  have hf : spends.filter (·.1 = account) = [] :=
    List.filter_eq_nil_iff.mpr fun spend hs => by simpa using h spend hs
  rw [spent, hf]
  rfl

lemma spent_nonneg (h : ∀ spend ∈ spends, spend.1 = account → 0 < spend.2) :
    0 ≤ spent account spends := by
  refine List.sum_nonneg fun n hn => ?_
  obtain ⟨spend, hs, rfl⟩ := List.mem_map.mp hn
  obtain ⟨hm, ha⟩ := List.mem_filter.mp hs
  exact (h spend hm (by simpa using ha)).le

lemma covers_cons_none (hn : session spend.1 = none) :
    Covers env session (spend :: spends) ↔ Covers env session spends := by
  have hne : ∀ other, ∀ allowance, session other = some allowance → spend.1 ≠ other := by
    rintro other allowance ho rfl
    simp [hn] at ho
  constructor
  · intro h other ho allowance ha
    simpa [hne _ _ ha] using h other (by simp [ho]) allowance ha
  · intro h other ho allowance ha
    rcases List.mem_cons.mp ho with rfl | ho
    · simp [hn] at ha
    · simpa [hne _ _ ha] using h other ho allowance ha

lemma covers_cons_some (hs : session spend.1 = some allowance) :
    Covers env session (spend :: spends) ↔
      env.timestamp < allowance.validUntil ∧ 0 < spend.2 ∧ spend.2 ≤ allowance.remaining ∧
        Covers env (Function.update session spend.1
          (some { allowance with remaining := allowance.remaining - spend.2 })) spends := by
  constructor
  · intro h
    obtain ⟨hv, hp, hr⟩ := h spend (by simp) allowance hs
    simp only [spent_cons, if_true] at hr
    have hpos : 0 ≤ spent spend.1 spends := spent_nonneg fun other ho he =>
      (h other (by simp [ho]) allowance (he ▸ hs)).2.1
    refine ⟨hv, hp, by omega, fun other ho left hl => ?_⟩
    by_cases he : other.1 = spend.1
    · rw [he, Function.update_self, Option.some.injEq] at hl
      subst hl
      exact ⟨hv, (h other (by simp [ho]) allowance (he ▸ hs)).2.1, by rw [he]; simp; omega⟩
    · rw [Function.update_of_ne he] at hl
      simpa [Ne.symm he] using h other (by simp [ho]) left hl
  · rintro ⟨hv, hp, hr, h⟩ other ho left hl
    by_cases he : other.1 = spend.1
    · rw [he, hs, Option.some.injEq] at hl
      subst hl
      have hrest : ∀ x ∈ spends, x.1 = spend.1 → 0 < x.2 ∧ spent spend.1 spends ≤
          allowance.remaining - spend.2 := fun x hx hxe => by
        have := h x hx _ (by rw [hxe, Function.update_self])
        exact ⟨this.2.1, hxe ▸ this.2.2⟩
      rw [he]
      simp only [spent_cons, if_true]
      rcases List.mem_cons.mp ho with rfl | ho
      · refine ⟨hv, hp, ?_⟩
        by_cases hx : ∃ x ∈ spends, x.1 = other.1
        · obtain ⟨x, hx, hxe⟩ := hx
          have := (hrest x hx hxe).2
          omega
        · rw [spent_eq_zero fun x hm hxe => hx ⟨x, hm, hxe⟩]
          omega
      · obtain ⟨hpos, hle⟩ := hrest other ho he
        exact ⟨hv, hpos, by omega⟩
    · rcases List.mem_cons.mp ho with rfl | ho
      · exact absurd rfl he
      · simpa [Ne.symm he] using h other ho left (by rwa [Function.update_of_ne he])

lemma chargeEach_ok :
    (∃ t, Tx.forEach (chargeIfSession env) spends s = .ok ((), t)) ↔ Covers env s.session spends := by
  induction spends generalizing s with
  | nil => simp [Covers]
  | cons spend spends ih =>
    cases hs : s.session spend.1 with
    | none =>
      rw [covers_cons_none hs, ← ih]
      simp [chargeIfSession, hs]
    | some allowance =>
      have hset : (s.setSession spend.1
          { allowance with remaining := allowance.remaining - spend.2 }).session =
          Function.update s.session spend.1
            (some { allowance with remaining := allowance.remaining - spend.2 }) := rfl
      rw [covers_cons_some hs, ← hset, ← ih]
      simp [chargeIfSession, hs, and_assoc]

end Sessions

/-- The forwarded call is accepted: there is a logic contract, the session keys' allowances cover
what the call would charge them, and the logic contract goes along. -/
structure Forwarded (d : Deployment) (env : Env) (s : State) (func : Func) (args : List Val)
    (logic : Address) (spends : List (Address × ℤ)) : Prop where
  stored : s.logicContract = some logic
  decoded : sessionSpends func args = some spends
  covered : Covers env s.session spends
  foreign : logic ≠ d.self
  answered : (env.logic logic func args s.tokens).isSome

section Success

variable {d : Deployment} {env : Env} {s t : State} {u : Unit} {func : Func} {args : List Val}
  {signerPubkey : PublicKey} {intent : PaymentIntent} {signature : Signature}

lemma chargeEach_keeps {spends : List (Address × ℤ)}
    (hr : Tx.forEach (chargeIfSession env) spends s = .ok (u, t)) : t.tokens = s.tokens := by
  refine Tx.Ensures.forEach (P := fun v => v.tokens = s.tokens)
    (fun spend _ v w x hv hw => ?_) s u t rfl hr
  cases hs : v.session spend.1 with
  | none =>
    simp [chargeIfSession, hs] at hw
    rwa [hw]
  | some allowance =>
    simp [chargeIfSession, hs] at hw
    rw [hw.2.2]
    exact hv

lemma invokeLogic_ok {logic : Address} : invokeLogic d env logic func args s = .ok (u, t) ↔
    logic ≠ d.self ∧ ∃ tokens, env.logic logic func args s.tokens = some tokens ∧
      t = { s with tokens := tokens } := by
  simp only [invokeLogic, Tx.demand_bind_ok, Tx.read_bind]
  cases env.logic logic func args s.tokens with
  | none => simp
  | some tokens => simp

lemma forward_ok : forward d env func args s = .ok (u, t) ↔
    ∃ logic, s.logicContract = some logic ∧ ∃ spends, sessionSpends func args = some spends ∧
      ∃ v, Tx.forEach (chargeIfSession env) spends s = .ok ((), v) ∧
        invokeLogic d env logic func args v = .ok (u, t) := by
  simp only [forward, loadLogicContract, chargeSessionAllowance, Tx.bind_ok, Tx.read_ok,
    Tx.unwrap_ok]
  constructor
  · rintro ⟨logic, _, ⟨_, _, ⟨rfl, rfl⟩, hl, rfl⟩, _, v, ⟨spends, _, ⟨hd, rfl⟩, hc⟩, hi⟩
    exact ⟨logic, hl, spends, hd, v, hc, hi⟩
  · rintro ⟨logic, hl, spends, hd, v, hc, hi⟩
    exact ⟨logic, s, ⟨_, s, ⟨rfl, rfl⟩, hl, rfl⟩, (), v, ⟨spends, s, ⟨hd, rfl⟩, hc⟩, hi⟩

lemma forward_succeeds : Tx.succeeds (forward d env func args) s = true ↔
    ∃ logic spends, Forwarded d env s func args logic spends := by
  simp only [Tx.succeeds_unit, forward_ok, invokeLogic_ok]
  constructor
  · rintro ⟨t, logic, hl, spends, hd, v, hc, hs, tokens, ht, -⟩
    rw [chargeEach_keeps hc] at ht
    exact ⟨logic, spends, hl, hd, chargeEach_ok.mp ⟨v, hc⟩, hs, by simp [ht]⟩
  · rintro ⟨logic, spends, hl, hd, hc, hs, ha⟩
    obtain ⟨v, hv⟩ := chargeEach_ok.mpr hc
    obtain ⟨tokens, ht⟩ := Option.isSome_iff_exists.mp ha
    refine ⟨_, logic, hl, spends, hd, v, hv, hs, tokens, ?_, rfl⟩
    rw [chargeEach_keeps hv, ht]

lemma forwardWithMeta_succeeds :
    Tx.succeeds (forwardWithMeta d env signerPubkey intent signature func args) s = true ↔
      MetaTxCall.Verified ⟨signerPubkey, intent, signature⟩ d env s.getNonce ∧
        ∃ logic spends, Forwarded d env s func args logic spends := by
  have hsame : ∀ logic spends, Forwarded d env (s.settleIntent intent) func args logic spends ↔
      Forwarded d env s func args logic spends := fun logic spends =>
    ⟨fun ⟨hl, hd, hc, hs, ha⟩ => ⟨hl, hd, hc, hs, ha⟩, fun ⟨hl, hd, hc, hs, ha⟩ => ⟨hl, hd, hc, hs, ha⟩⟩
  simp only [← hsame, ← forward_succeeds, Tx.succeeds_unit, forwardWithMeta, Tx.bind_unit_ok,
    executePaymentIntent_ok]
  constructor
  · rintro ⟨t, v, ⟨hc, rfl⟩, hr⟩
    exact ⟨hc, t, hr⟩
  · rintro ⟨hc, t, hr⟩
    exact ⟨t, _, ⟨hc, rfl⟩, hr⟩

end Success

/-- A signature of the intent's account lets through the payment that the account signed, and no
other payment. -/
def ForwardsSigned (d : Deployment) (keyOf : Address → PublicKey) (env : Env) (s : State)
    (intent : PaymentIntent) (signature : Signature) (func : Func) (args : List Val) : Prop :=
  Tx.succeeds (forwardWithMeta d env (keyOf intent.fromAddress) intent signature func args) s =
    true → func.IsPayment → intent.Describes func args

/-- The relayer chooses the forwarded call: it is the payment that was signed only if the relayer
says so, or if the call is refused for a reason of its own. -/
theorem forwarded_payment_is_relayers (d : Deployment) (keyOf : Address → PublicKey) (env : Env)
    (s : State) (intent : PaymentIntent) (signature : Signature) (func : Func) (args : List Val) :
    ForwardsSigned d keyOf env s intent signature func args ↔
      ¬ func.IsPayment ∨ intent.Describes func args ∨
        ¬ MetaTxCall.Verified ⟨keyOf intent.fromAddress, intent, signature⟩ d env s.getNonce ∨
          ∀ logic spends, ¬ Forwarded d env s func args logic spends := by
  rw [ForwardsSigned, forwardWithMeta_succeeds]
  constructor
  · intro h
    by_cases hp : func.IsPayment
    · by_cases hd : intent.Describes func args
      · exact Or.inr (Or.inl hd)
      · refine Or.inr (Or.inr (or_iff_not_imp_left.mpr fun hv logic spends hf => hd ?_))
        exact h ⟨not_not.mp hv, logic, spends, hf⟩ hp
    · exact Or.inl hp
  · rintro (hp | hd | hv | hf) ⟨hver, logic, spends, hfor⟩ hpay
    · exact absurd hpay hp
    · exact hd
    · exact absurd hver hv
    · exact absurd hfor (hf logic spends)

section Examples

def plainRouter (_ : Address) (func : Func) (args : List Val) (tokens : Ledger Address Address) :
    Option (Ledger Address Address) :=
  match func, args with
  | .routePayment, [.address sender, .address recipient, .address token, .i128 amount] =>
    tokens.apply (.transfer token sender recipient amount)
  | _, _ => none

/-- `⟨2⟩` signs a payment to `⟨3⟩`; the relayer `⟨4⟩` has a payment of its own forwarded for it. -/
theorem relayer_swaps_payment :
    ¬ ForwardsSigned { Host.sample with } (fun a => ⟨a.id⟩) { logic := plainRouter }
      { State.fresh ⟨fun _ _ => 100, fun _ _ _ => 0⟩ with logicContract := some ⟨7⟩ }
      ⟨⟨2⟩, ⟨3⟩, 100, 0, 0, 0⟩ ⟨2⟩ .routePayment
      [.address ⟨4⟩, .address ⟨5⟩, .address ⟨20⟩, .i128 1] := by
  intro h
  have hd := h (by decide) trivial
  simp [PaymentIntent.Describes, paymentsOf, addressArg, amountArg, Val.toAddress, Val.toI128,
    PaymentIntent.transfer] at hd

end Examples

end StellarTags.Proxy
