import StellarTags.Router.Calls

/-! What the entry points have checked of a payment that goes through. -/

namespace StellarTags.Router

open Library.Transactions Library.Integers Soroban

def RoutingOp.payments : RoutingOp → List (Address × ℤ)
  | .routePayment payment | .routePaymentMeta payment _ _ _ _ => [(payment.sender, payment.amount)]
  | .routePayments payments => payments.map fun payment => (payment.sender, payment.amount)
  | .routePaymentWithQuote sender _ quote _ _ => [(sender, quote.amountIn)]
  | .routePaymentWithSwap payment => [(payment.sender, payment.amountIn)]
  | .routePaymentsWithSwap payments =>
    payments.map fun payment => (payment.sender, payment.amountIn)
  | .routePaymentWithSwapRaw sender _ _ _ _ amountIn _ _
  | .routeSplitPaymentWithSwap sender _ _ _ amountIn _
  | .routeMultihopSwap sender _ _ amountIn _ _ => [(sender, amountIn)]
  | .quoteSwap _ _ _ | .withdrawRefund _ _ _ | .claimAllRefunds _ _ | .migrateUserRecord _ => []

namespace Settings

/-- The amount is within the threshold, or the oracle vouches for the sender. -/
def Verifies (cfg : Settings) (env : Env) (sender : Address) (amount : ℤ) : Prop :=
  ∀ threshold, cfg.kycThreshold = some threshold → threshold < amount →
    ∃ oracle, cfg.kycOracle = some oracle ∧ env.isVerified oracle sender = some true

def Open (cfg : Settings) : Prop := cfg.isFrozenInternal = false ∧ cfg.isPausedInternal = false

def SwapsOpen (cfg : Settings) : Prop := cfg.isFrozenInternal = false ∧ cfg.getPauseLevel = .none

structure Admits (cfg : Settings) (sender recipient : Address) (amount : ℤ) : Prop where
  parties : sender ≠ recipient
  listed : cfg.blacklist recipient = false
  positive : 0 < amount
  most : amount ≤ cfg.maxAmountOrDefault
  least : cfg.minLimitOrZero ≤ amount

/-- The checks of `validate_swap`, with the sender's authorisation and the switches before it. -/
structure AdmitsSwap (cfg : Settings) (h : Host) (env : Env) (swap : SwapPayment) : Prop where
  opened : cfg.SwapsOpen
  authorised : env.authorises h swap.sender = true
  tokens : swap.sellToken ≠ swap.buyToken
  floor : 0 < swap.minAmountOut
  deadline : swap.deadline = 0 ∨ env.timestamp ≤ swap.deadline
  dex : cfg.registeredDex swap.dex = true
  payment : cfg.Admits swap.sender swap.recipient swap.amountIn

/-- The checks of a split swap before its first write. -/
structure AdmitsSplit (cfg : Settings) (h : Host) (env : Env)
    (sender recipient sellToken buyToken : Address) (amountIn : ℤ) (splits : List SplitRoute) :
    Prop where
  opened : cfg.SwapsOpen
  authorised : env.authorises h sender = true
  tokens : sellToken ≠ buyToken
  nonempty : splits ≠ []
  routes : ∀ split ∈ splits, split.weightBps ≠ 0 ∧ 0 < split.minAmountOut ∧
    cfg.registeredDex split.dexAddress = true
  weights : (splits.map SplitRoute.weightBps).sum = totalWeightBps
  payment : cfg.Admits sender recipient amountIn

/-- The checks of a raw swap, which ask nothing of the DEX. -/
structure AdmitsRaw (cfg : Settings) (h : Host) (env : Env)
    (sender recipient tokenIn tokenOut : Address) (amountIn : ℤ) (path : List Address)
    (minAmountOut : ℤ) : Prop where
  opened : cfg.Open
  authorised : env.authorises h sender = true
  path : path.head? = some tokenIn ∧ path.getLast? = some tokenOut
  floor : 0 < minAmountOut
  payment : cfg.Admits sender recipient amountIn
  verified : cfg.Verifies env sender amountIn

/-- The checks of a multi-hop swap before it charges its sender. -/
structure AdmitsMultihop (cfg : Settings) (h : Host) (env : Env) (sender recipient dex : Address)
    (amountIn : ℤ) (path : List Address) (floors : List ℤ) : Prop where
  opened : cfg.Open
  authorised : env.authorises h sender = true
  hops : 3 ≤ path.length ∧ path.length ≤ 5 ∧ floors.length = path.length - 1
  distinct : path.Nodup
  floors : ∀ floor ∈ floors, 0 < floor
  dex : cfg.registeredDex dex = true
  payment : cfg.Admits sender recipient amountIn
  verified : cfg.Verifies env sender amountIn

end Settings

variable {h : Host} {cfg : Settings} {env : Env} {s t : Traffic} {u : Unit}
  {sender recipient : Address} {amount : ℤ}

@[simp] lemma verifyKycForAmount_ok : verifyKycForAmount cfg env sender amount s = .ok (u, t) ↔
    cfg.Verifies env sender amount ∧ t = s := by
  unfold verifyKycForAmount Settings.Verifies
  cases ht : cfg.kycThreshold with
  | none => simp
  | some threshold =>
    by_cases ha : threshold < amount
    · cases ho : cfg.kycOracle with
      | none => simp [Tx.whenever, Tx.unwrap, ha]
      | some oracle =>
        cases hv : env.isVerified oracle sender with
        | none => simp [Tx.whenever, ha, hv]
        | some verified => cases verified <;> simp [Tx.whenever, ha, hv]
    · simp [Tx.whenever, ha]

lemma verifyKycForAmount_shows :
    Tx.Shows (verifyKycForAmount cfg env sender amount) (cfg.Verifies env sender amount) :=
  fun _ _ _ hr => (verifyKycForAmount_ok.mp hr).1

lemma requireOpen_shows : Tx.Shows (requireOpen cfg) cfg.Open := by
  apply Tx.Shows.reject
  intro hf
  apply Tx.Shows.of_reject
  intro hp
  exact ⟨by simpa using hf, by simpa using hp⟩

lemma withGuard_shows {α : Type} {m : Routing α} {φ : Prop} (hm : Tx.Shows m φ) :
    Tx.Shows (withGuard m) φ :=
  .next fun _ => .reject fun _ => .next fun _ => .first hm

lemma validatePayment_shows : Tx.Shows (validatePayment cfg env sender recipient amount)
    (cfg.Admits sender recipient amount ∧ cfg.Verifies env sender amount) := by
  apply Tx.Shows.reject
  intro hp
  apply Tx.Shows.reject
  intro hl
  apply Tx.Shows.reject
  intro hm
  apply Tx.Shows.reject
  intro hmin s u t hr
  have hv := (verifyKycForAmount_ok.mp hr).1
  exact ⟨⟨hp, by simpa using hl, by omega, by omega, by omega⟩, hv⟩

lemma processSinglePaymentNoAuth_shows {tokenAddress platformTreasury : Address}
    {feeBps feeCap : ℤ} :
    Tx.Shows (processSinglePaymentNoAuth h cfg env sender recipient tokenAddress amount
      platformTreasury feeBps feeCap)
      (cfg.Admits sender recipient amount ∧ cfg.Verifies env sender amount) := by
  apply Tx.Shows.reject
  intro hp
  apply Tx.Shows.reject
  intro hl
  apply Tx.Shows.reject
  intro hm
  apply Tx.Shows.reject
  intro hmin
  refine .first_then verifyKycForAmount_shows fun _ hv => ?_
  exact .known ⟨⟨hp, by simpa using hl, by omega, by omega, by omega⟩, hv⟩

section Payments

variable {payment : Payment} {payments : List Payment}

lemma routePayment_shows : Tx.Shows (routePayment h cfg env payment)
    (cfg.Admits payment.sender payment.recipient payment.amount ∧
      cfg.Verifies env payment.sender payment.amount) :=
  withGuard_shows (.next fun _ => validatePayment_shows.first)

lemma routePayments_shows : Tx.Shows (routePayments h cfg env payments)
    (∀ payment ∈ payments, cfg.Admits payment.sender payment.recipient payment.amount ∧
      cfg.Verifies env payment.sender payment.amount) := by
  apply withGuard_shows
  refine .next fun _ => .first (.fold fun seen payment => ?_)
  exact validatePayment_shows.first

lemma routePaymentMeta_shows {signerPubkey : PublicKey} {nonce deadline : ℕ}
    {signature : Signature} :
    Tx.Shows (routePaymentMeta h cfg env payment signerPubkey nonce deadline signature)
      (cfg.Admits payment.sender payment.recipient payment.amount ∧
        cfg.Verifies env payment.sender payment.amount) := by
  apply withGuard_shows
  refine .next fun _ => .next fun fees => .reject fun _ => .next fun stored => .reject fun _ => ?_
  refine .demand fun _ => .next fun next => .next fun _ => ?_
  exact processSinglePaymentNoAuth_shows

lemma routePaymentWithQuote_shows {quote : Quote} {makerPubkey : PublicKey}
    {signature : Signature} :
    Tx.Shows (routePaymentWithQuote h cfg env sender recipient quote makerPubkey signature)
      (cfg.Verifies env sender quote.amountIn) := by
  apply withGuard_shows
  refine .next fun _ => .reject fun _ => .reject fun _ => .reject fun _ => .reject fun _ => ?_
  refine .next fun used => .reject fun _ => .reject fun _ => ?_
  exact verifyKycForAmount_shows.first

end Payments

section Swaps

variable {swap : SwapPayment} {payments : List SwapPayment} {splits : List SplitRoute}
  {dex tokenIn tokenOut sellToken buyToken platformTreasury : Address} {path : List Address}
  {amountIn minAmountOut feeBps feeCap : ℤ} {floors : List ℤ}

lemma processSingleSwapPayment_shows (hf : cfg.isFrozenInternal = false) :
    Tx.Shows (processSingleSwapPayment h cfg env swap platformTreasury feeBps feeCap)
      (cfg.AdmitsSwap h env swap) := by
  apply Tx.Shows.demand
  intro hauth
  apply Tx.Shows.reject
  intro hpause
  apply Tx.Shows.first
  apply Tx.Shows.reject
  intro htokens
  apply Tx.Shows.reject
  intro hfloor
  apply Tx.Shows.reject
  intro hdeadline
  apply Tx.Shows.reject
  intro hdex
  apply Tx.Shows.reject
  intro hp
  apply Tx.Shows.reject
  intro hl
  apply Tx.Shows.reject
  intro hm
  apply Tx.Shows.of_reject
  intro hmin
  have hadmits : cfg.Admits swap.sender swap.recipient swap.amountIn :=
    ⟨hp, by simpa using hl, by omega, by omega, by omega⟩
  exact ⟨⟨hf, not_not.mp hpause⟩, hauth, htokens, not_le.mp hfloor, by omega,
    by simpa [Settings.isDexRegisteredInternal] using hdex, hadmits⟩

lemma routePaymentWithSwap_shows :
    Tx.Shows (routePaymentWithSwap h cfg env swap) (cfg.AdmitsSwap h env swap) := by
  apply withGuard_shows
  apply Tx.Shows.reject
  intro hf
  refine .next fun _ => .next fun fees => ?_
  exact processSingleSwapPayment_shows (by simpa using hf)

lemma routePaymentsWithSwap_shows : Tx.Shows (routePaymentsWithSwap h cfg env payments)
    (∀ swap ∈ payments, cfg.AdmitsSwap h env swap) := by
  apply withGuard_shows
  apply Tx.Shows.reject
  intro hf
  refine .next fun _ => .next fun fees => .fold fun total swap => ?_
  exact (processSingleSwapPayment_shows (by simpa using hf)).first

lemma splitWeights_ok {total weight : ℕ} (hr : Tx.fold (addSplitWeight cfg) total splits s =
    .ok (weight, t)) :
    (∀ split ∈ splits, split.weightBps ≠ 0 ∧ 0 < split.minAmountOut ∧
      cfg.registeredDex split.dexAddress = true) ∧
        weight = total + (splits.map SplitRoute.weightBps).sum := by
  induction splits generalizing total s with
  | nil =>
    obtain ⟨rfl, -⟩ := Tx.fold_nil.mp hr
    simp
  | cons split splits ih =>
    obtain ⟨w, v, hw, hr⟩ := Tx.fold_cons.mp hr
    simp only [addSplitWeight, Tx.reject_bind_ok, Tx.pure_ok] at hw
    obtain ⟨hsplit, hdex, -, rfl, -⟩ := hw
    obtain ⟨hrest, rfl⟩ := ih hr
    have hd : cfg.registeredDex split.dexAddress = true := by
      simpa [Settings.isDexRegisteredInternal] using hdex
    have hhead : split.weightBps ≠ 0 ∧ 0 < split.minAmountOut := by omega
    refine ⟨fun x hx => ?_, by simp [Nat.add_assoc]⟩
    rcases List.mem_cons.mp hx with rfl | hx
    · exact ⟨hhead.1, hhead.2, hd⟩
    · exact hrest x hx

lemma routeSplitPaymentWithSwap_shows :
    Tx.Shows (routeSplitPaymentWithSwap h cfg env sender recipient sellToken buyToken amountIn
      splits) (cfg.AdmitsSplit h env sender recipient sellToken buyToken amountIn splits) := by
  apply withGuard_shows
  apply Tx.Shows.reject
  intro hf
  apply Tx.Shows.reject
  intro hpause
  refine .next fun fees => ?_
  apply Tx.Shows.demand
  intro hauth
  apply Tx.Shows.reject
  intro htokens
  apply Tx.Shows.reject
  intro hne
  refine .first_then (fun _ _ _ hr => splitWeights_ok hr) fun weight hw => ?_
  apply Tx.Shows.reject
  intro htotal
  apply Tx.Shows.reject
  intro hp
  apply Tx.Shows.reject
  intro hl
  apply Tx.Shows.reject
  intro hm
  apply Tx.Shows.reject
  intro hmin
  have hadmits : cfg.Admits sender recipient amountIn :=
    ⟨hp, by simpa using hl, by omega, by omega, by omega⟩
  exact .known
    ⟨⟨by simpa using hf, not_not.mp hpause⟩, hauth, htokens, hne, hw.1, by omega, hadmits⟩

lemma validateSwapPath_shows : Tx.Shows (validateSwapPath tokenIn tokenOut path minAmountOut)
    (path.head? = some tokenIn ∧ path.getLast? = some tokenOut ∧ 0 < minAmountOut) := by
  apply Tx.Shows.reject
  intro _
  apply Tx.Shows.reject
  intro hhead
  apply Tx.Shows.reject
  intro hlast
  apply Tx.Shows.of_reject
  intro hfloor
  exact ⟨not_not.mp hhead, not_not.mp hlast, not_le.mp hfloor⟩

lemma routePaymentWithSwapRaw_shows :
    Tx.Shows (routePaymentWithSwapRaw h cfg env sender recipient dex tokenIn tokenOut amountIn path
      minAmountOut) (cfg.AdmitsRaw h env sender recipient tokenIn tokenOut amountIn path
        minAmountOut) := by
  apply Tx.Shows.first
  refine .first_then requireOpen_shows fun _ hopen => ?_
  apply Tx.Shows.reject
  intro hp
  apply Tx.Shows.reject
  intro hl
  refine .first_then validateSwapPath_shows fun _ hpath => ?_
  apply Tx.Shows.reject
  intro hm
  refine .first_then verifyKycForAmount_shows fun _ hv s u t hr => ?_
  have hauth := (requireAuth_ok.mp hr).1
  have hadmits : cfg.Admits sender recipient amountIn :=
    ⟨hp, by simpa using hl, by omega, by omega, by omega⟩
  exact ⟨hopen, hauth, ⟨hpath.1, hpath.2.1⟩, hpath.2.2, hadmits, hv⟩

lemma routeMultihopSwap_shows :
    Tx.Shows (routeMultihopSwap h cfg env sender recipient dex amountIn path floors)
      (cfg.AdmitsMultihop h env sender recipient dex amountIn path floors) := by
  apply withGuard_shows
  refine .first_then requireOpen_shows fun _ hopen => ?_
  apply Tx.Shows.reject
  intro hp
  apply Tx.Shows.reject
  intro hl
  apply Tx.Shows.reject
  intro hcount
  apply Tx.Shows.reject
  intro hnodup
  apply Tx.Shows.reject
  intro hfloors
  apply Tx.Shows.reject
  intro hdex
  apply Tx.Shows.reject
  intro hm
  refine .first_then verifyKycForAmount_shows fun _ hv => ?_
  apply Tx.Shows.demand
  intro hauth
  have hadmits : cfg.Admits sender recipient amountIn :=
    ⟨hp, by simpa using hl, by omega, by omega, by omega⟩
  exact .known ⟨hopen, hauth, by omega, not_not.mp hnodup, by simpa using hfloors,
    by simpa [Settings.isDexRegisteredInternal] using hdex, hadmits, hv⟩

end Swaps

lemma route_ok {op : RoutingOp} {s t : State} (hr : (Op.route op).invoke h env s = .ok ((), t)) :
    ∃ v, op.invoke h env s.settings s.traffic = .ok ((), v) ∧ t = { s with traffic := v } := by
  simpa only [Op.invoke, routing_ok] using hr

end StellarTags.Router
