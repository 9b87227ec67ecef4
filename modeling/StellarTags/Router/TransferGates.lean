import StellarTags.Router.Checks
import StellarTags.Router.Journal

/-! Which outside contracts a call reaches, and what the switches have to do with it. -/

namespace StellarTags.Router

open Library.Transactions Library.Runs Library.Tokens Soroban

/-- The contract is the treasury's own protocol, or a registered DEX asked for a price only, or
a registered DEX while no swap is paused. -/
def Op.Gates (cfg : Settings) (contract : Address) : Op → Prop
  | .treasury _ => cfg.yieldProtocol = some contract
  | .route (.quoteSwap _ _ _) => cfg.registeredDex contract = true
  | _ => cfg.getPauseLevel = .none ∧ cfg.registeredDex contract = true

def DexGated (h : Host) (s : State) (call : Call) : Prop :=
  ∃ new, (step h call s).traffic.journal = new ++ s.traffic.journal ∧
    ∀ contract, .invoked contract ∈ new → call.op.Gates s.settings contract

/-- Raw swaps that pass their checks name a registered DEX, and neither they nor multi-hop swaps
get past them while swaps are paused. -/
def SwapsHeeded (h : Host) (s : State) (call : Call) : Prop :=
  match call.op with
  | .route (.routePaymentWithSwapRaw sender recipient dexRouter tokenIn tokenOut amountIn path
      minAmountOut) =>
    s.settings.AdmitsRaw h call.env sender recipient tokenIn tokenOut amountIn path minAmountOut →
      s.settings.getPauseLevel = .none ∧ s.settings.registeredDex dexRouter = true
  | .route (.routeMultihopSwap sender recipient dex amountIn path floors) =>
    s.settings.AdmitsMultihop h call.env sender recipient dex amountIn path floors →
      s.settings.getPauseLevel = .none
  | _ => True

variable {h : Host} {s : State}

lemma licence_gates {cfg : Settings} {op : Op} {contract : Address}
    (hraw : ∀ sender recipient dexRouter tokenIn tokenOut amountIn path minAmountOut,
      op = .route (.routePaymentWithSwapRaw sender recipient dexRouter tokenIn tokenOut amountIn
        path minAmountOut) → cfg.getPauseLevel = .none ∧ cfg.registeredDex dexRouter = true)
    (hhops : ∀ sender recipient dex amountIn path floors,
      op = .route (.routeMultihopSwap sender recipient dex amountIn path floors) →
        cfg.getPauseLevel = .none)
    (hl : (op.licence cfg).invokes contract) : op.Gates cfg contract := by
  cases op with
  | treasury op =>
    cases op with
    | depositToYield token amount => exact hl
    | withdrawFromYield token amount => exact hl
    | harvestYield => exact hl
    | _ => exact hl.elim
  | route op =>
    cases op with
    | routePaymentWithSwapRaw sender recipient dexRouter tokenIn tokenOut amountIn path minOut =>
      obtain ⟨rfl, -⟩ := hl
      exact hraw _ _ _ _ _ _ _ _ rfl
    | routePaymentWithSwap payment => exact ⟨hl.2, hl.1⟩
    | routePaymentsWithSwap payments => exact ⟨hl.2, hl.1⟩
    | routeSplitPaymentWithSwap sender recipient sellToken buyToken amountIn splits =>
      exact ⟨hl.2, hl.1⟩
    | routeMultihopSwap sender recipient dex amountIn path floors =>
      exact ⟨hhops _ _ _ _ _ _ rfl, hl.1⟩
    | quoteSwap dex sellToken buyToken => exact hl
    | _ => exact hl.elim
  | _ => exact hl.elim

lemma dexGated_of_heeded (call : Call) (hk : SwapsHeeded h s call) : DexGated h s call := by
  obtain ⟨env, op⟩ := call
  rcases step_cases h ⟨env, op⟩ s with he | hr
  · exact ⟨[], by rw [he]; rfl, by simp⟩
  obtain ⟨new, hj, hnew⟩ := step_journal (h := h) ⟨env, op⟩ s
  refine ⟨new, hj, fun contract hc => licence_gates ?_ ?_ (hnew _ hc)⟩
  · rintro sender recipient dexRouter tokenIn tokenOut amountIn path minAmountOut rfl
    obtain ⟨v, hv, -⟩ := route_ok hr
    exact hk (routePaymentWithSwapRaw_shows _ _ _ hv)
  · rintro sender recipient dex amountIn path floors rfl
    obtain ⟨v, hv, -⟩ := route_ok hr
    exact hk (routeMultihopSwap_shows.void _ _ _ hv)

section Examples

/-- `⟨3⟩` has a hundred of the token `⟨20⟩`, the DEX `⟨6⟩` is registered, and swaps are paused. -/
def swapsPaused : List Call :=
  [⟨signedBy [⟨1⟩], .administer (.initializeRouter ⟨1⟩ ⟨9⟩ 0 0 1000)⟩,
    ⟨{}, .outside (.mint ⟨20⟩ ⟨3⟩ 100)⟩,
    ⟨{}, .outside (.mint ⟨21⟩ ⟨3⟩ 100)⟩,
    ⟨signedBy [⟨1⟩], .configure (.registerDex ⟨6⟩)⟩,
    ⟨signedBy [⟨1⟩], .configure (.setPauseLevel .swapsOnly)⟩]

def rawSwapThrough (dex : Address) : Call :=
  ⟨{ signedBy [⟨3⟩] with reply := fun _ => { accepts := true, returns := true, amounts := [1, 0] } },
    .route (.routePaymentWithSwapRaw ⟨3⟩ ⟨4⟩ dex ⟨20⟩ ⟨21⟩ 1 [⟨20⟩, ⟨21⟩] 1)⟩

def twoHops : Call :=
  ⟨{ signedBy [⟨3⟩] with reply := fun n =>
      { accepts := true
        returns := true
        amounts := [1, 0]
        calls := if n = 2 then [.mint ⟨21⟩ ⟨0⟩ 1] else [.mint ⟨22⟩ ⟨0⟩ 1] } },
    .route (.routeMultihopSwap ⟨3⟩ ⟨4⟩ ⟨6⟩ 1 [⟨20⟩, ⟨21⟩, ⟨22⟩] [1, 1])⟩

end Examples

end StellarTags.Router

/-! Which payments have their sender vouched for. -/

namespace StellarTags.Router

open Library.Transactions Library.Runs Library.Tokens Soroban

/-- No payment above the threshold goes through unless the oracle vouches for its sender. -/
def KycGated (h : Host) (s : State) (call : Call) : Prop :=
  ∀ op, call.op = .route op → Tx.succeeds (call.op.invoke h call.env) s = true →
    ∀ payment ∈ op.payments, s.settings.Verifies call.env payment.1 payment.2

/-- Single, batched and split swaps that pass their checks are small or vouched for. -/
def SwapsVerified (h : Host) (s : State) (call : Call) : Prop :=
  match call.op with
  | .route (.routePaymentWithSwap swap) => s.settings.AdmitsSwap h call.env swap →
    s.settings.Verifies call.env swap.sender swap.amountIn
  | .route (.routePaymentsWithSwap swaps) =>
    (∀ swap ∈ swaps, s.settings.AdmitsSwap h call.env swap) →
      ∀ swap ∈ swaps, s.settings.Verifies call.env swap.sender swap.amountIn
  | .route (.routeSplitPaymentWithSwap sender recipient sellToken buyToken amountIn splits) =>
    s.settings.AdmitsSplit h call.env sender recipient sellToken buyToken amountIn splits →
      s.settings.Verifies call.env sender amountIn
  | _ => True

variable {h : Host} {s : State}

lemma kycGated_of_verified (call : Call) (hk : SwapsVerified h s call) : KycGated h s call := by
  obtain ⟨env, op⟩ := call
  rintro op rfl hsucc payment hp
  obtain ⟨t, hr⟩ := Tx.succeeds_unit.mp hsucc
  obtain ⟨v, hv, -⟩ := route_ok hr
  cases op with
  | routePayment p =>
    obtain rfl := List.mem_singleton.mp hp
    exact (routePayment_shows _ _ _ hv).2
  | routePayments ps =>
    obtain ⟨p, hm, rfl⟩ := List.mem_map.mp hp
    exact (routePayments_shows _ _ _ hv p hm).2
  | routePaymentMeta p signerPubkey nonce deadline signature =>
    obtain rfl := List.mem_singleton.mp hp
    exact (routePaymentMeta_shows _ _ _ hv).2
  | routePaymentWithQuote sender recipient quote makerPubkey signature =>
    obtain rfl := List.mem_singleton.mp hp
    exact routePaymentWithQuote_shows.void _ _ _ hv
  | routePaymentWithSwapRaw sender recipient dexRouter tokenIn tokenOut amountIn path minOut =>
    obtain rfl := List.mem_singleton.mp hp
    exact (routePaymentWithSwapRaw_shows _ _ _ hv).verified
  | routePaymentWithSwap swap =>
    obtain rfl := List.mem_singleton.mp hp
    exact hk (routePaymentWithSwap_shows.void _ _ _ hv)
  | routePaymentsWithSwap swaps =>
    obtain ⟨swap, hm, rfl⟩ := List.mem_map.mp hp
    exact hk (routePaymentsWithSwap_shows.void _ _ _ hv) swap hm
  | routeSplitPaymentWithSwap sender recipient sellToken buyToken amountIn splits =>
    obtain rfl := List.mem_singleton.mp hp
    exact hk (routeSplitPaymentWithSwap_shows.void _ _ _ hv)
  | routeMultihopSwap sender recipient dex amountIn path floors =>
    obtain rfl := List.mem_singleton.mp hp
    exact (routeMultihopSwap_shows.void _ _ _ hv).verified
  | _ => exact absurd hp (by simp [RoutingOp.payments])

section Examples

/-- Payments above ten need the word of the oracle `⟨8⟩`; the DEX `⟨6⟩` is registered. -/
def kycConfigured : List Call :=
  [⟨signedBy [⟨1⟩], .administer (.initializeRouter ⟨1⟩ ⟨9⟩ 0 0 1000)⟩,
    ⟨{}, .outside (.mint ⟨20⟩ ⟨3⟩ 100)⟩,
    ⟨signedBy [⟨1⟩], .configure (.registerDex ⟨6⟩)⟩,
    ⟨signedBy [⟨1⟩], .configure (.setKycConfig ⟨8⟩ 10)⟩]

/-- The oracle answers `false` for everybody. -/
def unverifiedSwap : Call :=
  ⟨{ signedBy [⟨3⟩] with
      isVerified := fun _ _ => some false
      reply := fun _ =>
        { accepts := true, returns := true, output := (⟨21⟩, 1), calls := [.mint ⟨21⟩ ⟨0⟩ 1] } },
    .route (.routePaymentWithSwap ⟨⟨3⟩, ⟨4⟩, ⟨20⟩, ⟨21⟩, 100, 1, 0, 0, ⟨6⟩⟩)⟩

end Examples

end StellarTags.Router
