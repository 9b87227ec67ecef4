import StellarTags.Delegation.Metering

/-! The proxy in front of the router: forwarded calls, decoded and run on the shared tokens. -/

namespace StellarTags.Delegation

open Library.Transactions Library.Runs Library.Tokens Soroban
open Proxy (Func)

/-- The router's entry points that the proxy knows no name of. -/
inductive OtherOp : Type
  | administer (op : Router.AdminOp)
  | configure (op : Router.ConfigOp)
  | timelock (op : Router.TimelockOp)
  | group (op : Router.GroupOp)
  | treasury (op : Router.TreasuryOp)
  | quoteSwap (dex sellToken buyToken : Address)
  | claimAllRefunds (user tokenAddress : Address)
  | migrateUserRecord (user : Address)

def OtherOp.toOp : OtherOp → Router.Op
  | .administer op => .administer op
  | .configure op => .configure op
  | .timelock op => .timelock op
  | .group op => .group op
  | .treasury op => .treasury op
  | .quoteSwap dex sellToken buyToken => .route (.quoteSwap dex sellToken buyToken)
  | .claimAllRefunds user tokenAddress => .route (.claimAllRefunds user tokenAddress)
  | .migrateUserRecord user => .route (.migrateUserRecord user)

/-- The two contracts, and what their SDK makes of keys, signatures and other functions' names. -/
structure Deployment where
  proxy : Proxy.Deployment
  router : Host
  toPublicKey : Bytes → Option PublicKey
  toSignature : Bytes → Option Signature
  toOther : String → List Val → Option OtherOp

section Decoding

def toAddress : Val → Option Address
  | .address a => some a
  | _ => none

def toI128 : Val → Option ℤ
  | .i128 n => some n
  | _ => none

def toVec {α : Type} (decode : Val → Option α) : Val → Option (List α)
  | .vec items => items.mapM decode
  | _ => none

def toPayment : Val → Option Router.Payment
  | .struct .payment [.i128 amount, .address recipient, .address sender, .address tokenAddress] =>
    some ⟨sender, recipient, tokenAddress, amount⟩
  | _ => none

def toSwapPayment : Val → Option Router.SwapPayment
  | .struct .swapPayment [.i128 amountIn, .address buyToken, .u64 deadline, .address dex,
      .i128 expectedAmountOut, .i128 minAmountOut, .address recipient, .address sellToken,
      .address sender] =>
    some ⟨sender, recipient, sellToken, buyToken, amountIn, minAmountOut, expectedAmountOut,
      deadline, dex⟩
  | _ => none

def toSplitRoute : Val → Option Router.SplitRoute
  | .struct .splitRoute [.address dexAddress, .i128 minAmountOut, .u32 weightBps] =>
    some ⟨dexAddress, weightBps, minAmountOut⟩
  | _ => none

def toQuote : Val → Option Router.Quote
  | .struct .quote [.i128 amountIn, .i128 amountOut, .u64 expiresAt, .address maker, .text quoteId,
      .address tokenIn, .address tokenOut] =>
    some ⟨quoteId, maker, tokenIn, tokenOut, amountIn, amountOut, expiresAt⟩
  | _ => none

/-- The router's entry point for a name and an argument vector: each has its own shape. -/
def Deployment.decode (d : Deployment) : Func → List Val → Option Router.Op
  | .routePayment, [.address sender, .address recipient, .address tokenAddress, .i128 amount] =>
    some (.route (.routePayment ⟨sender, recipient, tokenAddress, amount⟩))
  | .routePayments, [payments] => do
    let payments ← toVec toPayment payments
    pure (.route (.routePayments payments))
  | .routePaymentMeta, [.address sender, .bytes signerPubkey, .address recipient,
      .address tokenAddress, .i128 amount, .u64 nonce, .u64 deadline, .bytes signature] => do
    let signerPubkey ← d.toPublicKey signerPubkey
    let signature ← d.toSignature signature
    pure (.route (.routePaymentMeta ⟨sender, recipient, tokenAddress, amount⟩ signerPubkey nonce
      deadline signature))
  | .routePaymentWithQuote, [.address sender, .address recipient, quote, .bytes makerPubkey,
      .bytes signature] => do
    let quote ← toQuote quote
    let makerPubkey ← d.toPublicKey makerPubkey
    let signature ← d.toSignature signature
    pure (.route (.routePaymentWithQuote sender recipient quote makerPubkey signature))
  | .routePaymentWithSwapRaw, [.address sender, .address recipient, .address dexRouter,
      .address tokenIn, .address tokenOut, .i128 amountIn, path, .i128 minAmountOut] => do
    let path ← toVec toAddress path
    pure (.route (.routePaymentWithSwapRaw sender recipient dexRouter tokenIn tokenOut amountIn path
      minAmountOut))
  | .routePaymentWithSwap, [payment] => do
    let payment ← toSwapPayment payment
    pure (.route (.routePaymentWithSwap payment))
  | .routePaymentsWithSwap, [payments] => do
    let payments ← toVec toSwapPayment payments
    pure (.route (.routePaymentsWithSwap payments))
  | .routeSplitPaymentWithSwap, [.address sender, .address recipient, .address sellToken,
      .address buyToken, .i128 amountIn, splits] => do
    let splits ← toVec toSplitRoute splits
    pure (.route (.routeSplitPaymentWithSwap sender recipient sellToken buyToken amountIn splits))
  | .routeMultihopSwap, [.address sender, .address recipient, .address dex, .i128 amountIn, path,
      floors] => do
    let path ← toVec toAddress path
    let floors ← toVec toI128 floors
    pure (.route (.routeMultihopSwap sender recipient dex amountIn path floors))
  | .withdrawRefund, [.address user, .address tokenAddress, .i128 amount] =>
    some (.route (.withdrawRefund user tokenAddress amount))
  | .other symbol, args => (d.toOther symbol args).map OtherOp.toOp
  | _, _ => none

end Decoding

/-- The state of both contracts. They see the same tokens. -/
structure System where
  proxy : Proxy.State
  router : Router.State
  shared : router.traffic.tokens = proxy.tokens

def System.fresh (tokens : Ledger Address Address) : System := ⟨.fresh tokens, .fresh tokens, rfl⟩

inductive Entry : Type
  | proxy (op : Proxy.Op)
  | router (op : Router.Op)

/-- One transaction: an entry point of either contract, what it runs under, and what a logic
contract other than the router would make of a forwarded call. -/
structure Move where
  env : Router.Env
  entry : Entry
  elsewhere : Address → Func → List Val → Ledger Address Address →
    Option (Ledger Address Address) := fun _ _ _ _ => none

def holding (s : Router.State) (tokens : Ledger Address Address) : Router.State :=
  { s with traffic := { s.traffic with tokens } }

def forwarded : Proxy.Op → Option (Func × List Val)
  | .forward func args | .forwardWithMeta _ _ _ func args => some (func, args)
  | _ => none

section Step

variable (d : Deployment) (m : Move) (s : System)

def answer (env : Router.Env) (func : Func) (args : List Val) (s : Router.State) :
    Option Router.State :=
  (d.decode func args).bind fun op =>
    match op.invoke d.router env s with
    | .ok (_, t) => some t
    | .error _ => none

/-- Nobody authorises a proxy's call for the router, which calls no proxy. -/
def Move.proxyEnv (s : Router.State) : Proxy.Env where
  timestamp := m.env.timestamp
  auth := m.env.authorises d.router
  accepts n := (m.env.reply n).accepts
  logic logic func args tokens :=
    if logic = d.router.self then
      (answer d m.env func args (holding s tokens)).map fun t => t.traffic.tokens
    else m.elsewhere logic func args tokens

def System.routed : Option Router.Op :=
  match m.entry with
  | .router _ => none
  | .proxy op =>
    if s.proxy.logicContract = some d.router.self then
      (forwarded op).bind fun call => d.decode call.1 call.2
    else none

def System.accepts : Bool :=
  match m.entry with
  | .router _ => false
  | .proxy op => Tx.succeeds (op.invoke d.proxy (m.proxyEnv d s.router)) s.proxy

def System.followed : Router.State :=
  match s.routed d m with
  | some op => Router.step d.router ⟨m.env, op⟩ s.router
  | none => s.router

def step : System :=
  match m.entry with
  | .router op =>
    let router := Router.step d.router ⟨m.env, op⟩ s.router
    ⟨{ s.proxy with tokens := router.traffic.tokens }, router, rfl⟩
  | .proxy op =>
    match op.invoke d.proxy (m.proxyEnv d s.router) s.proxy with
    | .ok (_, proxy) => ⟨proxy, holding (s.followed d m) proxy.tokens, rfl⟩
    | .error _ => s

def after (tokens : Ledger Address Address) (moves : List Move) : System :=
  run (step d) (System.fresh tokens) moves

end Step

end StellarTags.Delegation
