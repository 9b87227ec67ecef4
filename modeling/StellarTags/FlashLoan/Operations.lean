import StellarTags.Library.Integers
import StellarTags.Library.Runs
import StellarTags.Library.Tokens
import StellarTags.Soroban.Values

/-! The flash-loan provider: its fees, its loan with the borrower's callback inside, and its runs. -/

namespace StellarTags.FlashLoan

open Library.Transactions Library.Integers Library.Runs Library.Tokens Soroban

inductive Error : Type
  | invalidAmount
  | insufficientLiquidity
  | loanAlreadyActive
  | arithmeticOverflow
  | repaymentTooLow
  | reentrancyGuard
  deriving DecidableEq, Repr

structure Event where
  borrower : Address
  token : Address
  initiator : Address
  amount : ℤ
  fee : ℤ
  deriving DecidableEq, Repr

structure State where
  reentrancyLock : Option Bool := none
  tokens : Ledger Address Address
  /-- The loans so far, the newest first. -/
  history : List Event := []

def State.fresh (tokens : Ledger Address Address) : State := { tokens }

def State.setLock (s : State) (lock : Option Bool) : State := { s with reentrancyLock := lock }

structure Env where
  auth : Address → Bool := fun _ => false
  /-- Whether the token accepts the provider's transfer. -/
  accepts : Bool := false

def Env.authorises (env : Env) (d : Host) (a : Address) : Bool := env.auth a && decide (a ≠ d.self)

def baseFeeBps : ℤ := 5
def kinkFeeBps : ℤ := 10
def maxFeeBps : ℤ := 50
def kinkUtilizationBps : ℤ := 8000
def bpsDivisor : ℤ := 10000

section Fees

def checked (n : ℤ) : Tx State Error ℤ := do
  Tx.reject (¬ FitsI128 n) .arithmeticOverflow
  pure n

def ceilDiv (numerator denominator : ℤ) : Tx State Error ℤ := do
  let raised ← checked (numerator + (denominator - 1))
  pure (raised.tdiv denominator)

def calculateAmountFee (amount feeBps : ℤ) : Tx State Error ℤ := do
  Tx.reject (amount ≤ 0) .invalidAmount
  let product ← checked (amount * feeBps)
  let raised ← checked (product + (bpsDivisor - 1))
  pure (raised.tdiv bpsDivisor)

def utilizationFeeBps (utilizationBps : ℤ) : Tx State Error ℤ :=
  if utilizationBps ≤ kinkUtilizationBps then do
    let product ← checked (baseFeeBps * utilizationBps)
    let increase ← ceilDiv product kinkUtilizationBps
    pure (baseFeeBps + increase)
  else do
    let product ← checked ((maxFeeBps - kinkFeeBps) * (utilizationBps - kinkUtilizationBps))
    let increase ← ceilDiv product (bpsDivisor - kinkUtilizationBps)
    pure (kinkFeeBps + increase)

def calculateFee (amount reserves : ℤ) : Tx State Error ℤ := do
  Tx.reject (amount ≤ 0) .invalidAmount
  Tx.reject (reserves ≤ 0 ∨ reserves < amount) .insufficientLiquidity
  let product ← checked (amount * bpsDivisor)
  let raised ← checked (product + (reserves - 1))
  let feeBps ← utilizationFeeBps (raised.tdiv reserves)
  calculateAmountFee amount (min feeBps maxFeeBps)

variable (d : Host)

def State.reserves (s : State) (token : Address) : ℤ := s.tokens.balance token d.self

def getFlashLoanFee (amount : ℤ) (token : Address) : Tx State Error ℤ := do
  let reserves ← Tx.read fun s => s.reserves d token
  calculateFee amount reserves

def flashFee (amount : ℤ) : Tx State Error ℤ := calculateAmountFee amount baseFeeBps

end Fees

structure Request where
  initiator : Address
  borrower : Address
  token : Address
  amount : I128

def transferOut (d : Host) (env : Env) (token target : Address) (amount : ℤ) :
    Tx State Error Unit := do
  let tokens ← Tx.read State.tokens
  match tokens.apply (.transfer token d.self target amount) with
  | some tokens => do
    Tx.demand (env.accepts = true)
    Tx.update fun s => { s with tokens }
  | none => Tx.trap

def flashLoan (d : Host) (env : Env) (request : Request)
    (onFlashLoan : (fee : ℤ) → Tx State Error Unit) : Tx State Error ℤ := do
  let locked ← Tx.read fun s => s.reentrancyLock.getD false
  Tx.reject (locked = true) .reentrancyGuard
  Tx.demand (env.authorises d request.initiator)
  Tx.update fun s => s.setLock (some true)
  let balanceBefore ← Tx.read fun s => s.reserves d request.token
  Tx.reject (balanceBefore < request.amount) .insufficientLiquidity
  let fee ← calculateFee request.amount balanceBefore
  let requiredBalance ← checked (balanceBefore + fee)
  transferOut d env request.token request.borrower request.amount
  -- The provider itself has no such function to invoke.
  Tx.demand (request.borrower ≠ d.self)
  onFlashLoan fee
  let balance ← Tx.read fun s => s.reserves d request.token
  Tx.reject (balance < requiredBalance) .repaymentTooLow
  Tx.update fun s => s.setLock none
  Tx.update fun s => { s with
    history := ⟨request.borrower, request.token, request.initiator, request.amount, fee⟩ ::
      s.history }
  pure fee

section Callbacks

/-- The call's result if it succeeds; otherwise what it did is undone, traps included. -/
def tryInvokeContract {α : Type} (m : Tx State Error α) : Tx State Error (Option α) := fun s =>
  match m s with
  | .ok (a, t) => .ok (some a, t)
  | .error _ => .ok (none, s)

/-- A borrower's code. It sees everything, calls the tokens as anyone but the provider, and calls
the provider with loans of its own, whose callbacks may do the same. -/
inductive Callback : Type
  | done
  | trap
  | observe (next : State → Callback)
  | token (call : TokenCall Address Address) (next : Bool → Callback)
  | loan (request : Request) (callback : ℤ → Callback) (next : Option ℤ → Callback)

def callToken (d : Host) (call : TokenCall Address Address) : Tx State Error Bool := do
  let tokens ← Tx.read State.tokens
  match (if call.principal = some d.self then none else tokens.apply call) with
  | some tokens => do
    Tx.update fun s => { s with tokens }
    pure true
  | none => pure false

def perform (d : Host) (env : Env) : Callback → Tx State Error Unit
  | .done => pure ()
  | .trap => Tx.trap
  | .observe next => do
    let s ← Tx.read id
    perform d env (next s)
  | .token call next => do
    let accepted ← callToken d call
    perform d env (next accepted)
  | .loan request callback next => do
    let fee ← tryInvokeContract (flashLoan d env request fun fee => perform d env (callback fee))
    perform d env (next fee)

end Callbacks

/-- The entry points, and what others do with the tokens between calls. -/
inductive Op : Type
  | getFlashLoanFee (amount : I128) (token : Address)
  | flashFee (amount : I128)
  | flashLoan (request : Request) (callback : ℤ → Callback)
  | outside (call : TokenCall Address Address)

def Op.invoke (d : Host) (env : Env) : Op → Tx State Error Unit
  | .getFlashLoanFee amount token => Tx.void (FlashLoan.getFlashLoanFee d amount token)
  | .flashFee amount => Tx.void (FlashLoan.flashFee amount)
  | .flashLoan request callback =>
    Tx.void (FlashLoan.flashLoan d env request fun fee => perform d env (callback fee))
  | .outside call => Tx.update fun s => { s with tokens := s.tokens.others d.self [call] }

structure Call where
  env : Env
  op : Op

def step (d : Host) (call : Call) : State → State := Tx.commit (call.op.invoke d call.env)

def after (d : Host) (tokens : Ledger Address Address) (calls : List Call) : State :=
  run (step d) (State.fresh tokens) calls

end StellarTags.FlashLoan
