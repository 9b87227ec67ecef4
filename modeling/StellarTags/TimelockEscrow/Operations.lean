import StellarTags.Library.Integers
import StellarTags.Library.Runs
import StellarTags.Library.Tokens
import StellarTags.Soroban.Values

/-! The timelock escrow: deposits under fresh ids, claims once their time has come, and its runs. -/

namespace StellarTags.TimelockEscrow

open Library.Transactions Library.Integers Library.Runs Library.Tokens Soroban

inductive Error : Type
  | invalidAmount
  | alreadyClaimed
  | stillLocked
  | notFound
  deriving DecidableEq, Repr

structure Escrow where
  depositor : Address
  recipient : Address
  token : Address
  amount : ℤ
  releaseTime : ℕ
  claimed : Bool
  deriving DecidableEq, Repr

/-- A payment by the contract. -/
structure Payment where
  token : Address
  target : Address
  amount : ℤ
  deriving DecidableEq, Repr

structure State where
  counter : Option ℕ := none
  escrow : ℕ → Option Escrow := fun _ => none
  tokens : Ledger Address Address
  /-- What the contract has paid so far, the newest first. -/
  payments : List Payment := []

def State.fresh (tokens : Ledger Address Address) : State := { tokens }

structure Env where
  timestamp : ℕ := 0
  auth : Address → Bool := fun _ => false
  /-- Whether the token accepts the call's transfer. -/
  accepts : Bool := false

def Env.authorises (env : Env) (d : Host) (a : Address) : Bool := env.auth a && decide (a ≠ d.self)

namespace State

def getCounter (s : State) : ℕ := s.counter.getD 0

def putEscrow (s : State) (id : ℕ) (escrow : Escrow) : State :=
  { s with escrow := Function.update s.escrow id (some escrow) }

end State

def transfer (env : Env) (token source target : Address) (amount : ℤ) : Tx State Error Unit := do
  let tokens ← Tx.read State.tokens
  match tokens.apply (.transfer token source target amount) with
  | some tokens => do
    Tx.demand (env.accepts = true)
    Tx.update fun s => { s with tokens }
  | none => Tx.trap

def pay (d : Host) (env : Env) (token target : Address) (amount : ℤ) : Tx State Error Unit := do
  transfer env token d.self target amount
  Tx.update fun s => { s with payments := ⟨token, target, amount⟩ :: s.payments }

def deposit (d : Host) (env : Env) (depositor recipient token : Address) (amount : ℤ)
    (releaseTime : ℕ) : Tx State Error ℕ := do
  Tx.demand (env.authorises d depositor)
  Tx.reject (amount ≤ 0) .invalidAmount
  transfer env token depositor d.self amount
  let counter ← Tx.read State.getCounter
  let id ← addU64 counter 1
  Tx.update fun s => { s with counter := some id }
  Tx.update fun s => s.putEscrow id ⟨depositor, recipient, token, amount, releaseTime, false⟩
  pure id

def claim (d : Host) (env : Env) (id : ℕ) : Tx State Error Unit := do
  let stored ← Tx.read fun s => s.escrow id
  let escrow ← Tx.unwrap stored .notFound
  Tx.reject (escrow.claimed = true) .alreadyClaimed
  Tx.reject (env.timestamp < escrow.releaseTime) .stillLocked
  pay d env escrow.token escrow.recipient escrow.amount
  Tx.update fun s => s.putEscrow id { escrow with claimed := true }

/-- The entry points, and what others do with the tokens between calls. -/
inductive Op : Type
  | deposit (depositor recipient token : Address) (amount : I128) (releaseTime : ℕ)
  | claim (id : ℕ)
  | outside (call : TokenCall Address Address)
  deriving DecidableEq

def Op.invoke (d : Host) (env : Env) : Op → Tx State Error Unit
  | .deposit depositor recipient token amount releaseTime =>
    Tx.void (TimelockEscrow.deposit d env depositor recipient token amount releaseTime)
  | .claim id => TimelockEscrow.claim d env id
  | .outside call => Tx.update fun s => { s with tokens := s.tokens.others d.self [call] }

structure Call where
  env : Env
  op : Op

def step (d : Host) (call : Call) : State → State := Tx.commit (call.op.invoke d call.env)

def after (d : Host) (tokens : Ledger Address Address) (calls : List Call) : State :=
  run (step d) (State.fresh tokens) calls

end StellarTags.TimelockEscrow
