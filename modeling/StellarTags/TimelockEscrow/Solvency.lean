import StellarTags.Library.Dockets
import StellarTags.Library.Holdings
import StellarTags.TimelockEscrow.Operations

/-! Every open escrow is covered, and each pays its recipient once, when it is due. -/

namespace StellarTags.TimelockEscrow

open Library.Transactions Library.Integers Library.Runs Library.Tokens Library.Dockets
open Library.Reserves Soroban

/-- What an escrow holds of a token: its amount until it is claimed. -/
def State.owed (s : State) (token : Address) (id : ℕ) : ℤ :=
  match s.escrow id with
  | some escrow => if escrow.token = token ∧ escrow.claimed = false then escrow.amount else 0
  | none => 0

def State.pending (s : State) (id : ℕ) : Option Escrow :=
  (s.escrow id).filter fun escrow => !escrow.claimed

def Escrow.Due (escrow : Escrow) (time : ℕ) : Prop := escrow.releaseTime ≤ time

def Escrow.payment (escrow : Escrow) : Payment := ⟨escrow.token, escrow.recipient, escrow.amount⟩

/-- What a call files or pays out, if it succeeds. -/
def emitted (d : Host) (s : State) (call : Call) : List (Event Escrow) :=
  match call.op with
  | .deposit depositor recipient token amount releaseTime =>
    match deposit d call.env depositor recipient token amount releaseTime s with
    | .ok (id, _) => [.filed id ⟨depositor, recipient, token, amount, releaseTime, false⟩]
    | .error _ => []
  | .claim id =>
    match s.escrow id, claim d call.env id s with
    | some escrow, .ok _ => [.served id escrow call.env.timestamp]
    | _, _ => []
  | .outside _ => []

def payouts (log : List (Event Escrow)) : List Payment :=
  log.filterMap fun
    | .served _ escrow _ => some escrow.payment
    | .filed _ _ | .struck _ => none

variable {d : Host} {env : Env} {s t : State} {u : Unit} {token : Address} {id : ℕ}
  {log : List (Event Escrow)} {call : Call}

section Inversion

variable {depositor recipient source target : Address} {amount : ℤ} {releaseTime : ℕ}
  {escrow : Escrow}

lemma transfer_ok : transfer env token source target amount s = .ok (u, t) ↔
    env.accepts = true ∧ ∃ tokens, s.tokens.apply (.transfer token source target amount) =
      some tokens ∧ t = { s with tokens } := by
  rw [transfer, Tx.read_bind]
  cases s.tokens.apply (.transfer token source target amount) with
  | none => simp
  | some tokens => simp

def State.deposited (s : State) (tokens : Ledger Address Address) (escrow : Escrow) : State :=
  { s with
    counter := some (s.getCounter + 1)
    escrow := Function.update s.escrow (s.getCounter + 1) (some escrow)
    tokens }

def State.settled (s : State) (tokens : Ledger Address Address) (id : ℕ) (escrow : Escrow) : State :=
  { s with
    escrow := Function.update s.escrow id (some { escrow with claimed := true })
    tokens
    payments := escrow.payment :: s.payments }

lemma deposit_ok (h : deposit d env depositor recipient token amount releaseTime s = .ok (id, t)) :
    depositor ≠ d.self ∧ 0 < amount ∧ id = s.getCounter + 1 ∧
      ∃ tokens, s.tokens.apply (.transfer token depositor d.self amount) = some tokens ∧
        t = s.deposited tokens ⟨depositor, recipient, token, amount, releaseTime, false⟩ := by
  simp only [deposit, Tx.demand_bind_ok, Tx.reject_bind_ok, not_le] at h
  obtain ⟨hauth, hpositive, h⟩ := h
  obtain ⟨_, v, htransfer, h⟩ := Tx.bind_ok.mp h
  obtain ⟨-, tokens, happly, rfl⟩ := transfer_ok.mp htransfer
  simp only [Tx.read_bind, addU64_bind_ok, Tx.update_bind, Tx.pure_ok] at h
  obtain ⟨-, rfl, rfl⟩ := h
  simp only [Env.authorises, Bool.and_eq_true, decide_eq_true_eq] at hauth
  exact ⟨hauth.2, hpositive, rfl, tokens, happly, rfl⟩

lemma claim_ok (h : claim d env id s = .ok (u, t)) :
    ∃ escrow, s.escrow id = some escrow ∧ escrow.claimed = false ∧ escrow.Due env.timestamp ∧
      ∃ tokens, s.tokens.apply (.transfer escrow.token d.self escrow.recipient escrow.amount) =
        some tokens ∧ t = s.settled tokens id escrow := by
  simp only [claim, Tx.read_bind, Tx.unwrap_bind_ok, Tx.reject_bind_ok, not_lt] at h
  obtain ⟨escrow, hfound, hopen, hdue, h⟩ := h
  obtain ⟨_, v, hpay, h⟩ := Tx.bind_ok.mp h
  obtain ⟨_, w, htransfer, hpay⟩ := Tx.bind_ok.mp hpay
  obtain ⟨-, tokens, happly, rfl⟩ := transfer_ok.mp htransfer
  obtain rfl := Tx.update_ok.mp hpay
  obtain rfl := Tx.update_ok.mp h
  exact ⟨escrow, hfound, by simpa using hopen, hdue, tokens, happly, rfl⟩

end Inversion

/-- What holds of the state reached and of all that was filed and paid on the way. -/
structure Kept (d : Host) (log : List (Event Escrow)) (s : State) : Prop where
  orderly : Orderly Escrow.Due s.pending s.getCounter log
  numbered : ∀ id escrow, s.escrow id = some escrow → id ≤ s.getCounter
  covered : ∀ token, Backed (s.owed token) (s.tokens.balance token d.self)
  unlent : s.tokens.Unlent d.self
  paid : s.payments.reverse = payouts log

section Deposits

variable {tokens : Ledger Address Address} {escrow : Escrow}

lemma escrow_deposited : (s.deposited tokens escrow).escrow =
    Function.update s.escrow (s.getCounter + 1) (some escrow) := rfl

lemma pending_deposited (h : escrow.claimed = false) : (s.deposited tokens escrow).pending =
    Function.update s.pending (s.getCounter + 1) (some escrow) := by
  funext id
  by_cases hid : id = s.getCounter + 1
  · simp [State.pending, State.deposited, hid, h]
  · simp [State.pending, State.deposited, hid]

lemma owed_deposited (h : escrow.claimed = false) : (s.deposited tokens escrow).owed token =
    Function.update (s.owed token) (s.getCounter + 1)
      (if escrow.token = token then escrow.amount else 0) := by
  funext id
  by_cases hid : id = s.getCounter + 1
  · simp [State.owed, State.deposited, hid, h]
  · simp [State.owed, State.deposited, hid]

lemma Kept.deposited (hs : Kept d log s) (hopen : escrow.claimed = false)
    (hdepositor : escrow.depositor ≠ d.self) (hpositive : 0 < escrow.amount)
    (happly : s.tokens.apply (.transfer escrow.token escrow.depositor d.self escrow.amount) =
      some tokens) :
    Kept d (log ++ [.filed (s.getCounter + 1) escrow]) (s.deposited tokens escrow) where
  orderly := by
    rw [pending_deposited hopen]
    exact hs.orderly.file (Nat.lt_succ_self _) escrow
  numbered id record hid := by
    by_cases hnew : id = s.getCounter + 1
    · exact hnew.le
    · rw [escrow_deposited, Function.update_of_ne hnew] at hid
      exact (hs.numbered id record hid).trans (Nat.le_succ _)
  covered token := by
    have hfresh : s.owed token (s.getCounter + 1) = 0 := by
      cases hfound : s.escrow (s.getCounter + 1) with
      | none => simp [State.owed, hfound]
      | some record => exact absurd (hs.numbered _ record hfound) (Nat.not_succ_le_self _)
    have hcredit := (hs.covered token).credit (s.getCounter + 1)
      (n := if escrow.token = token then escrow.amount else 0) (by split_ifs <;> omega)
    have hbalance : tokens.balance token d.self = s.tokens.balance token d.self +
        if escrow.token = token then escrow.amount else 0 := by
      rw [Ledger.apply_flow happly token d.self, TokenCall.flow]
      simp [hdepositor.symm, eq_comm]
    rw [owed_deposited hopen, State.deposited, hbalance]
    rwa [hfresh, zero_add] at hcredit
  unlent := Ledger.apply_transfer_unlent hs.unlent (by trivial) happly
  paid := by
    rw [payouts, List.filterMap_append, ← payouts, ← hs.paid]
    simp [State.deposited]

end Deposits

section Claims

variable {tokens : Ledger Address Address} {escrow : Escrow}

lemma escrow_settled : (s.settled tokens id escrow).escrow =
    Function.update s.escrow id (some { escrow with claimed := true }) := rfl

lemma pending_settled : (s.settled tokens id escrow).pending =
    Function.update s.pending id none := by
  funext x
  by_cases hx : x = id
  · simp [State.pending, State.settled, hx]
  · simp [State.pending, State.settled, hx]

lemma owed_settled : (s.settled tokens id escrow).owed token =
    Function.update (s.owed token) id 0 := by
  funext x
  by_cases hx : x = id
  · simp [State.owed, State.settled, hx]
  · simp [State.owed, State.settled, hx]

lemma Kept.settled {time : ℕ} (hs : Kept d log s) (hfound : s.escrow id = some escrow)
    (hopen : escrow.claimed = false) (hdue : escrow.Due time)
    (happly : s.tokens.apply (.transfer escrow.token d.self escrow.recipient escrow.amount) =
      some tokens) :
    Kept d (log ++ [.served id escrow time]) (s.settled tokens id escrow) where
  orderly := by
    rw [pending_settled]
    exact hs.orderly.serve (by simp [State.pending, hfound, hopen]) hdue
  numbered x record hx := by
    by_cases hsame : x = id
    · rw [hsame]
      exact hs.numbered id escrow hfound
    · rw [escrow_settled, Function.update_of_ne hsame] at hx
      exact hs.numbered x record hx
  covered token := by
    have howed : s.owed token id = if escrow.token = token then escrow.amount else 0 := by
      simp [State.owed, hfound, hopen]
    have hdebit := (hs.covered token).debit id le_rfl
    rw [sub_self] at hdebit
    have hnonneg := (hs.covered token).nonneg id
    have hbalance := Ledger.apply_flow happly token d.self
    rw [owed_settled]
    apply hdebit.mono
    -- The contract may be the recipient of an escrow itself, and then keeps the amount.
    by_cases htoken : escrow.token = token
    · subst htoken
      by_cases hrecipient : escrow.recipient = d.self
      · simp [TokenCall.flow, hrecipient] at hbalance howed
        simp only [State.settled]
        omega
      · simp [TokenCall.flow, Ne.symm hrecipient] at hbalance howed
        simp only [State.settled]
        omega
    · simp [TokenCall.flow, Ne.symm htoken, htoken] at hbalance howed
      simp only [State.settled]
      omega
  unlent := Ledger.apply_transfer_unlent hs.unlent (by trivial) happly
  paid := by
    rw [payouts, List.filterMap_append, ← payouts, ← hs.paid]
    simp [State.settled]

end Claims

lemma Kept.outside (hs : Kept d log s) (call : TokenCall Address Address) :
    Kept d log { s with tokens := s.tokens.others d.self [call] } where
  orderly := hs.orderly
  numbered := hs.numbered
  covered token := (hs.covered token).mono (Ledger.others_balance hs.unlent [call] token)
  unlent := Ledger.others_unlent hs.unlent [call]
  paid := hs.paid

lemma step_kept (call : Call) (hs : Kept d log s) :
    Kept d (log ++ emitted d s call) (step d call s) := by
  obtain ⟨env, op⟩ := call
  cases op with
  | deposit depositor recipient token amount releaseTime =>
    cases h : deposit d env depositor recipient token amount releaseTime s with
    | error failure =>
      have hstep : step d ⟨env, .deposit depositor recipient token amount releaseTime⟩ s = s := by
        rw [step, Op.invoke, Tx.commit, Tx.void, Tx.bind_of_error h]
      simpa [emitted, h, hstep] using hs
    | ok result =>
      obtain ⟨id, t⟩ := result
      have hstep : step d ⟨env, .deposit depositor recipient token amount releaseTime⟩ s = t :=
        Tx.commit_ok (Tx.void_ok (u := ()) |>.mpr ⟨id, h⟩)
      obtain ⟨hdepositor, hpositive, rfl, tokens, happly, rfl⟩ := deposit_ok h
      rw [hstep]
      simpa [emitted, h] using hs.deposited rfl hdepositor hpositive happly
  | claim id =>
    cases h : claim d env id s with
    | error failure =>
      have hstep : step d ⟨env, .claim id⟩ s = s := by rw [step, Op.invoke, Tx.commit, h]
      simpa [emitted, h, hstep] using hs
    | ok result =>
      obtain ⟨_, t⟩ := result
      have hstep : step d ⟨env, .claim id⟩ s = t := Tx.commit_ok h
      obtain ⟨escrow, hfound, hopen, hdue, tokens, happly, rfl⟩ := claim_ok h
      rw [hstep]
      simpa [emitted, h, hfound] using hs.settled hfound hopen hdue happly
  | outside call =>
    rw [emitted, List.append_nil]
    exact hs.outside call

/-- What a run leaves behind: all open escrows covered, and its events in order. An id is filed once,
under a number that was not there before; it is paid out only while it is open, so at most once, as
it was filed, when it is due; and nothing else is ever paid. -/
structure Honoured (d : Host) (s : State) (log : List (Event Escrow)) : Prop where
  numbered : ∀ id escrow, s.escrow id = some escrow → id ≤ s.getCounter
  covered : ∀ token, Backed (s.owed token) (s.tokens.balance token d.self)
  inOrder : ∀ before event later, log = before ++ event :: later → event.Follows Escrow.Due before
  paid : s.payments.reverse = payouts log

theorem escrows_honoured (d : Host) (tokens : Ledger Address Address) (hl : tokens.Unlent d.self)
    (hb : ∀ token, 0 ≤ tokens.balance token d.self) (calls : List Call) :
    Honoured d (after d tokens calls) (trace (step d) (emitted d) (State.fresh tokens) calls) := by
  have hfresh : Kept d [] (State.fresh tokens) :=
    ⟨.start, by simp [State.fresh], fun token => .empty (hb token), hl, rfl⟩
  have hkept := trace_invariant (fun log s call hs => step_kept call hs) hfresh calls
  exact ⟨hkept.numbered, hkept.covered, fun _ _ _ h => hkept.orderly.follows h, hkept.paid⟩

section Examples

def emptyTokens : Ledger Address Address := ⟨fun _ _ => 0, fun _ _ _ => 0⟩

/-- Two escrows, the second for the contract itself; both are claimed twice, the first too early
besides. -/
def claimed : List Call :=
  [⟨{}, .outside (.mint ⟨9⟩ ⟨2⟩ 100)⟩,
    ⟨{ auth := fun _ => true, accepts := true }, .deposit ⟨2⟩ ⟨3⟩ ⟨9⟩ ⟨60, by decide⟩ 20⟩,
    ⟨{ auth := fun _ => true, accepts := true }, .deposit ⟨2⟩ ⟨0⟩ ⟨9⟩ ⟨40, fitsI128_forty⟩ 0⟩,
    ⟨{ timestamp := 19, accepts := true }, .claim 1⟩, ⟨{ timestamp := 20, accepts := true }, .claim 1⟩,
    ⟨{ timestamp := 21, accepts := true }, .claim 1⟩, ⟨{ timestamp := 21, accepts := true }, .claim 2⟩,
    ⟨{ timestamp := 21, accepts := true }, .claim 2⟩]

example : (after Host.sample emptyTokens claimed).payments =
    [⟨⟨9⟩, ⟨0⟩, 40⟩, ⟨⟨9⟩, ⟨3⟩, 60⟩] := by decide +kernel

theorem escrows_honoured_claimed : Honoured Host.sample (after Host.sample emptyTokens claimed)
    (trace (step Host.sample) (emitted Host.sample) (State.fresh emptyTokens) claimed) :=
  escrows_honoured Host.sample emptyTokens (fun _ _ => le_rfl) (fun _ => le_rfl) claimed

end Examples

end StellarTags.TimelockEscrow
