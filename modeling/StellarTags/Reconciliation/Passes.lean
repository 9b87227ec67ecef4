import Mathlib.Algebra.Order.Ring.Rat
import Mathlib.Algebra.Order.Group.Unbundled.Abs
import Mathlib.Data.List.Sort
import StellarTags.Library.Tables

/-! The pass that settles stale pending payments from what Horizon answers. -/

namespace StellarTags.Reconciliation

open Library

section Data

/-- Times are in milliseconds. -/
structure Payment where
  id : String
  createdAt : ℤ
  fromAddress : String
  toAddress : String
  amount : ℚ
  transactionHash : Option String := none
  status : String
  deletedAt : Option ℤ := none
  memo : Option String := none
  paymentRef : Option String := none
  deriving DecidableEq, Repr

/-- A payment operation as Horizon lists it; the amount is none if its text is no number. The
`id` and the time are not looked at. -/
structure Operation where
  id : String
  createdAt : ℤ
  type : String
  fromAccount : String
  toAccount : String
  amount : Option ℚ
  memo : Option String := none
  transaction_hash : Option String := none
  deriving DecidableEq, Repr

structure Transaction where
  hash : String
  successful : Option Bool
  deriving DecidableEq, Repr

structure FetchError where
  name : String := "Error"
  status : Option ℕ := none
  message : String := ""
  deriving DecidableEq, Repr

/-- The pages of an account's payments have a limit, and the latest payment comes first. An answer
can be empty. -/
structure Horizon where
  fetchTransaction : String → Except FetchError (Option Transaction)
  fetchPaymentsForAccount : String → ℕ → Except FetchError (Option (List Operation))

inductive EventType
  | PAYMENT_COMPLETED
  | PAYMENT_FAILED
  deriving DecidableEq, Repr

structure SettlementEvent where
  paymentId : String
  eventType : EventType
  status : String
  previousStatus : String
  transactionHash : Option String
  reconciledBy : String := "ledger-reconciliation-cron"
  reason : String
  source : String := "reconciliation-cron"
  deriving DecidableEq, Repr

structure Stats where
  scanned : ℕ
  confirmed : ℕ := 0
  failed : ℕ := 0
  pending : ℕ := 0
  skipped : ℕ := 0
  errors : ℕ := 0
  deriving DecidableEq, Repr

structure Books where
  payments : List Payment
  events : List SettlementEvent
  deriving DecidableEq, Repr

/-- What a pass meets on its way, by the payment it is at: Horizon, and whether an event gets
stored. -/
structure Surroundings where
  horizon : String → Horizon
  appends : String → Bool

structure Settings where
  STALE_PENDING_MINUTES : ℕ := 5
  FAIL_AFTER_MINUTES : ℕ := 120
  RECONCILE_BATCH_LIMIT : ℕ := 200
  batch_limit_pos : 0 < RECONCILE_BATCH_LIMIT := by decide

end Data

section Code

def PENDING_STATUSES : List String := ["pending", "PENDING", "created", "routed"]

def SUCCESS : String := "SUCCESS"

def FAILED : String := "FAILED"

def SETTLED_STATUSES : List String := [SUCCESS, FAILED]

def PAYMENT_OP_TYPES : List String :=
  ["payment", "path_payment_strict_receive", "path_payment_strict_send"]

def isCircuitOpenError (error : FetchError) : Bool :=
  decide (error.name = "CircuitBreakerOpenError")

def isNotFoundError (error : FetchError) : Bool := decide (error.status = some 404)

/-- An empty text counts for none. -/
def text (value : Option String) : Option String := value.filter (· ≠ "")

def amountsMatch (a : Option ℚ) (b : ℚ) : Bool :=
  match a with
  | none => false
  | some a => decide (|a - b| < 1 / 10000)

/-- What is decided on a payment before the database is asked again. -/
inductive Outcome
  | finalize (status : String) (transactionHash : Option String) (reason : String)
  | leave
  deriving DecidableEq, Repr

/-- With the counter that goes up. -/
structure Decision where
  outcome : Outcome
  count : Stats → Stats

def Stats.confirm (stats : Stats) : Stats := { stats with confirmed := stats.confirmed + 1 }

def Stats.fail (stats : Stats) : Stats := { stats with failed := stats.failed + 1 }

def Stats.wait (stats : Stats) : Stats := { stats with pending := stats.pending + 1 }

def Stats.skip (stats : Stats) : Stats := { stats with skipped := stats.skipped + 1 }

def Stats.err (stats : Stats) : Stats := { stats with errors := stats.errors + 1 }

def reconcileByTransactionHash (answer : Except FetchError (Option Transaction)) (payment : Payment)
    (failCutoff : ℤ) : Decision :=
  match answer with
  | .error error =>
    if isCircuitOpenError error then ⟨.leave, Stats.skip⟩
    else if isNotFoundError error then
      if payment.createdAt ≤ failCutoff then
        ⟨.finalize FAILED none "Transaction hash never appeared on the Stellar ledger", Stats.fail⟩
      else ⟨.leave, Stats.wait⟩
    else ⟨.leave, Stats.err⟩
  | .ok tx =>
    if tx.any (·.successful = some false) then
      ⟨.finalize FAILED none "Transaction found on-chain but was not successful", Stats.fail⟩
    else
      ⟨.finalize SUCCESS (text payment.transactionHash)
        "Transaction confirmed successful on the Stellar ledger", Stats.confirm⟩

def memoOf (payment : Payment) : Option String := (text payment.memo).or (text payment.paymentRef)

def operationMatches (payment : Payment) (op : Operation) : Bool :=
  decide (op.type ∈ PAYMENT_OP_TYPES) &&
  decide (op.toAccount = payment.toAddress ∧ op.fromAccount = payment.fromAddress) &&
  amountsMatch op.amount payment.amount &&
  decide (∀ memo ∈ memoOf payment, ∀ opMemo ∈ text op.memo, opMemo = memo)

def reconcileByMemoOrReference (answer : Except FetchError (Option (List Operation)))
    (payment : Payment) : Decision :=
  match answer with
  | .error error =>
    if isCircuitOpenError error then ⟨.leave, Stats.skip⟩ else ⟨.leave, Stats.err⟩
  | .ok page =>
    match (page.getD []).find? (operationMatches payment) with
    | some op =>
      ⟨.finalize SUCCESS (text op.transaction_hash)
        (match memoOf payment with
          | some memo => s!"Matched on-chain payment by memo/reference {memo}"
          | none => "Matched on-chain payment by from/to/amount"), Stats.confirm⟩
    | none => ⟨.leave, Stats.wait⟩

def decision (horizon : Horizon) (failCutoff : ℤ) (payment : Payment) : Decision :=
  match text payment.transactionHash with
  | some hash => reconcileByTransactionHash (horizon.fetchTransaction hash) payment failCutoff
  | none => reconcileByMemoOrReference (horizon.fetchPaymentsForAccount payment.toAddress 50) payment

/-- The guarded update; its count says whether there was a pending row. -/
def updatePending (id status : String) (transactionHash : Option String)
    (payments : List Payment) : ℕ × List Payment :=
  Tables.updateMany (fun row => decide (row.id = id ∧ row.status ∈ PENDING_STATUSES))
    (fun row => { row with
      status := status, transactionHash := transactionHash.or row.transactionHash }) payments

def settlementEvent (payment : Payment) (status : String) (transactionHash : Option String)
    (reason : String) : SettlementEvent where
  paymentId := payment.id
  eventType := if status = SUCCESS then .PAYMENT_COMPLETED else .PAYMENT_FAILED
  status := status
  previousStatus := payment.status
  transactionHash := transactionHash.or (text payment.transactionHash)
  reason := reason

def finalizePayment (appends : Bool) (payment : Payment) (status : String)
    (transactionHash : Option String) (reason : String) (books : Books) : Books :=
  let (count, payments) := updatePending payment.id status transactionHash books.payments
  if count = 0 then books
  else
    { payments := payments
      events :=
        -- what goes wrong here is only logged
        if appends then books.events ++ [settlementEvent payment status transactionHash reason]
        else books.events }

def Outcome.apply (outcome : Outcome) (appends : Bool) (payment : Payment) (books : Books) : Books :=
  match outcome with
  | .finalize status transactionHash reason =>
    finalizePayment appends payment status transactionHash reason books
  | .leave => books

def reconcile (surroundings : Surroundings) (failCutoff : ℤ) (s : Books × Stats)
    (payment : Payment) : Books × Stats :=
  let decision := decision (surroundings.horizon payment.id) failCutoff payment
  (decision.outcome.apply (surroundings.appends payment.id) payment s.1, decision.count s.2)

def minutesBefore (now : ℤ) (minutes : ℕ) : ℤ := now - minutes * 60 * 1000

def stale (settings : Settings) (now : ℤ) (payment : Payment) : Bool :=
  decide (payment.status ∈ PENDING_STATUSES ∧ payment.deletedAt = none ∧
    payment.createdAt ≤ minutesBefore now settings.STALE_PENDING_MINUTES)

def findMany (settings : Settings) (now : ℤ) (payments : List Payment) : List Payment :=
  ((payments.filter (stale settings now)).insertionSort (·.createdAt ≤ ·.createdAt)).take
    settings.RECONCILE_BATCH_LIMIT

def runStalePendingReconciliation (settings : Settings) (surroundings : Surroundings) (now : ℤ)
    (books : Books) : Books × Stats :=
  let failCutoff := minutesBefore now settings.FAIL_AFTER_MINUTES
  let payments := findMany settings now books.payments
  payments.foldl (reconcile surroundings failCutoff) (books, { scanned := payments.length })

end Code

section Rows

variable {surroundings : Surroundings} {failCutoff : ℤ} {payment row : Payment} {outcome : Outcome}
  {books : Books} {appends : Bool} {horizon : Horizon}

lemma settled_not_pending {status : String} (h : status ∈ SETTLED_STATUSES) :
    status ∉ PENDING_STATUSES := by
  simp only [SETTLED_STATUSES, List.mem_cons, List.not_mem_nil, or_false] at h
  rcases h with rfl | rfl <;> decide

lemma decision_settled {status reason : String} {transactionHash : Option String}
    (h : (decision horizon failCutoff payment).outcome = .finalize status transactionHash reason) :
    status ∈ SETTLED_STATUSES := by
  have hsuccess : SUCCESS ∈ SETTLED_STATUSES := List.mem_cons_self
  have hfailed : FAILED ∈ SETTLED_STATUSES := List.mem_cons_of_mem _ List.mem_cons_self
  unfold decision at h
  split at h
  · unfold reconcileByTransactionHash at h
    split at h <;> split_ifs at h <;> cases h <;> assumption
  · unfold reconcileByMemoOrReference at h
    split at h
    · split_ifs at h
    · split at h <;> cases h
      exact hsuccess

/-- What an outcome makes of the row it is about. -/
def Outcome.change (outcome : Outcome) (row : Payment) : Payment :=
  match outcome with
  | .finalize status transactionHash _ =>
    if row.status ∈ PENDING_STATUSES then
      { row with status := status, transactionHash := transactionHash.or row.transactionHash }
    else row
  | .leave => row

@[simp] lemma Outcome.change_id : (outcome.change row).id = row.id := by
  cases outcome with
  | finalize =>
    rw [Outcome.change]
    split_ifs <;> rfl
  | leave => rfl

lemma updatePending_snd (id status reason : String) (transactionHash : Option String)
    (payments : List Payment) : (updatePending id status transactionHash payments).2 =
      payments.map fun row =>
        if row.id = id then (Outcome.finalize status transactionHash reason).change row else row := by
  apply List.map_congr_left
  intro row _
  by_cases hid : row.id = id <;> simp [hid, Outcome.change]

lemma Outcome.apply_payments : (outcome.apply appends payment books).payments =
    books.payments.map fun row => if row.id = payment.id then outcome.change row else row := by
  cases outcome with
  | finalize status transactionHash reason =>
    rw [← updatePending_snd, Outcome.apply, finalizePayment]
    dsimp only
    by_cases hcount : (updatePending payment.id status transactionHash books.payments).1 = 0
    · rw [if_pos hcount]
      exact (Tables.updateMany_of_fst_eq_zero hcount).symm
    · rw [if_neg hcount]
  | leave => simp [Outcome.apply, Outcome.change]

def settledRow (surroundings : Surroundings) (failCutoff : ℤ) (payments : List Payment)
    (row : Payment) : Payment :=
  payments.foldl (fun row payment =>
    if row.id = payment.id then
      (decision (surroundings.horizon payment.id) failCutoff payment).outcome.change row
    else row) row

lemma foldl_reconcile_payments (payments : List Payment) (s : Books × Stats) :
    (payments.foldl (reconcile surroundings failCutoff) s).1.payments =
      s.1.payments.map (settledRow surroundings failCutoff payments) := by
  induction payments generalizing s with
  | nil => exact (List.map_id _).symm
  | cons payment payments ih =>
    rw [List.foldl_cons, ih, reconcile, Outcome.apply_payments, List.map_map]
    rfl

lemma settledRow_of_notMem {payments : List Payment} (h : row.id ∉ payments.map (·.id)) :
    settledRow surroundings failCutoff payments row = row := by
  induction payments with
  | nil => rfl
  | cons payment payments ih =>
    simp only [List.map_cons, List.mem_cons, not_or] at h
    rw [settledRow, List.foldl_cons, if_neg h.1]
    exact ih h.2

lemma settledRow_of_mem {payments : List Payment} (hnodup : (payments.map (·.id)).Nodup)
    (h : payment ∈ payments) (hid : row.id = payment.id) :
    settledRow surroundings failCutoff payments row =
      (decision (surroundings.horizon payment.id) failCutoff payment).outcome.change row := by
  induction payments with
  | nil => cases h
  | cons first payments ih =>
    obtain ⟨hfirst, hrest⟩ := List.nodup_cons.mp hnodup
    rcases List.mem_cons.mp h with rfl | h
    · rw [settledRow, List.foldl_cons, if_pos hid]
      refine settledRow_of_notMem ?_
      rw [Outcome.change_id, hid]
      exact hfirst
    · have hne : row.id ≠ first.id := by
        rw [hid]
        intro heq
        exact hfirst (List.mem_map.mpr ⟨payment, h, heq⟩)
      rw [settledRow, List.foldl_cons, if_neg hne]
      exact ih hrest h

variable {settings : Settings} {now : ℤ} {payments : List Payment}

lemma mem_of_mem_findMany (h : payment ∈ findMany settings now payments) :
    payment ∈ payments ∧ stale settings now payment = true := by
  have hmem := List.mem_of_mem_take h
  rwa [(List.perm_insertionSort _ _).mem_iff, List.mem_filter] at hmem

lemma nodup_findMany (h : Tables.Keyed (·.id) payments) :
    ((findMany settings now payments).map (·.id)).Nodup := by
  have hsorted : (((payments.filter (stale settings now)).insertionSort
      (·.createdAt ≤ ·.createdAt)).map (·.id)).Nodup := by
    rw [((List.perm_insertionSort _ _).map _).nodup_iff]
    exact h.sublist (List.filter_sublist.map _)
  exact hsorted.sublist ((List.take_sublist _ _).map _)

lemma runStalePendingReconciliation_payments :
    (runStalePendingReconciliation settings surroundings now books).1.payments =
      books.payments.map (settledRow surroundings
        (minutesBefore now settings.FAIL_AFTER_MINUTES) (findMany settings now books.payments)) :=
  foldl_reconcile_payments _ _

@[simp] lemma settledRow_id : (settledRow surroundings failCutoff payments row).id = row.id := by
  induction payments generalizing row with
  | nil => rfl
  | cons payment payments ih =>
    rw [settledRow, List.foldl_cons]
    refine ih.trans ?_
    split_ifs
    · exact Outcome.change_id
    · rfl

lemma keyed_runStalePendingReconciliation (h : Tables.Keyed (·.id) books.payments) :
    Tables.Keyed (·.id)
      (runStalePendingReconciliation settings surroundings now books).1.payments := by
  rw [runStalePendingReconciliation_payments, Tables.Keyed, List.map_map]
  have hid : (fun row : Payment => row.id) ∘ settledRow surroundings
      (minutesBefore now settings.FAIL_AFTER_MINUTES) (findMany settings now books.payments) =
        fun row => row.id := by
    funext row
    exact settledRow_id
  rw [hid]
  exact h

end Rows

end StellarTags.Reconciliation
