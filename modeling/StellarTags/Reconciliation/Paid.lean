import Mathlib.Tactic.NormNum
import StellarTags.Reconciliation.Passes

/-! What a payment that a pass sets to success has on the ledger. -/

namespace StellarTags.Reconciliation

open Library

section Ledger

structure LedgerTransaction where
  hash : String
  successful : Bool
  operations : List Operation
  deriving DecidableEq, Repr

abbrev Ledger := List LedgerTransaction

/-- The operation makes the payment, and their memos agree if both have one. -/
structure Pays (op : Operation) (payment : Payment) : Prop where
  type : op.type ∈ PAYMENT_OP_TYPES
  fromAccount : op.fromAccount = payment.fromAddress
  toAccount : op.toAccount = payment.toAddress
  amount : ∃ amount, op.amount = some amount ∧ |amount - payment.amount| < 1 / 10000
  memo : ∀ memo opMemo, memoOf payment = some memo → text op.memo = some opMemo → opMemo = memo

def Paid (ledger : Ledger) (payment : Payment) : Prop :=
  ∃ tx ∈ ledger, tx.successful = true ∧ ∃ op ∈ tx.operations, Pays op payment

/-- Horizon lists the payments of successful transactions only. -/
def Horizon.Lists (horizon : Horizon) (ledger : Ledger) : Prop :=
  ∀ address limit page, horizon.fetchPaymentsForAccount address limit = .ok (some page) →
    ∀ op ∈ page, ∃ tx ∈ ledger, tx.successful = true ∧ op ∈ tx.operations

/-- Horizon has an answer for the hash of the payment and does not call the transaction
unsuccessful. -/
def TakenOnTrust (horizon : Horizon) (payment : Payment) : Prop :=
  ∃ hash, text payment.transactionHash = some hash ∧
    ∃ tx, horizon.fetchTransaction hash = .ok tx ∧ tx.any (·.successful = some false) = false

/-- A Horizon that knows the whole ledger, which lists its transactions from the oldest. -/
def Ledger.horizon (ledger : Ledger) : Horizon where
  fetchTransaction hash :=
    match ledger.find? (·.hash = hash) with
    | some tx => .ok (some ⟨tx.hash, some tx.successful⟩)
    | none => .error { status := some 404 }
  fetchPaymentsForAccount address limit :=
    .ok (some ((((ledger.filter (·.successful)).flatMap (·.operations)).filter fun op =>
      op.fromAccount = address ∨ op.toAccount = address).reverse.take limit))

end Ledger

variable {op : Operation} {payment row : Payment} {horizon : Horizon} {ledger : Ledger}
  {failCutoff now : ℤ} {surroundings : Surroundings} {books : Books} {settings : Settings}

lemma operationMatches_iff : operationMatches payment op = true ↔ Pays op payment := by
  have hamount : amountsMatch op.amount payment.amount = true ↔
      ∃ amount, op.amount = some amount ∧ |amount - payment.amount| < 1 / 10000 := by
    cases op.amount <;> simp [amountsMatch]
  simp only [operationMatches, Bool.and_eq_true, decide_eq_true_eq, hamount, Option.mem_def]
  constructor
  · rintro ⟨⟨⟨htype, hto, hfrom⟩, hamount⟩, hmemo⟩
    exact ⟨htype, hfrom, hto, hamount, fun memo opMemo h h' => hmemo memo h opMemo h'⟩
  · rintro ⟨htype, hfrom, hto, hamount, hmemo⟩
    exact ⟨⟨⟨htype, hto, hfrom⟩, hamount⟩, fun memo h opMemo h' => hmemo memo opMemo h h'⟩

lemma decision_success {status reason : String} {transactionHash : Option String}
    (h : (decision horizon failCutoff payment).outcome = .finalize status transactionHash reason)
    (hstatus : status = SUCCESS) :
    TakenOnTrust horizon payment ∨
      ∃ page op, horizon.fetchPaymentsForAccount payment.toAddress 50 = .ok (some page) ∧
        page.find? (operationMatches payment) = some op := by
  subst hstatus
  unfold decision at h
  cases hhash : text payment.transactionHash with
  | some hash =>
    simp only [hhash, reconcileByTransactionHash] at h
    left
    cases htx : horizon.fetchTransaction hash with
    | error error =>
      simp only [htx] at h
      split_ifs at h
      simp [SUCCESS, FAILED] at h
    | ok tx =>
      simp only [htx] at h
      split_ifs at h with hfailed
      · simp [SUCCESS, FAILED] at h
      · exact ⟨hash, hhash, tx, htx, Bool.eq_false_iff.mpr hfailed⟩
  | none =>
    simp only [hhash, reconcileByMemoOrReference] at h
    right
    cases hpage : horizon.fetchPaymentsForAccount payment.toAddress 50 with
    | error error =>
      simp only [hpage] at h
      split_ifs at h
    | ok page =>
      simp only [hpage] at h
      cases page with
      | none => simp at h
      | some page =>
        cases hfind : page.find? (operationMatches payment) with
        | none => simp [hfind] at h
        | some op => exact ⟨page, op, rfl, hfind⟩

lemma TakenOnTrust.decision (h : TakenOnTrust horizon payment) (failCutoff : ℤ) :
    ∃ transactionHash reason, (decision horizon failCutoff payment).outcome =
      .finalize SUCCESS transactionHash reason := by
  obtain ⟨hash, hhash, tx, htx, hany⟩ := h
  simp [Reconciliation.decision, hhash, htx, reconcileByTransactionHash, hany]

lemma Horizon.Lists.paid (h : horizon.Lists ledger) {address : String} {limit : ℕ}
    {page : List Operation}
    (hpage : horizon.fetchPaymentsForAccount address limit = .ok (some page))
    (hfind : page.find? (operationMatches payment) = some op) : Paid ledger payment := by
  obtain ⟨tx, htx, hsuccessful, hop⟩ := h _ _ _ hpage op (List.mem_of_find?_eq_some hfind)
  exact ⟨tx, htx, hsuccessful, op, hop, operationMatches_iff.mp (List.find?_some hfind)⟩

lemma change_status_success {outcome : Outcome} (hpending : row.status ∈ PENDING_STATUSES)
    (h : (outcome.change row).status = SUCCESS) :
    ∃ transactionHash reason, outcome = .finalize SUCCESS transactionHash reason := by
  cases outcome with
  | finalize status transactionHash reason =>
    rw [Outcome.change, if_pos hpending] at h
    exact ⟨transactionHash, reason, by rw [← h]⟩
  | leave =>
    rw [Outcome.change] at h
    exact absurd hpending (by rw [h]; decide)

/-- A success that nothing on the ledger stands for comes from a hash taken on trust. -/
theorem success_paid_iff (settings : Settings) (now : ℤ) (books : Books)
    (hkeyed : Tables.Keyed (·.id) books.payments)
    (hlists : ∀ id, (surroundings.horizon id).Lists ledger) :
    (∀ before ∈ books.payments, before.status ∈ PENDING_STATUSES →
      ∀ after ∈ (runStalePendingReconciliation settings surroundings now books).1.payments,
        after.id = before.id → after.status = SUCCESS → Paid ledger before) ↔
    ∀ payment ∈ findMany settings now books.payments,
      TakenOnTrust (surroundings.horizon payment.id) payment → Paid ledger payment := by
  rw [runStalePendingReconciliation_payments]
  constructor
  · intro h payment hscanned htrust
    obtain ⟨hmem, hstale⟩ := mem_of_mem_findMany hscanned
    have hpending : payment.status ∈ PENDING_STATUSES := (of_decide_eq_true hstale).1
    refine h payment hmem hpending _ (List.mem_map_of_mem hmem) settledRow_id ?_
    rw [settledRow_of_mem (nodup_findMany hkeyed) hscanned rfl]
    obtain ⟨transactionHash, reason, houtcome⟩ :=
      htrust.decision (minutesBefore now settings.FAIL_AFTER_MINUTES)
    rw [houtcome, Outcome.change, if_pos hpending]
  · intro h before hbefore hpending after hafter hid hsuccess
    obtain ⟨row, hrow, rfl⟩ := List.mem_map.mp hafter
    rw [settledRow_id] at hid
    obtain rfl : row = before := List.inj_on_of_nodup_map hkeyed hrow hbefore hid
    by_cases hscanned : row.id ∈ (findMany settings now books.payments).map (·.id)
    · obtain ⟨payment, hpayment, hsame⟩ := List.mem_map.mp hscanned
      obtain rfl : payment = row :=
        List.inj_on_of_nodup_map hkeyed (mem_of_mem_findMany hpayment).1 hrow hsame
      rw [settledRow_of_mem (nodup_findMany hkeyed) hpayment rfl] at hsuccess
      obtain ⟨transactionHash, reason, houtcome⟩ := change_status_success hpending hsuccess
      rcases decision_success houtcome rfl with htrust | ⟨page, op, hpage, hfind⟩
      · exact h _ hpayment htrust
      · exact (hlists _).paid hpage hfind
    · rw [settledRow_of_notMem hscanned] at hsuccess
      exact absurd hpending (by rw [hsuccess]; decide)

lemma Ledger.horizon_lists (ledger : Ledger) : ledger.horizon.Lists ledger := by
  intro address limit page hpage op hop
  simp only [Ledger.horizon, Except.ok.injEq, Option.some.injEq] at hpage
  subst hpage
  have hmem := List.mem_of_mem_filter (List.mem_reverse.mp (List.mem_of_mem_take hop))
  obtain ⟨tx, htx, hoperation⟩ := List.mem_flatMap.mp hmem
  obtain ⟨htx, hsuccessful⟩ := List.mem_filter.mp htx
  exact ⟨tx, htx, hsuccessful, hoperation⟩

section Samples

def samplePayment (id : String) (transactionHash : Option String) : Payment where
  id := id
  createdAt := 0
  fromAddress := "GBUYER"
  toAddress := "GSHOP"
  amount := 100
  transactionHash := transactionHash
  status := "pending"

def sampleOperation (id fromAccount : String) (createdAt : ℤ) (transaction_hash : String) :
    Operation where
  id := id
  createdAt := createdAt
  type := "payment"
  fromAccount := fromAccount
  toAccount := "GSHOP"
  amount := some 100
  transaction_hash := some transaction_hash

lemma sampleOperation_pays (id opId : String) (createdAt : ℤ) (hash : Option String)
    (transaction_hash : String) :
    Pays (sampleOperation opId "GBUYER" createdAt transaction_hash) (samplePayment id hash) where
  type := List.mem_cons_self
  fromAccount := rfl
  toAccount := rfl
  amount := ⟨100, rfl, by norm_num [samplePayment]⟩
  memo := by
    intro memo opMemo h
    cases h

def sampleLedger (fromAccount : String) : Ledger :=
  [⟨"HASH", true, [sampleOperation "1" fromAccount 60000 "HASH"]⟩]

def sampleSurroundings (ledger : Ledger) : Surroundings where
  horizon _ := ledger.horizon
  appends _ := true

def sampleNow : ℤ := 600000

theorem success_paid_sample : Paid (sampleLedger "GBUYER") (samplePayment "pay_1" (some "HASH")) := by
  have hkeyed : Tables.Keyed (·.id) [samplePayment "pay_1" (some "HASH")] := List.nodup_singleton _
  have hlists (id : String) : ((sampleSurroundings (sampleLedger "GBUYER")).horizon id).Lists
      (sampleLedger "GBUYER") := Ledger.horizon_lists _
  have hpaid := (success_paid_iff {} sampleNow ⟨_, []⟩ hkeyed hlists).mpr fun payment hscanned _ => by
    obtain rfl := List.mem_singleton.mp (mem_of_mem_findMany hscanned).1
    exact ⟨_, List.mem_singleton_self _, rfl, _, List.mem_singleton_self _, sampleOperation_pays ..⟩
  exact hpaid (samplePayment "pay_1" (some "HASH")) (List.mem_singleton_self _) (by decide)
    { samplePayment "pay_1" (some "HASH") with status := SUCCESS } (by decide) rfl rfl

/-- The hash is that of a payment by somebody else. -/
theorem success_not_paid :
    let books : Books := ⟨[samplePayment "pay_1" (some "HASH")], []⟩
    ((runStalePendingReconciliation {} (sampleSurroundings (sampleLedger "GOTHER")) sampleNow
        books).1.payments.map (·.status) = [SUCCESS]) ∧
      ¬ Paid (sampleLedger "GOTHER") (samplePayment "pay_1" (some "HASH")) := by
  refine ⟨by decide, ?_⟩
  rintro ⟨tx, htx, -, op, hop, hpays⟩
  obtain rfl := List.mem_singleton.mp htx
  obtain rfl := List.mem_singleton.mp hop
  exact absurd hpays.fromAccount (by decide)

end Samples

end StellarTags.Reconciliation
