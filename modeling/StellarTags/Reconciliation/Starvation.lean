import StellarTags.Library.Runs
import StellarTags.Reconciliation.Paid

/-! Passes one after another over a backlog of stale payments. -/

namespace StellarTags.Reconciliation

open Library Library.Runs

section Backlog

def overdue (settings : Settings) (now : ℤ) (payment : Payment) : Bool :=
  stale settings now payment &&
    decide (payment.createdAt ≤ minutesBefore now settings.FAIL_AFTER_MINUTES)

def unmatched (horizon : Horizon) (payment : Payment) : Bool :=
  decide (text payment.transactionHash = none) &&
  match horizon.fetchPaymentsForAccount payment.toAddress 50 with
  | .ok page => ((page.getD []).find? (operationMatches payment)).isNone
  | .error _ => false

/-- Horizon may not know a transaction, and has no other error. -/
structure Horizon.Answers (horizon : Horizon) : Prop where
  transaction : ∀ hash error, horizon.fetchTransaction hash = .error error →
    isNotFoundError error = true ∧ isCircuitOpenError error = false
  payments : ∀ address limit error, horizon.fetchPaymentsForAccount address limit ≠ .error error

def pass (settings : Settings) (horizon : Horizon) (appends : String → Bool) (now : ℤ)
    (books : Books) : Books :=
  (runStalePendingReconciliation settings ⟨fun _ => horizon, appends⟩ now books).1

end Backlog

variable {settings : Settings} {horizon : Horizon} {appends : String → Bool} {now later : ℤ}
  {books first : Books} {payment row : Payment} {surroundings : Surroundings} {failCutoff : ℤ}

lemma overdue_iff : overdue settings now payment = true ↔
    payment.status ∈ PENDING_STATUSES ∧ payment.deletedAt = none ∧
      payment.createdAt ≤ minutesBefore now settings.STALE_PENDING_MINUTES ∧
      payment.createdAt ≤ minutesBefore now settings.FAIL_AFTER_MINUTES := by
  simp [overdue, stale, and_assoc]

lemma Outcome.change_eq_or {outcome : Outcome}
    (h : ∀ status transactionHash reason, outcome = .finalize status transactionHash reason →
      status ∈ SETTLED_STATUSES) (row : Payment) :
    outcome.change row = row ∨ (outcome.change row).status ∈ SETTLED_STATUSES := by
  cases outcome with
  | finalize status transactionHash reason =>
    rw [Outcome.change]
    split_ifs
    · exact .inr (h _ _ _ rfl)
    · exact .inl rfl
  | leave => exact .inl rfl

lemma settledRow_eq_or (payments : List Payment) (row : Payment) :
    settledRow surroundings failCutoff payments row = row ∨
      (settledRow surroundings failCutoff payments row).status ∈ SETTLED_STATUSES := by
  induction payments generalizing row with
  | nil => exact .inl rfl
  | cons payment payments ih =>
    rw [settledRow, List.foldl_cons]
    split_ifs with hid
    · rcases Outcome.change_eq_or (fun _ _ _ => decision_settled) row with heq | hsettled
      · rw [heq]
        exact ih row
      · rcases ih ((decision (surroundings.horizon payment.id) failCutoff payment).outcome.change row)
          with heq | hsettled'
        · right
          rw [← heq] at hsettled
          exact hsettled
        · exact .inr hsettled'
    · exact ih row

/-- An overdue payment leaves the backlog at once, unless it is without a match. -/
lemma decision_of_overdue (hanswers : horizon.Answers) (hoverdue : overdue settings now payment = true)
    (hmatched : unmatched horizon payment = false)
    (hcutoff : minutesBefore now settings.FAIL_AFTER_MINUTES ≤ failCutoff) :
    ∃ status transactionHash reason, (decision horizon failCutoff payment).outcome =
      .finalize status transactionHash reason := by
  have hcreated : payment.createdAt ≤ failCutoff := (overdue_iff.mp hoverdue).2.2.2.trans hcutoff
  unfold decision
  cases hhash : text payment.transactionHash with
  | some hash =>
    cases htx : horizon.fetchTransaction hash with
    | error error =>
      obtain ⟨hnotFound, hopen⟩ := hanswers.transaction _ _ htx
      simp [reconcileByTransactionHash, htx, hnotFound, hopen, hcreated]
    | ok tx =>
      simp only [reconcileByTransactionHash, htx]
      split_ifs
      · exact ⟨_, _, _, rfl⟩
      · exact ⟨_, _, _, rfl⟩
  | none =>
    cases hpage : horizon.fetchPaymentsForAccount payment.toAddress 50 with
    | error error => exact absurd hpage (hanswers.payments _ _ _)
    | ok page =>
      cases hfind : (page.getD []).find? (operationMatches payment) with
      | some op => simp [reconcileByMemoOrReference, hfind]
      | none => simp [unmatched, hhash, hpage, hfind] at hmatched

lemma decision_of_unmatched (hunmatched : unmatched horizon payment = true) :
    (decision horizon failCutoff payment).outcome = .leave := by
  unfold unmatched at hunmatched
  unfold decision
  cases hhash : text payment.transactionHash with
  | some hash => simp [hhash] at hunmatched
  | none =>
    cases hpage : horizon.fetchPaymentsForAccount payment.toAddress 50 with
    | error error => simp [hpage] at hunmatched
    | ok page =>
      simp only [hhash, hpage, decide_true, Bool.true_and, Option.isNone_iff_eq_none] at hunmatched
      simp [reconcileByMemoOrReference, hunmatched]

lemma minutesBefore_mono (h : now ≤ later) (minutes : ℕ) :
    minutesBefore now minutes ≤ minutesBefore later minutes := by
  unfold minutesBefore
  omega

/-- The oldest come first: while the backlog lasts, a pass has one of it in view. -/
lemma exists_overdue_findMany {payments : List Payment} (hlater : now ≤ later)
    (hmem : payment ∈ payments) (hoverdue : overdue settings now payment = true) :
    ∃ oldest ∈ findMany settings later payments, overdue settings now oldest = true := by
  obtain ⟨hpending, hlive, hstale, hfail⟩ := overdue_iff.mp hoverdue
  have hsorted := List.pairwise_insertionSort (fun a b : Payment => a.createdAt ≤ b.createdAt)
    (payments.filter (stale settings later))
  have hstaleLater : stale settings later payment = true := by
    simp only [stale, decide_eq_true_eq]
    exact ⟨hpending, hlive, hstale.trans (minutesBefore_mono hlater _)⟩
  have hin : payment ∈ (payments.filter (stale settings later)).insertionSort
      (fun a b => a.createdAt ≤ b.createdAt) :=
    (List.perm_insertionSort _ _).mem_iff.mpr (List.mem_filter.mpr ⟨hmem, hstaleLater⟩)
  have hall : ∀ row ∈ (payments.filter (stale settings later)).insertionSort
      (fun a b => a.createdAt ≤ b.createdAt), stale settings later row = true := fun row hrow =>
    (List.mem_filter.mp ((List.perm_insertionSort _ _).mem_iff.mp hrow)).2
  unfold findMany
  cases hlist : (payments.filter (stale settings later)).insertionSort
      (fun a b => a.createdAt ≤ b.createdAt) with
  | nil => simp [hlist] at hin
  | cons oldest rest =>
    rw [hlist] at hin hsorted hall
    obtain ⟨limit, hlimit⟩ := Nat.exists_eq_succ_of_ne_zero settings.batch_limit_pos.ne'
    refine ⟨oldest, by rw [hlimit, List.take_succ_cons]; exact List.mem_cons_self, ?_⟩
    have hcreated : oldest.createdAt ≤ payment.createdAt := by
      rcases List.mem_cons.mp hin with rfl | hrest
      · exact le_rfl
      · exact (List.pairwise_cons.mp hsorted).1 _ hrest
    have holdest := of_decide_eq_true (hall oldest List.mem_cons_self)
    exact overdue_iff.mpr ⟨holdest.1, holdest.2.1, hcreated.trans hstale, hcreated.trans hfail⟩

def backlog (settings : Settings) (now : ℤ) (books : Books) : ℕ :=
  books.payments.countP (overdue settings now)

lemma pass_payments : (pass settings horizon appends later books).payments =
    books.payments.map (settledRow ⟨fun _ => horizon, appends⟩
      (minutesBefore later settings.FAIL_AFTER_MINUTES) (findMany settings later books.payments)) :=
  runStalePendingReconciliation_payments

lemma eq_of_overdue_settledRow {payments : List Payment}
    (h : overdue settings now (settledRow surroundings failCutoff payments row) = true) :
    settledRow surroundings failCutoff payments row = row :=
  (settledRow_eq_or payments row).resolve_right fun hsettled =>
    settled_not_pending hsettled (overdue_iff.mp h).1

lemma countP_map_lt {f : Payment → Payment} {p : Payment → Bool} {payments : List Payment}
    (hp : ∀ row, p (f row) = true → p row = true) (hmem : row ∈ payments) (hrow : p row = true)
    (hf : p (f row) = false) : (payments.map f).countP p < payments.countP p := by
  obtain ⟨before, after, rfl⟩ := List.append_of_mem hmem
  have hle (rows : List Payment) : (rows.map f).countP p ≤ rows.countP p := by
    rw [List.countP_map]
    exact List.countP_mono_left fun row _ => hp row
  have hbefore := hle before
  have hafter := hle after
  simp only [List.map_append, List.map_cons, List.countP_append, List.countP_cons, hrow, hf]
  simp only [Bool.false_eq_true, if_false, if_true]
  omega

/-- The payments that a run of passes has not settled are those it started with. -/
structure Remains (settings : Settings) (now : ℤ) (first books : Books) : Prop where
  keyed : Tables.Keyed (·.id) books.payments
  unchanged : ∀ row ∈ books.payments, overdue settings now row = true → row ∈ first.payments
  settled : ∀ before ∈ first.payments, overdue settings now before = true →
    ∀ after ∈ books.payments, after.id = before.id → after = before ∨ after.status ∈ SETTLED_STATUSES

lemma Remains.pass (h : Remains settings now first books) (horizon : Horizon)
    (appends : String → Bool) (later : ℤ) :
    Remains settings now first (pass settings horizon appends later books) where
  keyed := keyed_runStalePendingReconciliation h.keyed
  unchanged := by
    intro row hrow hoverdue
    rw [pass_payments] at hrow
    obtain ⟨old, hold, rfl⟩ := List.mem_map.mp hrow
    have heq := eq_of_overdue_settledRow hoverdue
    rw [heq] at hoverdue ⊢
    exact h.unchanged _ hold hoverdue
  settled := by
    intro before hbefore hoverdue after hafter hid
    rw [pass_payments] at hafter
    obtain ⟨old, hold, rfl⟩ := List.mem_map.mp hafter
    rw [settledRow_id] at hid
    rcases h.settled before hbefore hoverdue old hold hid with rfl | hsettled
    · exact settledRow_eq_or _ _
    · rcases settledRow_eq_or _ old with heq | hsettled'
      · rw [heq]
        exact .inr hsettled
      · exact .inr hsettled'

lemma backlog_pass (appends : String → Bool) (h : Remains settings now first books) (hanswers : horizon.Answers)
    (hmatched : ∀ payment ∈ first.payments, overdue settings now payment = true →
      unmatched horizon payment = false) (hlater : now ≤ later) :
    backlog settings now (pass settings horizon appends later books) ≤
      backlog settings now books - 1 := by
  by_cases hnone : backlog settings now books = 0
  · rw [hnone]
    refine Nat.le_zero.mpr (List.countP_eq_zero.mpr fun row hrow hoverdue => ?_)
    rw [pass_payments] at hrow
    obtain ⟨old, hold, rfl⟩ := List.mem_map.mp hrow
    rw [eq_of_overdue_settledRow hoverdue] at hoverdue
    exact List.countP_eq_zero.mp hnone old hold hoverdue
  · obtain ⟨payment, hmem, hoverdue⟩ := List.countP_pos_iff.mp (Nat.pos_of_ne_zero hnone)
    obtain ⟨oldest, holdest, holdestOverdue⟩ := exists_overdue_findMany hlater hmem hoverdue
    have holdestMem := (mem_of_mem_findMany holdest).1
    obtain ⟨status, transactionHash, reason, houtcome⟩ := decision_of_overdue hanswers holdestOverdue
      (hmatched _ (h.unchanged _ holdestMem holdestOverdue) holdestOverdue)
      (minutesBefore_mono hlater settings.FAIL_AFTER_MINUTES)
    refine Nat.le_sub_one_of_lt ?_
    rw [backlog, backlog, pass_payments]
    refine countP_map_lt (fun row hrow => ?_) holdestMem holdestOverdue ?_
    · rwa [eq_of_overdue_settledRow hrow] at hrow
    · rw [settledRow_of_mem (nodup_findMany h.keyed) holdest rfl, houtcome, Outcome.change,
        if_pos (overdue_iff.mp holdestOverdue).1]
      refine Bool.eq_false_iff.mpr fun hstill => ?_
      exact settled_not_pending (decision_settled houtcome) (overdue_iff.mp hstill).1

lemma backlog_run (appends : String → Bool) (h : Remains settings now first books) (hanswers : horizon.Answers)
    (hmatched : ∀ payment ∈ first.payments, overdue settings now payment = true →
      unmatched horizon payment = false) {times : List ℤ} (htimes : ∀ later ∈ times, now ≤ later) :
    Remains settings now first (run (pass settings horizon appends) books times) ∧
      backlog settings now (run (pass settings horizon appends) books times) ≤
        backlog settings now books - times.length := by
  induction times generalizing books with
  | nil => exact ⟨h, le_rfl⟩
  | cons later times ih =>
    have hstep := backlog_pass appends h hanswers hmatched (htimes later List.mem_cons_self)
    obtain ⟨hremains, hle⟩ := ih (h.pass horizon appends later) fun t ht =>
      htimes t (List.mem_cons_of_mem _ ht)
    refine ⟨hremains, hle.trans ?_⟩
    rw [List.length_cons]
    omega

lemma unmatched_run (hmem : row ∈ books.payments) (hkeyed : Tables.Keyed (·.id) books.payments)
    (hunmatched : unmatched horizon row = true) (times : List ℤ) :
    row ∈ (run (pass settings horizon appends) books times).payments := by
  induction times generalizing books with
  | nil => exact hmem
  | cons later times ih =>
    refine ih ?_ (keyed_runStalePendingReconciliation hkeyed)
    rw [pass_payments]
    refine List.mem_map.mpr ⟨row, hmem, ?_⟩
    by_cases hscanned : row.id ∈ (findMany settings later books.payments).map (·.id)
    · obtain ⟨payment, hpayment, hid⟩ := List.mem_map.mp hscanned
      obtain rfl : payment = row :=
        List.inj_on_of_nodup_map hkeyed (mem_of_mem_findMany hpayment).1 hmem hid
      rw [settledRow_of_mem (nodup_findMany hkeyed) hpayment rfl, decision_of_unmatched hunmatched]
      rfl
    · exact settledRow_of_notMem hscanned

/-- The backlog is worked off within as many passes as there are stale payments exactly if none of it
is unmatched. -/
theorem backlog_settled_iff (settings : Settings) (appends : String → Bool) (now : ℤ) (books : Books)
    (hkeyed : Tables.Keyed (·.id) books.payments) (hanswers : horizon.Answers) :
    (∀ times : List ℤ, (∀ later ∈ times, now ≤ later) →
      books.payments.countP (stale settings now) + 1 ≤ times.length →
      ∀ before ∈ books.payments, overdue settings now before = true →
        ∀ after ∈ (run (pass settings horizon appends) books times).payments,
          after.id = before.id → after.status ∈ SETTLED_STATUSES) ↔
    ∀ payment ∈ books.payments, overdue settings now payment = true →
      unmatched horizon payment = false := by
  constructor
  · intro h payment hmem hoverdue
    refine Bool.eq_false_iff.mpr fun hunmatched => ?_
    have hsettled := h (List.replicate (books.payments.countP (stale settings now) + 1) now)
      (fun later hlater => (List.eq_of_mem_replicate hlater).ge) (by simp) payment hmem hoverdue
      payment (unmatched_run hmem hkeyed hunmatched _) rfl
    exact settled_not_pending hsettled (overdue_iff.mp hoverdue).1
  · intro h times htimes hlength before hbefore hoverdue after hafter hid
    have hinit : Remains settings now books books := by
      refine ⟨hkeyed, fun row hrow _ => hrow, fun before hbefore _ after hafter hid => ?_⟩
      exact .inl (List.inj_on_of_nodup_map hkeyed hafter hbefore hid)
    obtain ⟨hremains, hle⟩ := backlog_run appends hinit hanswers h htimes
    refine (hremains.settled before hbefore hoverdue after hafter hid).resolve_left ?_
    rintro rfl
    have hpos : 0 < backlog settings now (run (pass settings horizon appends) books times) :=
      List.countP_pos_iff.mpr ⟨_, hafter, hoverdue⟩
    have hbacklog : backlog settings now books ≤ books.payments.countP (stale settings now) :=
      List.countP_mono_left fun row _ hrow => (Bool.and_eq_true_iff.mp hrow).1
    omega

lemma Ledger.horizon_answers (ledger : Ledger) : ledger.horizon.Answers where
  transaction := by
    intro hash error h
    simp only [Ledger.horizon] at h
    split at h <;> cases h
    decide
  payments := by
    intro address limit error h
    cases h

section Samples

def sampleLater : ℤ := 8000000

theorem backlog_settled_sample :
    (run (pass {} (sampleLedger "GBUYER").horizon fun _ => true)
        ⟨[samplePayment "pay_1" (some "HASH")], []⟩ [sampleLater, sampleLater]).payments =
      [{ samplePayment "pay_1" (some "HASH") with status := SUCCESS }] ∧
    SUCCESS ∈ SETTLED_STATUSES := by
  have hkeyed : Tables.Keyed (·.id) [samplePayment "pay_1" (some "HASH")] := List.nodup_singleton _
  have hrun : (run (pass {} (sampleLedger "GBUYER").horizon fun _ => true)
      ⟨[samplePayment "pay_1" (some "HASH")], []⟩ [sampleLater, sampleLater]).payments =
      [{ samplePayment "pay_1" (some "HASH") with status := SUCCESS }] := by decide
  have hsettled := (backlog_settled_iff {} (fun _ => true) sampleLater ⟨_, []⟩ hkeyed
    (Ledger.horizon_answers (sampleLedger "GBUYER"))).mpr fun payment hmem _ => by
      obtain rfl := List.mem_singleton.mp hmem
      decide
  exact ⟨hrun, hsettled [sampleLater, sampleLater] (by decide) (by decide) _
    (List.mem_singleton_self _) (by decide) { samplePayment "pay_1" (some "HASH") with status := SUCCESS }
    (by rw [hrun]; exact List.mem_singleton_self _) rfl⟩

/-- One payment without a match stays as it is, and a batch of such payments keeps another one, whose
transaction is on the ledger, from being looked at. -/
theorem unmatched_starves :
    let books : Books := ⟨[samplePayment "pay_1" none], []⟩
    let crowded : Books := ⟨[samplePayment "pay_1" none, samplePayment "pay_2" (some "HASH")], []⟩
    (overdue {} sampleLater (samplePayment "pay_1" none) = true ∧
      (run (pass {} (Ledger.horizon []) fun _ => true) books
        [sampleLater, sampleLater]).payments.map (·.status) = ["pending"]) ∧
    overdue {} sampleLater (samplePayment "pay_2" (some "HASH")) = true ∧
      (run (pass { RECONCILE_BATCH_LIMIT := 1 } (sampleLedger "GOTHER").horizon fun _ => true) crowded
        [sampleLater, sampleLater, sampleLater]).payments.map (·.status) = ["pending", "pending"] := by
  decide

end Samples

end StellarTags.Reconciliation
