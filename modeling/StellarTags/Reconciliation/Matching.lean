import StellarTags.Reconciliation.Records

/-! Which operation on the ledger settles which payment. -/

namespace StellarTags.Reconciliation

open Library Library.Runs

section Accounts

/-- The two rows are of one payment, and ask for the same operation. -/
structure SameTerms (a b : Payment) : Prop where
  id : a.id = b.id
  createdAt : a.createdAt = b.createdAt
  fromAddress : a.fromAddress = b.fromAddress
  toAddress : a.toAddress = b.toAddress
  amount : a.amount = b.amount
  memo : memoOf a = memoOf b

/-- The operation that the task found on the page, or one that makes the payment in the transaction
of its hash. -/
def Task.By (task : Task) (ledger : Ledger) (op : Operation) : Prop :=
  match task.matched with
  | some found => op = found
  | none => ∃ tx ∈ ledger, text task.payment.transactionHash = some tx.hash ∧
      op ∈ tx.operations ∧ Pays op task.payment

/-- Every success has an operation after the payment was created, and no two payments have the
same. -/
def Accounted (ledger : Ledger) (tasks : List Task) : Prop :=
  ∃ paid : List (Task × Operation), paid.map Prod.fst = tasks ∧
    (∀ entry ∈ paid, entry.1.By ledger entry.2 ∧
      entry.1.payment.createdAt < entry.2.createdAt) ∧
    ∀ entry ∈ paid, ∀ other ∈ paid, entry.2 = other.2 →
      entry.1.payment.id = other.1.payment.id

def successes (tasks : List Task) : List Task := tasks.filter (·.status = SUCCESS)

/-- The row carries the hash of the operation, which is what it asks for. -/
structure Carries (row : Payment) (op : Operation) : Prop where
  hash : text row.transactionHash = text op.transaction_hash
  pays : Pays op row

/-- A payment becomes a success only by an operation after it was created, whose hash the row gets and
no other row carries that asks for the operation. Other writers leave terms alone, and the status and
the hash of what is no longer pending. -/
def Distinguished (w : World) : Move → Prop
  | .update i true => ∀ task batch, w.passes i = .updating task batch → task.status = SUCCESS →
      (task.update w.payments).1 ≠ 0 →
      ∃ op, task.By w.ledger op ∧ task.payment.createdAt < op.createdAt ∧
        task.transactionHash.isSome ∧ task.transactionHash = text op.transaction_hash ∧
        ∀ row ∈ w.payments, row.id ≠ task.payment.id → ¬ Carries row op
  | .write id change => ∀ row ∈ w.payments, row.id = id →
      SameTerms { change row with id := row.id } row ∧ (row.status ∉ PENDING_STATUSES →
        (change row).status ∉ PENDING_STATUSES ∧ (change row).transactionHash = row.transactionHash)
  | _ => True

/-- The row is no longer pending and carries the operation that settled it. -/
def World.Holds (w : World) (entry : Task × Operation) : Prop :=
  ∃ row ∈ w.payments, row.id = entry.1.payment.id ∧ row.status ∉ PENDING_STATUSES ∧
    Carries row entry.2

structure Ledgered (log : List Task) (w : World) : Prop where
  keyed : Tables.Keyed (·.id) w.payments
  known : ∀ i, ∀ payment ∈ (w.passes i).known, ∃ row ∈ w.payments, SameTerms row payment
  found : ∀ i task batch, w.passes i = .updating task batch →
    task.status ∈ SETTLED_STATUSES ∧ ∀ op, task.matched = some op → Pays op task.payment
  paid : ∃ paid : List (Task × Operation), paid.map Prod.fst = successes log ∧
    (∀ entry ∈ paid, entry.1.By w.ledger entry.2 ∧
      entry.1.payment.createdAt < entry.2.createdAt ∧ w.Holds entry) ∧
    ∀ entry ∈ paid, ∀ other ∈ paid, entry.2 = other.2 → entry.1.payment.id = other.1.payment.id

end Accounts

variable {settings : Settings} {w w' : World} {i j : ℕ} {phase : Phase} {task : Task} {batch : Batch}
  {log tasks : List Task} {move : Move} {op : Operation} {payment row other : Payment}
  {ledger ledger' : Ledger} {horizon : Horizon}

lemma SameTerms.refl (payment : Payment) : SameTerms payment payment := ⟨rfl, rfl, rfl, rfl, rfl, rfl⟩

lemma SameTerms.trans (h : SameTerms row payment) (h' : SameTerms payment other) :
    SameTerms row other :=
  ⟨h.id.trans h'.id, h.createdAt.trans h'.createdAt, h.fromAddress.trans h'.fromAddress,
    h.toAddress.trans h'.toAddress, h.amount.trans h'.amount, h.memo.trans h'.memo⟩

lemma SameTerms.pays (h : SameTerms row payment) (hpays : Pays op payment) : Pays op row where
  type := hpays.type
  fromAccount := hpays.fromAccount.trans h.fromAddress.symm
  toAccount := hpays.toAccount.trans h.toAddress.symm
  amount := by
    rw [h.amount]
    exact hpays.amount
  memo := by
    rw [h.memo]
    exact hpays.memo

lemma Task.By.mono (h : task.By ledger op) (hledger : ∀ tx ∈ ledger, tx ∈ ledger') :
    task.By ledger' op := by
  unfold Task.By at h ⊢
  split
  · rename_i heq
    rwa [heq] at h
  · rename_i heq
    rw [heq] at h
    obtain ⟨tx, htx, h⟩ := h
    exact ⟨tx, hledger tx htx, h⟩

lemma pays_of_matchedOperation (h : matchedOperation horizon payment = some op) :
    Pays op payment := by
  unfold matchedOperation at h
  split at h
  · exact operationMatches_iff.mp (List.find?_some h)
  · cases h

lemma text_eq_some {value : Option String} {s : String} (h : text value = some s) :
    value = some s ∧ s ≠ "" := by
  simpa [text, Option.filter_eq_some_iff] using h

/-- Rows stay with their terms, and with their hash once they are no longer pending. -/
def Keeps (w w' : World) : Prop :=
  ∀ row ∈ w.payments, ∃ row' ∈ w'.payments, SameTerms row' row ∧
    (row.status ∉ PENDING_STATUSES →
      row'.status ∉ PENDING_STATUSES ∧ row'.transactionHash = row.transactionHash)

lemma Keeps.of_subset (h : ∀ row ∈ w.payments, row ∈ w'.payments) : Keeps w w' := fun row hrow =>
  ⟨row, h row hrow, .refl row, fun hdone => ⟨hdone, rfl⟩⟩

lemma keeps_update (task : Task) :
    Keeps w { w with payments := (task.update w.payments).2 } := by
  intro row hrow
  refine ⟨_, List.mem_map_of_mem hrow, ?_, fun hdone => ?_⟩
  · by_cases h : row.id = task.payment.id ∧ row.status ∈ PENDING_STATUSES
    · rw [if_pos (decide_eq_true h)]
      exact ⟨rfl, rfl, rfl, rfl, rfl, rfl⟩
    · rw [if_neg (by simp [h])]
      exact .refl row
  · simp only [hdone, and_false, decide_false, Bool.false_eq_true, if_false, not_false_eq_true,
      and_self]

lemma keeps_write {id : String} {change : Payment → Payment}
    (h : Distinguished w (.write id change)) :
    Keeps w { w with payments := (Tables.updateMany (fun row => decide (row.id = id))
      (fun row => { change row with id := row.id }) w.payments).2 } := by
  intro row hrow
  by_cases hid : row.id = id
  · obtain ⟨hterms, hdone⟩ := h row hrow hid
    refine ⟨{ change row with id := row.id }, List.mem_map.mpr ⟨row, hrow, ?_⟩, hterms, hdone⟩
    simp [hid]
  · refine ⟨row, List.mem_map.mpr ⟨row, hrow, ?_⟩, .refl row, fun hdone => ⟨hdone, rfl⟩⟩
    simp [hid]

lemma World.Holds.mono {entry : Task × Operation} (hkeeps : Keeps w w') (h : w.Holds entry) :
    w'.Holds entry := by
  obtain ⟨row, hrow, hid, hdone, hcarries⟩ := h
  obtain ⟨row', hrow', hterms, hkept⟩ := hkeeps row hrow
  obtain ⟨hdone', hhash⟩ := hkept hdone
  exact ⟨row', hrow', hterms.id.trans hid, hdone',
    ⟨hhash ▸ hcarries.hash, hterms.pays hcarries.pays⟩⟩

lemma Ledgered.mono (h : Ledgered log w) (hkeyed : Tables.Keyed (·.id) w'.payments)
    (hkeeps : Keeps w w') (hledger : ∀ tx ∈ w.ledger, tx ∈ w'.ledger)
    (hknown : ∀ i, ∀ payment ∈ (w'.passes i).known, payment ∈ w.payments ∨
      payment ∈ (w.passes i).known)
    (hfound : ∀ i task batch, w'.passes i = .updating task batch →
      task.status ∈ SETTLED_STATUSES ∧ ∀ op, task.matched = some op → Pays op task.payment)
    (hlog : successes (log ++ tasks) = successes log) : Ledgered (log ++ tasks) w' where
  keyed := hkeyed
  known i payment hpayment := by
    have hrow : ∃ row ∈ w.payments, SameTerms row payment := by
      rcases hknown i payment hpayment with hrow | hpayment
      · exact ⟨payment, hrow, .refl payment⟩
      · exact h.known i payment hpayment
    obtain ⟨row, hrow, hterms⟩ := hrow
    obtain ⟨row', hrow', hterms', -⟩ := hkeeps row hrow
    exact ⟨row', hrow', hterms'.trans hterms⟩
  found := hfound
  paid := by
    obtain ⟨paid, htasks, hentries, hapart⟩ := h.paid
    refine ⟨paid, htasks.trans hlog.symm, fun entry hentry => ?_, hapart⟩
    obtain ⟨hby, hlater, hholds⟩ := hentries entry hentry
    exact ⟨hby.mono hledger, hlater, hholds.mono hkeeps⟩

lemma Ledgered.holds_settled (h : Ledgered log w) (hupdating : w.passes i = .updating task batch)
    (hcount : (task.update w.payments).1 ≠ 0) (hby : task.By w.ledger op) (hsome : task.transactionHash.isSome)
    (hhash : task.transactionHash = text op.transaction_hash) :
    World.Holds { w with payments := (task.update w.payments).2 } (task, op) := by
  obtain ⟨row, hrow, hcondition⟩ := List.countP_pos_iff.mp (Nat.pos_of_ne_zero hcount)
  have hid : row.id = task.payment.id := (of_decide_eq_true hcondition).1
  refine ⟨_, List.mem_map_of_mem hrow, ?_, ?_, ?_⟩
  · rw [if_pos hcondition]
    exact hid
  · rw [if_pos hcondition]
    exact settled_not_pending (h.found i task batch hupdating).1
  · rw [if_pos hcondition]
    obtain ⟨hash, hhash'⟩ := Option.isSome_iff_exists.mp hsome
    have hne : hash ≠ "" := (text_eq_some (hhash.symm.trans hhash')).2
    have hpayment : Pays op task.payment := by
      unfold Task.By at hby
      split at hby
      · rename_i found hmatched
        subst hby
        exact (h.found i task batch hupdating).2 _ hmatched
      · obtain ⟨-, -, -, -, hpays⟩ := hby
        exact hpays
    have hknown : task.payment ∈ (w.passes i).known := by
      rw [hupdating]
      exact List.mem_cons_self
    obtain ⟨current, hcurrent, hterms⟩ := h.known i _ hknown
    obtain rfl : current = row :=
      List.inj_on_of_nodup_map h.keyed hcurrent hrow (hterms.id.trans hid.symm)
    refine ⟨?_, ?_⟩
    · rw [← hhash, hhash']
      simp [text, hne]
    · have hsame : SameTerms { current with
          status := task.status, transactionHash := task.transactionHash.or current.transactionHash }
          current := ⟨rfl, rfl, rfl, rfl, rfl, rfl⟩
      exact (hsame.trans hterms).pays hpayment

lemma Ledgered.settle (h : Ledgered log w) (hdistinguished : Distinguished w (.update i true))
    (hupdating : w.passes i = .updating task batch) (hcount : (task.update w.payments).1 ≠ 0) :
    Ledgered (log ++ [task])
      ({ w with payments := (task.update w.payments).2 }.setPass i (.appending task batch)) := by
  have hkeyed : Tables.Keyed (·.id) (task.update w.payments).2 := h.keyed.updateMany fun _ _ => rfl
  have hkeeps : Keeps w
      ({ w with payments := (task.update w.payments).2 }.setPass i (.appending task batch)) :=
    keeps_update task
  have hknown (j : ℕ) : ∀ payment ∈ (({ w with payments := (task.update w.payments).2 }.setPass i
      (.appending task batch)).passes j).known,
      payment ∈ w.payments ∨ payment ∈ (w.passes j).known := by
    intro payment hpayment
    by_cases hji : j = i
    · subst hji
      rw [World.setPass_self] at hpayment
      rw [hupdating]
      exact .inr hpayment
    · rw [World.setPass_of_ne hji] at hpayment
      exact .inr hpayment
  have hfound (j : ℕ) (task' : Task) (batch' : Batch)
      (hj : ({ w with payments := (task.update w.payments).2 }.setPass i
        (.appending task batch)).passes j = .updating task' batch') :
      task'.status ∈ SETTLED_STATUSES ∧ ∀ op, task'.matched = some op → Pays op task'.payment := by
    by_cases hji : j = i
    · subst hji
      rw [World.setPass_self] at hj
      cases hj
    · rw [World.setPass_of_ne hji] at hj
      exact h.found j task' batch' hj
  by_cases hstatus : task.status = SUCCESS
  · obtain ⟨op, hby, hlater, hsome, hhash, hunique⟩ :=
      hdistinguished task batch hupdating hstatus hcount
    have hholds := h.holds_settled hupdating hcount hby hsome hhash
    have hmono := h.mono hkeyed hkeeps (fun _ htx => htx) hknown hfound
      (by rw [List.append_nil] : successes (log ++ []) = successes log)
    obtain ⟨paid, htasks, hentries, hapart⟩ := h.paid
    refine ⟨hmono.keyed, hmono.known, hmono.found, paid ++ [(task, op)], ?_, fun entry hentry => ?_,
      fun entry hentry other hother hsame => ?_⟩
    · rw [List.map_append, htasks, successes, successes, List.filter_append]
      simp [hstatus]
    · rcases List.mem_append.mp hentry with hold | hnew
      · obtain ⟨hby', hlater', hholds'⟩ := hentries entry hold
        exact ⟨hby', hlater', hholds'.mono hkeeps⟩
      · obtain rfl := List.mem_singleton.mp hnew
        exact ⟨hby, hlater, hholds⟩
    · -- what an earlier payment holds is carried by no other row
      have hnot (earlier : Task × Operation) (hearlier : earlier ∈ paid) (hop : earlier.2 = op) :
          earlier.1.payment.id = task.payment.id := by
        by_contra hne
        obtain ⟨row, hrow, hid, -, hcarries⟩ := (hentries earlier hearlier).2.2
        exact hunique row hrow (hid ▸ hne) (hop ▸ hcarries)
      rcases List.mem_append.mp hentry with hold | hnew <;>
        rcases List.mem_append.mp hother with hold' | hnew'
      · exact hapart entry hold other hold' hsame
      · obtain rfl := List.mem_singleton.mp hnew'
        exact hnot entry hold hsame
      · obtain rfl := List.mem_singleton.mp hnew
        exact (hnot other hold' hsame.symm).symm
      · obtain rfl := List.mem_singleton.mp hnew
        obtain rfl := List.mem_singleton.mp hnew'
        rfl
  · refine h.mono hkeyed hkeeps (fun _ htx => htx) hknown hfound ?_
    rw [successes, successes, List.filter_append]
    simp [hstatus]

lemma Ledgered.setPass (h : Ledgered log w)
    (hknown : ∀ payment ∈ phase.known, payment ∈ w.payments ∨ payment ∈ (w.passes i).known)
    (hfound : ∀ task batch, phase = .updating task batch →
      task.status ∈ SETTLED_STATUSES ∧ ∀ op, task.matched = some op → Pays op task.payment) :
    Ledgered (log ++ []) (w.setPass i phase) := by
  refine h.mono h.keyed (.of_subset fun _ hrow => hrow) (fun _ htx => htx) (fun j payment hj => ?_)
    (fun j task batch hj => ?_) (by rw [List.append_nil])
  · by_cases hji : j = i
    · subst hji
      rw [World.setPass_self] at hj
      exact hknown payment hj
    · rw [World.setPass_of_ne hji] at hj
      exact .inr hj
  · by_cases hji : j = i
    · subst hji
      rw [World.setPass_self] at hj
      exact hfound task batch hj
    · rw [World.setPass_of_ne hji] at hj
      exact h.found j task batch hj

lemma Phase.Resting.not_updating (h : phase.Resting) : phase ≠ .updating task batch := by
  rintro rfl
  exact h

lemma Ledgered.effect (h : Ledgered log w) (hdistinguished : Distinguished w move)
    (he : Effect w move w' tasks) : Ledgered (log ++ tasks) w' := by
  cases he with
  | nothing => rwa [List.append_nil]
  | rested i phase hresting hknown hleft =>
    exact h.setPass hknown fun task batch heq => absurd heq hresting.not_updating
  | decided i horizon payment status reason transactionHash count batch hlooking houtcome =>
    refine h.setPass (fun other hother => ?_) fun task batch' heq => ?_
    · rw [hlooking]
      exact .inr hother
    · cases heq
      exact ⟨decision_settled houtcome, fun op hmatched => pays_of_matchedOperation hmatched⟩
  | settled i task batch hupdating hcount => exact h.settle hdistinguished hupdating hcount
  | appended i task batch succeeds phase happending hresting hknown =>
    have hevents : Ledgered log
        { w with events := if succeeds then w.events ++ [task.event] else w.events } :=
      ⟨h.keyed, h.known, h.found, h.paid⟩
    exact hevents.setPass (fun payment hpayment => .inr (hknown payment hpayment))
      fun task batch heq => absurd heq hresting.not_updating
  | written id change =>
    exact h.mono (h.keyed.updateMany fun _ _ => rfl) (keeps_write hdistinguished)
      (fun _ htx => htx) (fun _ _ hpayment => .inr hpayment) h.found (by rw [List.append_nil])
  | created payment =>
    refine h.mono (h.keyed.insert payment) (.of_subset fun row hrow => ?_) (fun _ htx => htx)
      (fun _ _ hpayment => .inr hpayment) h.found (by rw [List.append_nil])
    rw [Tables.insert]
    split_ifs
    · exact hrow
    · exact List.mem_append_left _ hrow
  | committed tx =>
    exact h.mono h.keyed (.of_subset fun _ hrow => hrow) (fun _ htx => List.mem_append_left _ htx)
      (fun _ _ hpayment => .inr hpayment) h.found (by rw [List.append_nil])

lemma Accounted.matched_unique (h : Accounted ledger tasks) (hmem : task ∈ tasks)
    (hmatched : task.matched = some op) : task.payment.createdAt < op.createdAt ∧
      ∀ task' ∈ tasks, task'.matched = some op → task'.payment.id = task.payment.id := by
  obtain ⟨paid, rfl, hentries, hapart⟩ := h
  have hentry (task : Task) (hmem : task ∈ paid.map Prod.fst) (hmatched : task.matched = some op) :
      (task, op) ∈ paid := by
    obtain ⟨⟨task, other⟩, hpaid, rfl⟩ := List.mem_map.mp hmem
    have hby := (hentries _ hpaid).1
    rw [Task.By, hmatched] at hby
    exact hby ▸ hpaid
  exact ⟨(hentries _ (hentry task hmem hmatched)).2, fun task' hmem' hmatched' =>
    hapart _ (hentry task' hmem' hmatched') _ (hentry task hmem hmatched) rfl⟩

section Samples

def sampleOrders (payments : List Payment) (createdAt : ℤ) : World where
  payments := payments
  ledger := [⟨"HASH", true, [sampleOperation "1" "GBUYER" createdAt "HASH"]⟩]

def matchMoves (w : World) : List Move :=
  .start 0 sampleNow :: (w.payments.map fun _ =>
    [.answer 0 w.ledger.horizon, .update 0 true, .append 0 true]).flatten

end Samples

end StellarTags.Reconciliation
