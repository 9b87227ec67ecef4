import StellarTags.Library.Runs
import StellarTags.Reconciliation.Paid

/-! Passes that run side by side with other writers of the payments, await by await. -/

namespace StellarTags.Reconciliation

open Library Library.Runs

section System

/-- What `finalizePayment` was called with, the operation of the page that matched, if there was one,
and the counter that goes up afterwards. -/
structure Task where
  payment : Payment
  status : String
  transactionHash : Option String
  reason : String
  matched : Option Operation
  count : Stats → Stats

/-- The payments that a pass has still to look at. -/
structure Batch where
  failCutoff : ℤ
  todo : List Payment
  stats : Stats

/-- Where a pass awaits: Horizon, the guarded update, or the append of the event. -/
inductive Phase
  | idle
  | looking (batch : Batch)
  | updating (task : Task) (batch : Batch)
  | appending (task : Task) (batch : Batch)

structure World where
  payments : List Payment
  events : List SettlementEvent := []
  ledger : Ledger := []
  passes : ℕ → Phase := fun _ => .idle

inductive Move
  | start (i : ℕ) (now : ℤ)
  | answer (i : ℕ) (horizon : Horizon)
  | update (i : ℕ) (succeeds : Bool)
  | append (i : ℕ) (succeeds : Bool)
  | crash (i : ℕ)
  | write (id : String) (change : Payment → Payment)
  | create (payment : Payment)
  | commit (tx : LedgerTransaction)

def Batch.resume (batch : Batch) : Phase :=
  match batch.todo with
  | [] => .idle
  | _ :: _ => .looking batch

def Batch.next (batch : Batch) (count : Stats → Stats) : Phase :=
  { batch with stats := count batch.stats }.resume

def World.setPass (w : World) (i : ℕ) (phase : Phase) : World :=
  { w with passes := Function.update w.passes i phase }

def matchedOperation (horizon : Horizon) (payment : Payment) : Option Operation :=
  match text payment.transactionHash, horizon.fetchPaymentsForAccount payment.toAddress 50 with
  | none, .ok page => (page.getD []).find? (operationMatches payment)
  | _, _ => none

def look (horizon : Horizon) (payment : Payment) (batch : Batch) : Phase :=
  let decision := decision horizon batch.failCutoff payment
  match decision.outcome with
  | .finalize status transactionHash reason =>
    .updating ⟨payment, status, transactionHash, reason, matchedOperation horizon payment,
      decision.count⟩ batch
  | .leave => batch.next decision.count

def Task.event (task : Task) : SettlementEvent :=
  settlementEvent task.payment task.status task.transactionHash task.reason

def Task.update (task : Task) (payments : List Payment) : ℕ × List Payment :=
  updatePending task.payment.id task.status task.transactionHash payments

def step (settings : Settings) : Move → World → World
  | .start i now, w =>
    match w.passes i with
    | .idle =>
      let payments := findMany settings now w.payments
      w.setPass i (Batch.resume ⟨minutesBefore now settings.FAIL_AFTER_MINUTES, payments,
        { scanned := payments.length }⟩)
    | _ => w
  | .answer i horizon, w =>
    match w.passes i with
    | .looking ⟨failCutoff, payment :: todo, stats⟩ =>
      w.setPass i (look horizon payment ⟨failCutoff, todo, stats⟩)
    | _ => w
  | .update i succeeds, w =>
    match w.passes i with
    | .updating task batch =>
      if succeeds then
        if (task.update w.payments).1 = 0 then w.setPass i (batch.next task.count)
        else { w with payments := (task.update w.payments).2 }.setPass i (.appending task batch)
      else
        match text task.payment.transactionHash with
        | some _ => w.setPass i .idle
        | none => w.setPass i (batch.next Stats.err)
    | _ => w
  | .append i succeeds, w =>
    match w.passes i with
    | .appending task batch =>
      { w with events := if succeeds then w.events ++ [task.event] else w.events }.setPass i
        (batch.next task.count)
    | _ => w
  | .crash i, w => w.setPass i .idle
  | .write id change, w =>
    { w with payments := (Tables.updateMany (fun row => decide (row.id = id))
        (fun row => { change row with id := row.id }) w.payments).2 }
  | .create payment, w => { w with payments := Tables.insert (·.id) payment w.payments }
  | .commit tx, w => { w with ledger := w.ledger ++ [tx] }

def settles (w : World) : Move → List Task
  | .update i true =>
    match w.passes i with
    | .updating task _ => if (task.update w.payments).1 = 0 then [] else [task]
    | _ => []
  | _ => []

end System

section Effects

def Phase.known : Phase → List Payment
  | .idle => []
  | .looking batch => batch.todo
  | .updating task batch => task.payment :: batch.todo
  | .appending task batch => task.payment :: batch.todo

def Phase.Resting : Phase → Prop
  | .idle | .looking _ => True
  | .updating _ _ | .appending _ _ => False

def Phase.Appending (task : Task) (phase : Phase) : Prop := ∃ batch, phase = .appending task batch

/-- What a move makes of the world, and the payments that it settles. -/
inductive Effect (w : World) : Move → World → List Task → Prop
  | nothing {move : Move} : Effect w move w []
  | rested {move : Move} (i : ℕ) (phase : Phase) (hresting : phase.Resting)
      (hknown : ∀ payment ∈ phase.known, payment ∈ w.payments ∨ payment ∈ (w.passes i).known)
      (hleft : move = .crash i ∨ ∀ task, ¬ (w.passes i).Appending task) :
      Effect w move (w.setPass i phase) []
  | decided {move : Move} (i : ℕ) (horizon : Horizon) (payment : Payment) (status reason : String)
      (transactionHash : Option String) (count : Stats → Stats) (batch : Batch)
      (hlooking : w.passes i = .looking { batch with todo := payment :: batch.todo })
      (houtcome : (decision horizon batch.failCutoff payment).outcome =
        .finalize status transactionHash reason) :
      Effect w move (w.setPass i (.updating ⟨payment, status, transactionHash, reason,
        matchedOperation horizon payment, count⟩ batch)) []
  | settled (i : ℕ) (task : Task) (batch : Batch) (hupdating : w.passes i = .updating task batch)
      (hcount : (task.update w.payments).1 ≠ 0) :
      Effect w (.update i true)
        ({ w with payments := (task.update w.payments).2 }.setPass i (.appending task batch)) [task]
  | appended (i : ℕ) (task : Task) (batch : Batch) (succeeds : Bool) (phase : Phase)
      (happending : w.passes i = .appending task batch) (hresting : phase.Resting)
      (hknown : ∀ payment ∈ phase.known, payment ∈ (w.passes i).known) :
      Effect w (.append i succeeds)
        ({ w with events := if succeeds then w.events ++ [task.event] else w.events }.setPass i
          phase) []
  | written (id : String) (change : Payment → Payment) :
      Effect w (.write id change)
        { w with payments := (Tables.updateMany (fun row => decide (row.id = id))
          (fun row => { change row with id := row.id }) w.payments).2 } []
  | created (payment : Payment) :
      Effect w (.create payment)
        { w with payments := Tables.insert (·.id) payment w.payments } []
  | committed (tx : LedgerTransaction) :
      Effect w (.commit tx) { w with ledger := w.ledger ++ [tx] } []

variable {settings : Settings} {w : World} {i j : ℕ} {phase : Phase} {task : Task} {batch : Batch}

@[simp] lemma World.setPass_self : (w.setPass i phase).passes i = phase := Function.update_self ..

lemma World.setPass_of_ne (h : j ≠ i) : (w.setPass i phase).passes j = w.passes j :=
  Function.update_of_ne h ..

@[simp] lemma World.setPass_payments : (w.setPass i phase).payments = w.payments := rfl

@[simp] lemma World.setPass_events : (w.setPass i phase).events = w.events := rfl

@[simp] lemma World.setPass_ledger : (w.setPass i phase).ledger = w.ledger := rfl

lemma Phase.Resting.not_appending (h : phase.Resting) : ¬ phase.Appending task := by
  rintro ⟨batch, rfl⟩
  exact h

lemma Batch.resume_resting (batch : Batch) : batch.resume.Resting := by
  unfold Batch.resume
  split <;> trivial

lemma Batch.known_resume (batch : Batch) : ∀ payment ∈ batch.resume.known, payment ∈ batch.todo := by
  unfold Batch.resume
  split
  · exact fun _ h => absurd h List.not_mem_nil
  · exact fun _ h => h

lemma Batch.known_next (batch : Batch) (count : Stats → Stats) :
    ∀ payment ∈ (batch.next count).known, payment ∈ batch.todo :=
  Batch.known_resume { batch with stats := count batch.stats }

lemma step_effect (settings : Settings) (move : Move) : Effect w move (step settings move w) (settles w move) := by
  cases move with
  | start i now =>
    simp only [step, settles]
    split
    · rename_i hidle
      refine .rested i _ (Batch.resume_resting _) (fun payment h => .inl ?_)
        (.inr fun task h => ?_)
      · exact (mem_of_mem_findMany (Batch.known_resume _ payment h)).1
      · obtain ⟨batch, h⟩ := h
        rw [hidle] at h
        cases h
    · exact .nothing
  | answer i horizon =>
    simp only [step, settles]
    split
    · rename_i failCutoff payment todo stats hlooking
      cases houtcome : (decision horizon failCutoff payment).outcome with
      | finalize status transactionHash reason =>
        simp only [look, houtcome]
        exact .decided i horizon payment status reason transactionHash _ ⟨failCutoff, todo, stats⟩
          hlooking houtcome
      | leave =>
        simp only [look, houtcome]
        refine .rested i _ (Batch.resume_resting _) (fun other h => .inr ?_) (.inr fun task h => ?_)
        · rw [hlooking]
          exact List.mem_cons_of_mem _ (Batch.known_resume _ other h)
        · obtain ⟨batch, h⟩ := h
          rw [hlooking] at h
          cases h
    · exact .nothing
  | update i succeeds =>
    simp only [step]
    split
    · rename_i task batch hupdating
      have hknown {batch' : Batch} (hbatch : batch'.todo = batch.todo) :
          ∀ payment ∈ batch'.resume.known,
            payment ∈ w.payments ∨ payment ∈ (w.passes i).known := by
        intro payment h
        rw [hupdating]
        exact .inr (List.mem_cons_of_mem _ (hbatch ▸ Batch.known_resume _ payment h))
      have hleft (task' : Task) : ¬ (w.passes i).Appending task' := by
        rintro ⟨batch', h⟩
        rw [hupdating] at h
        cases h
      cases succeeds with
      | true =>
        by_cases hcount : (task.update w.payments).1 = 0
        · simp only [settles, hupdating, hcount, if_true]
          exact .rested i _ (Batch.resume_resting _) (hknown rfl) (.inr hleft)
        · simp only [settles, hupdating, hcount, if_true, if_false]
          exact .settled i task batch hupdating hcount
      | false =>
        simp only [settles, Bool.false_eq_true, if_false]
        split
        · exact .rested i .idle trivial (fun _ h => absurd h List.not_mem_nil) (.inr hleft)
        · exact .rested i _ (Batch.resume_resting _) (hknown rfl) (.inr hleft)
    · rename_i hupdating
      have hnone : settles w (.update i succeeds) = [] := by
        cases succeeds with
        | true =>
          simp only [settles]
        | false => rfl
      rw [hnone]
      exact .nothing
  | append i succeeds =>
    simp only [step, settles]
    split
    · rename_i task batch happending
      refine .appended i task batch succeeds (batch.next task.count) happending
        (Batch.resume_resting _) fun other h => ?_
      rw [happending]
      exact List.mem_cons_of_mem _ (batch.known_next _ other h)
    · exact .nothing
  | crash i => exact .rested i .idle trivial (fun _ h => absurd h List.not_mem_nil) (.inl rfl)
  | write id change => exact .written id change
  | create payment => exact .created payment
  | commit tx => exact .committed tx

end Effects

section Uninterrupted

def passMoves (surroundings : Surroundings) (failCutoff : ℤ) (i : ℕ) : List Payment → Books → List Move
  | [], _ => []
  | payment :: todo, books =>
    let outcome := (decision (surroundings.horizon payment.id) failCutoff payment).outcome
    .answer i (surroundings.horizon payment.id) ::
      (match outcome with
        | .finalize status transactionHash _ =>
          .update i true ::
            if (updatePending payment.id status transactionHash books.payments).1 = 0 then []
            else [.append i (surroundings.appends payment.id)]
        | .leave => []) ++
      passMoves surroundings failCutoff i todo
        (outcome.apply (surroundings.appends payment.id) payment books)

def World.books (w : World) : Books := ⟨w.payments, w.events⟩

def World.withBooks (w : World) (books : Books) : World :=
  { w with payments := books.payments, events := books.events }

variable {settings : Settings} {surroundings : Surroundings} {failCutoff now : ℤ} {payment : Payment}
  {books : Books} {w : World} {i : ℕ} {phase phase' : Phase}

lemma World.setPass_setPass : (w.setPass i phase).setPass i phase' = w.setPass i phase' := by
  simp [World.setPass]

lemma run_look (todo : List Payment) (stats : Stats) :
    run (step settings)
      ((w.withBooks books).setPass i (.looking ⟨failCutoff, payment :: todo, stats⟩))
      (.answer i (surroundings.horizon payment.id) ::
        (match (decision (surroundings.horizon payment.id) failCutoff payment).outcome with
          | .finalize status transactionHash _ =>
            .update i true ::
              if (updatePending payment.id status transactionHash books.payments).1 = 0 then []
              else [.append i (surroundings.appends payment.id)]
          | .leave => [])) =
    (w.withBooks ((decision (surroundings.horizon payment.id) failCutoff payment).outcome.apply
        (surroundings.appends payment.id) payment books)).setPass i (Batch.resume ⟨failCutoff, todo,
      (decision (surroundings.horizon payment.id) failCutoff payment).count stats⟩) := by
  cases houtcome : (decision (surroundings.horizon payment.id) failCutoff payment).outcome with
  | finalize status transactionHash reason =>
    by_cases hcount : (updatePending payment.id status transactionHash books.payments).1 = 0
    · simp only [hcount, if_true, run_cons, run_nil, step, World.setPass_self, look, houtcome,
        World.setPass_payments, World.withBooks, Task.update, World.setPass_setPass, Batch.next,
        Outcome.apply, finalizePayment]
    · simp only [hcount, if_false, if_true, run_cons, run_nil, step, World.setPass_self, look,
        houtcome, World.setPass_payments, World.withBooks, Task.update, World.setPass_setPass,
        Batch.next, Outcome.apply, finalizePayment]
      simp only [World.setPass, Function.update_idem, Task.event]
  | leave =>
    simp only [run_cons, run_nil, step, World.setPass_self, look, houtcome, World.setPass_setPass,
      Batch.next, Outcome.apply]

lemma run_passMoves (todo : List Payment) (stats : Stats) :
    run (step settings) ((w.withBooks books).setPass i (Batch.resume ⟨failCutoff, todo, stats⟩))
        (passMoves surroundings failCutoff i todo books) =
      (w.withBooks (todo.foldl (reconcile surroundings failCutoff) (books, stats)).1).setPass i
        .idle := by
  induction todo generalizing books stats with
  | nil => rfl
  | cons payment todo ih =>
    rw [passMoves, run_append, Batch.resume, run_look, ih]
    rfl

/-- A pass that nobody interrupts does what the function says. -/
theorem run_uninterrupted (hidle : w.passes i = .idle) :
    run (step settings) w (.start i now :: passMoves surroundings
        (minutesBefore now settings.FAIL_AFTER_MINUTES) i (findMany settings now w.payments) w.books) =
      w.withBooks (runStalePendingReconciliation settings surroundings now w.books).1 := by
  have hstart : step settings (.start i now) w = (w.withBooks w.books).setPass i (Batch.resume
      ⟨minutesBefore now settings.FAIL_AFTER_MINUTES, findMany settings now w.payments,
        { scanned := (findMany settings now w.payments).length }⟩) := by
    simp only [step, hidle]
    rfl
  rw [run_cons, hstart, run_passMoves, World.setPass]
  have hpasses : Function.update w.passes i .idle = w.passes := by
    rw [← hidle, Function.update_eq_self]
  exact congrArg (fun passes => { w.withBooks (runStalePendingReconciliation settings surroundings now
    w.books).1 with passes := passes }) hpasses

end Uninterrupted

end StellarTags.Reconciliation
