import StellarTags.EventSourcing.Commands

/-! Payment commands that overlap: what keeps a payment from being routed or completed twice. -/

namespace StellarTags.EventSourcing

open Library.Runs

/-- Where a call of a command is. Once past its check it keeps how many of the payment's events the
check saw: none if it read none. -/
inductive Phase
  | called (c : Command)
  | appending (c : Command) (seen : ℕ)
  | creating (c : Command) (seen nextSequence : ℕ)
  | done
  deriving DecidableEq, Repr

structure World where
  store : List PaymentEvent := []
  calls : List Phase := []
  deriving DecidableEq, Repr

inductive Move
  | call (c : Command)
  | resume (call now : ℕ)
  deriving DecidableEq, Repr

def Command.seen (c : Command) (events : List PaymentEvent) : ℕ :=
  if c.reads then events.length else 0

/-- What a call does up to its next await: read the events and check them, read the last sequence,
or create the event, which fails if the sequence is taken. -/
def Phase.resume (now : ℕ) (store : List PaymentEvent) : Phase → List PaymentEvent × Phase
  | .called c =>
    let events := getEventsByAggregate store c.paymentId
    match c.check events with
    | .ok () => (store, .appending c (c.seen events))
    | .error _ => (store, .done)
  | .appending c seen => (store, .creating c seen (nextSequence store c.paymentId))
  | .creating c _ next => ((create store (c.draft.event next now)).getD store, .done)
  | .done => (store, .done)

def step : Move → World → World
  | .call c, w => { w with calls := w.calls ++ [.called c] }
  | .resume i now, w =>
    match w.calls[i]? with
    | none => w
    | some phase =>
      let (store, phase) := phase.resume now w.store
      { store, calls := w.calls.set i phase }

def times (store : List PaymentEvent) (id : PaymentId) (eventType : EventType) : ℕ :=
  (getEventsByAggregate store id).countP (·.eventType = eventType)

/-- What is to happen to a payment once. -/
def EventType.Once (eventType : EventType) : Prop :=
  eventType = .paymentRouted ∨ eventType = .paymentCompleted

instance (eventType : EventType) : Decidable eventType.Once :=
  inferInstanceAs (Decidable (_ ∨ _))

def AtMostOnce (store : List PaymentEvent) : Prop :=
  ∀ id eventType, eventType.Once → times store id eventType ≤ 1

/-- If the call is about to store a routing or a completion, none of the payment was stored since its
check. -/
def Phase.Current (store : List PaymentEvent) : Phase → Prop
  | .creating c seen next =>
    (∀ e ∈ store, e.aggregateId = c.paymentId → e.sequence ≠ next) → c.eventType.Once →
      ¬ HasType ((getEventsByAggregate store c.paymentId).drop seen) c.eventType
  | _ => True

def Current (w : World) : Move → Prop
  | .call _ => True
  | .resume i _ => ∀ phase, w.calls[i]? = some phase → phase.Current w.store

section Counting

variable {store events : List PaymentEvent} {id : PaymentId} {e : PaymentEvent}
  {eventType : EventType}

lemma times_eq (store : List PaymentEvent) (id : PaymentId) (eventType : EventType) :
    times store id eventType = (stream store id).countP (·.eventType = eventType) :=
  (List.perm_insertionSort _ _).countP_eq _

@[simp] lemma times_snoc (store : List PaymentEvent) (e : PaymentEvent) (id : PaymentId)
    (eventType : EventType) : times (store ++ [e]) id eventType =
      times store id eventType +
        if e.aggregateId = id ∧ e.eventType = eventType then 1 else 0 := by
  rw [times_eq, times_eq, stream_snoc]
  by_cases hid : e.aggregateId = id <;> by_cases htype : e.eventType = eventType <;>
    simp [hid, htype]

lemma hasType_iff : HasType events eventType ↔ 0 < events.countP (·.eventType = eventType) := by
  simp [HasType, List.countP_pos_iff]

lemma times_eq_zero (n : ℕ) (htake : ¬ HasType ((stream store id).take n) eventType)
    (hdrop : ¬ HasType ((stream store id).drop n) eventType) : times store id eventType = 0 := by
  rw [hasType_iff, Nat.pos_iff_ne_zero, not_not] at htake hdrop
  rw [times_eq, ← List.take_append_drop n (stream store id), List.countP_append, htake, hdrop]

lemma times_pos (n : ℕ) (hdrop : HasType ((stream store id).drop n) eventType) :
    0 < times store id eventType := by
  rw [hasType_iff] at hdrop
  rw [times_eq, ← List.take_append_drop n (stream store id), List.countP_append]
  exact Nat.add_pos_right _ hdrop

end Counting

section Invariant

variable {w : World} {store : List PaymentEvent} {phase : Phase} {c : Command} {e : PaymentEvent}
  {seen next now : ℕ}

/-- What the check of a call saw holds of the events that it saw. -/
def Checked (store : List PaymentEvent) (c : Command) (seen : ℕ) : Prop :=
  seen ≤ (stream store c.paymentId).length ∧
    (c.eventType.Once → ¬ HasType ((stream store c.paymentId).take seen) c.eventType)

def Phase.Sound (store : List PaymentEvent) : Phase → Prop
  | .appending c seen => Checked store c seen
  | .creating c seen next =>
    Checked store c seen ∧ 0 < next ∧ next ≤ (stream store c.paymentId).length + 1
  | _ => True

structure Sound (w : World) : Prop where
  sequenced : Sequenced w.store
  calls : ∀ phase ∈ w.calls, phase.Sound w.store

lemma checked_of_check (h : Sequenced store)
    (hc : c.check (getEventsByAggregate store c.paymentId) = .ok ()) :
    Checked store c (c.seen (getEventsByAggregate store c.paymentId)) := by
  rw [h.getEventsByAggregate] at hc ⊢
  cases c with
  | routePayment id transactionHash =>
    refine ⟨le_rfl, fun _ hrouted => ?_⟩
    change HasType ((stream store id).take (stream store id).length) .paymentRouted at hrouted
    rw [List.take_length] at hrouted
    rw [Command.check] at hc
    split_ifs at hc with _ _ hnew
    exact hnew hrouted
  | completePayment id =>
    refine ⟨le_rfl, fun _ hcompleted => ?_⟩
    change HasType ((stream store id).take (stream store id).length) .paymentCompleted at hcompleted
    rw [List.take_length] at hcompleted
    rw [Command.check] at hc
    split_ifs at hc with _ hnew
    exact hnew hcompleted
  | processBatch id txHash =>
    refine ⟨Nat.zero_le _, fun _ hsent => ?_⟩
    obtain ⟨_, he, -⟩ := hsent
    cases he
  | createPayment id paymentData => exact ⟨Nat.zero_le _, by simp [EventType.Once, Command.eventType]⟩
  | enqueue id paymentData => exact ⟨Nat.zero_le _, by simp [EventType.Once, Command.eventType]⟩
  | failPayment id reason => exact ⟨le_rfl, by simp [EventType.Once, Command.eventType]⟩
  | flagPaymentFraud id riskScore => exact ⟨le_rfl, by simp [EventType.Once, Command.eventType]⟩
  | clearPaymentFraud id => exact ⟨le_rfl, by simp [EventType.Once, Command.eventType]⟩

lemma length_stream_snoc (store : List PaymentEvent) (e : PaymentEvent) (id : PaymentId) :
    (stream store id).length ≤ (stream (store ++ [e]) id).length := by
  rw [stream_snoc]
  split_ifs <;> simp

lemma Checked.snoc (h : Checked store c seen) (e : PaymentEvent) :
    Checked (store ++ [e]) c seen := by
  refine ⟨h.1.trans (length_stream_snoc _ _ _), fun honce => ?_⟩
  have htake : (stream (store ++ [e]) c.paymentId).take seen =
      (stream store c.paymentId).take seen := by
    rw [stream_snoc]
    split_ifs
    · exact List.take_append_of_le_length h.1
    · rfl
  rw [htake]
  exact h.2 honce

lemma Phase.Sound.snoc (h : phase.Sound store) (e : PaymentEvent) :
    phase.Sound (store ++ [e]) := by
  cases phase with
  | called c => trivial
  | appending c seen => exact Checked.snoc h e
  | creating c seen next =>
    exact ⟨h.1.snoc e, h.2.1, h.2.2.trans (Nat.succ_le_succ (length_stream_snoc _ _ _))⟩
  | done => trivial

/-- The store changes only where a call creates an event whose sequence is free. -/
lemma resume_cases (now : ℕ) (store : List PaymentEvent) (phase : Phase) :
    (phase.resume now store).1 = store ∨ ∃ c seen next, phase = .creating c seen next ∧
      (∀ e ∈ store, e.aggregateId = c.paymentId → e.sequence ≠ next) ∧
        (phase.resume now store).1 = store ++ [c.draft.event next now] := by
  cases phase with
  | called c =>
    left
    rw [Phase.resume]
    split <;> rfl
  | appending c seen => exact .inl rfl
  | creating c seen next =>
    rw [Phase.resume, create]
    split_ifs with htaken
    · exact .inl rfl
    · exact .inr ⟨c, seen, next, rfl, fun e he hid hnext => htaken ⟨e, he, hid, hnext⟩, rfl⟩
  | done => exact .inl rfl

lemma Sequenced.create (h : Sequenced store) (hphase : (Phase.creating c seen next).Sound store)
    (hfree : ∀ e ∈ store, e.aggregateId = c.paymentId → e.sequence ≠ next) :
    Sequenced (store ++ [c.draft.event next now]) := by
  apply h.snoc
  by_contra hne
  have hle : next ≤ (stream store c.paymentId).length :=
    Nat.le_of_lt_succ (lt_of_le_of_ne hphase.2.2 hne)
  obtain ⟨e, he, hid, hsequence⟩ := h.taken hphase.2.1 hle
  exact hfree e he hid hsequence

lemma Phase.Sound.resume (h : Sequenced store) (hphase : phase.Sound store) :
    (phase.resume now store).2.Sound (phase.resume now store).1 := by
  cases phase with
  | called c =>
    rw [Phase.resume]
    split
    case h_1 hc => exact checked_of_check h hc
    case h_2 => trivial
  | appending c seen =>
    have hnext := h.nextSequence c.paymentId
    exact ⟨hphase, hnext ▸ Nat.succ_pos _, hnext.le⟩
  | creating c seen next => trivial
  | done => trivial

lemma Sound.step (h : Sound w) (move : Move) : Sound (step move w) := by
  cases move with
  | call c =>
    refine ⟨h.sequenced, fun phase hphase => ?_⟩
    obtain hphase | hphase := List.mem_append.mp hphase
    · exact h.calls phase hphase
    · obtain rfl := List.mem_singleton.mp hphase
      trivial
  | resume i now =>
    rw [EventSourcing.step]
    cases hcall : w.calls[i]? with
    | none => exact h
    | some phase =>
      have hphase := h.calls phase (List.mem_of_getElem? hcall)
      have hothers (p : Phase) (hp : p ∈ w.calls) : p.Sound (phase.resume now w.store).1 := by
        obtain hstore | ⟨c, seen, next, -, -, hstore⟩ := resume_cases now w.store phase
        · rw [hstore]
          exact h.calls p hp
        · rw [hstore]
          exact (h.calls p hp).snoc _
      change Sound ⟨(phase.resume now w.store).1, w.calls.set i (phase.resume now w.store).2⟩
      constructor
      · change Sequenced (phase.resume now w.store).1
        obtain hstore | ⟨c, seen, next, rfl, hfree, hstore⟩ := resume_cases now w.store phase
        · rw [hstore]
          exact h.sequenced
        · rw [hstore]
          exact h.sequenced.create hphase hfree
      · intro p hp
        obtain hp | rfl := List.mem_or_eq_of_mem_set hp
        · exact hothers p hp
        · exact hphase.resume h.sequenced

end Invariant

section Runs

variable {w : World} {move : Move}

lemma step_cases (w : World) (move : Move) :
    (step move w).store = w.store ∨ ∃ i now c seen next, move = .resume i now ∧
      w.calls[i]? = some (.creating c seen next) ∧
        (∀ e ∈ w.store, e.aggregateId = c.paymentId → e.sequence ≠ next) ∧
          (step move w).store = w.store ++ [c.draft.event next now] := by
  cases move with
  | call c => exact .inl rfl
  | resume i now =>
    rw [step]
    cases hcall : w.calls[i]? with
    | none => exact .inl rfl
    | some phase =>
      obtain hstore | ⟨c, seen, next, rfl, hfree, hstore⟩ := resume_cases now w.store phase
      · exact .inl hstore
      · exact .inr ⟨i, now, c, seen, next, rfl, hcall, hfree, hstore⟩

lemma AtMostOnce.step (h : AtMostOnce w.store) (hw : Sound w) (hmove : Current w move) :
    AtMostOnce (step move w).store := by
  obtain hstore | ⟨i, now, c, seen, next, rfl, hcall, hfree, hstore⟩ := step_cases w move
  · rwa [hstore]
  · rw [hstore]
    intro id eventType honce
    rw [times_snoc]
    split_ifs with hsame
    · obtain ⟨rfl, rfl⟩ := hsame
      have hchecked := (hw.calls _ (List.mem_of_getElem? hcall)).1
      have hcurrent := hmove _ hcall hfree honce
      rw [hw.sequenced.getEventsByAggregate] at hcurrent
      exact (Nat.add_eq_right.mpr (times_eq_zero seen (hchecked.2 honce) hcurrent)).le
    · exact h id eventType honce

lemma not_atMostOnce_step (h : ¬ AtMostOnce w.store) : ¬ AtMostOnce (step move w).store := by
  obtain hstore | ⟨i, now, c, seen, next, rfl, hcall, hfree, hstore⟩ := step_cases w move
  · rwa [hstore]
  · rw [hstore]
    intro hafter
    apply h
    intro id eventType honce
    have hle := hafter id eventType honce
    rw [times_snoc] at hle
    exact (Nat.le_add_right _ _).trans hle

lemma not_atMostOnce_of_stale (hw : Sound w) (hmove : ¬ Current w move) :
    ¬ AtMostOnce (step move w).store := by
  cases move with
  | call c => exact absurd trivial hmove
  | resume i now =>
    obtain ⟨phase, hphase⟩ := not_forall.mp hmove
    obtain ⟨hcall, hstale⟩ := Classical.not_imp.mp hphase
    cases phase with
    | creating c seen next =>
      obtain ⟨hfree, hstale⟩ := Classical.not_imp.mp hstale
      obtain ⟨honce, hsome⟩ := Classical.not_imp.mp hstale
      rw [not_not, hw.sequenced.getEventsByAggregate] at hsome
      have hstore : (step (.resume i now) w).store = w.store ++ [c.draft.event next now] := by
        rw [step, hcall]
        change (create w.store (c.draft.event next now)).getD w.store = _
        rw [create_ok hfree, Option.getD_some]
      intro hafter
      have hle := hafter c.paymentId c.eventType honce
      rw [hstore, times_snoc, if_pos ⟨rfl, rfl⟩] at hle
      have hpos := times_pos seen hsome
      omega
    | called c => exact absurd trivial hstale
    | appending c seen => exact absurd trivial hstale
    | done => exact absurd trivial hstale

end Runs

/-- No payment is routed or completed twice exactly in the runs in which no call stores a routing or a
completion of a payment that has one the call did not see. -/
theorem atMostOnce_iff (moves : List Move) :
    AtMostOnce (run step {} moves).store ↔ Along step Current {} moves := by
  have hstart : Sound {} := ⟨sequenced_nil, fun _ h => by cases h⟩
  constructor
  · intro h
    exact along_of_not_bad (B := fun w => ¬ AtMostOnce w.store) (fun _ move hw => hw.step move)
      (fun _ _ => not_atMostOnce_step) (fun _ _ => not_atMostOnce_of_stale) hstart (not_not.mpr h)
  · intro h
    have hstep (w : World) (move : Move) (hw : Sound w ∧ AtMostOnce w.store)
        (hmove : Current w move) : Sound (step move w) ∧ AtMostOnce (step move w).store :=
      ⟨hw.1.step move, hw.2.step hw.1 hmove⟩
    exact (run_invariant hstep ⟨hstart, fun _ _ _ => Nat.zero_le 1⟩ h).2

/-- A payment is created, two calls to route it both read it, and then each stores its event. -/
def race : List Move :=
  [.call (.createPayment 1 paid), .resume 0 100, .resume 0 100, .resume 0 100,
    .call (.routePayment 1 (.value "one")), .call (.routePayment 1 (.value "two")),
    .resume 1 200, .resume 2 200, .resume 1 201, .resume 1 201, .resume 2 202, .resume 2 202]

theorem race_routes_twice : ¬ AtMostOnce (run step {} race).store := by
  have htwice : times (run step {} race).store 1 .paymentRouted = 2 := by decide
  intro h
  have hle := h 1 .paymentRouted (.inl rfl)
  rw [htwice] at hle
  omega

end StellarTags.EventSourcing
