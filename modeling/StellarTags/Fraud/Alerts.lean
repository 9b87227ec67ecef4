import StellarTags.Fraud.Scorer
import StellarTags.Library.ConsumerGroups

/-! The workers that look for fraud in the stream of payments: they score the payments, and raise an alert
about a high score. -/

namespace StellarTags.Fraud

open Library Library.Runs Library.ConsumerGroups

section Model

/-- Messages are read, hashes stand for payments that carry no id, and scores compared with the threshold. -/
structure Primitives (A N S : Type) extends Numbers A N S where
  /-- Nothing where the text does not parse, and no payment where it holds none. -/
  parse : String → Option (Option (Payment A))
  digest : Payment A → String
  low : S → Bool

structure Webhook where
  id : String
  url : String
  events : Option (List String)
  deriving DecidableEq, Repr

/-- The row of an event: the payment that it was created from, and the one it was last updated from. -/
structure Alert (A S : Type) where
  eventId : String
  created : Payment A
  rawEvent : Payment A
  riskScore : S
  reason : String

/-- Where a worker is in the handling of an entry. -/
inductive Phase (A S : Type)
  | ready
  | upserting (id : ℕ) (payment : Payment A) (riskScore : S) (reason : String)
  | flagging (id : ℕ) (hash : String) (alert : Alert A S)
  | notifying (id : ℕ) (alert : Alert A S)
  | acking (id : ℕ)

structure World (A N S : Type) where
  group : ConsumerGroups.Group (List String) := {}
  scorers : ℕ → Scorer N := fun _ => createFraudScorer
  phases : ℕ → Phase A S := fun _ => .ready
  alerts : String → Option (Alert A S) := fun _ => none

/-- Entries come and are trimmed; workers read, and start on an entry; what they await is done, the queueing
of deliveries with the webhooks that the recipient then has, or fails, done or not; workers are restarted. -/
inductive Move
  | add (fields : List String)
  | trim (count : ℕ)
  | read (worker : ℕ)
  | lost
  | handle (worker : ℕ) (now : ℤ)
  | resume (worker : ℕ)
  | notify (worker : ℕ) (webhooks : List Webhook)
  | fail (worker : ℕ) (applied : Bool)
  | crash (worker : ℕ)

inductive Event (A S : Type)
  | stream (event : ConsumerGroups.Event)
  | scored (id worker : ℕ) (payment : Payment A) (riskScore : S) (reason : String)
  | alerted (id : ℕ) (alert : Alert A S)
  /-- The payments with a transaction hash are flagged with a score. -/
  | flagged (id : ℕ) (hash : String) (riskScore : S)
  /-- Deliveries to the webhooks are queued. -/
  | notified (id : ℕ) (alert : Alert A S) (webhooks : List Webhook)

def COUNT : ℕ := 10

def present (text : Option String) : Option String := text.filter (· ≠ "")

def Webhook.listens (webhook : Webhook) : Bool :=
  let events := webhook.events.getD ["*"]
  events.contains "*" || events.contains "fraud.detected"

variable {A N S : Type} (primitives : Primitives A N S)

def parseStreamEntry (fields : List String) : Option (Option (Payment A)) :=
  let raw := match fields.findIdx? (· = "payload") with
    | some index => fields[index + 1]?
    | none => fields[1]?
  match raw with
  | none => some none
  | some raw => primitives.parse raw

def eventIdOf (payment : Payment A) : String :=
  ((present payment.eventId).or (present payment.transactionHash)).getD (primitives.digest payment)

def Phase.entry : Phase A S → Option ℕ
  | .ready => none
  | .upserting id .. | .flagging id .. | .notifying id _ | .acking id => some id

namespace World

variable (w : World A N S)

def setPhase (worker : ℕ) (phase : Phase A S) : World A N S :=
  { w with phases := Function.update w.phases worker phase }

def moved (move : ConsumerGroups.Move (List String)) : World A N S :=
  { w with group := ConsumerGroups.step move w.group }

lemma phases_setPhase (worker k : ℕ) (phase : Phase A S) :
    (w.setPhase worker phase).phases k = if k = worker then phase else w.phases k :=
  Function.update_apply ..

/-- A worker that is ready takes up the next entry of its batch, and scores the payment in it. -/
def handle (worker : ℕ) (now : ℤ) : World A N S × List (Event A S) :=
  match w.phases worker, w.group.next worker with
  | .ready, some (id, _) =>
    let taken : Event A S := .stream (.taken id)
    let w := w.moved (.take worker)
    match (w.group.entries[id]?).bind (parseStreamEntry primitives) with
    | none => (w.moved (.leave worker), [taken])
    | some none => (w.setPhase worker (.acking id), [taken])
    | some (some payment) =>
      if (present payment.sender).isSome ∧ (present payment.recipient).isSome then
        let (scorer, riskScore, reason) :=
          (w.scorers worker).score primitives.toNumbers {} payment now
        let w := { w with scorers := Function.update w.scorers worker scorer }
        (w.setPhase worker (if primitives.low riskScore then .acking id
          else .upserting id payment riskScore reason), [taken, .scored id worker payment riskScore reason])
      else (w.setPhase worker (.acking id), [taken])
  | _, _ => (w, [])

/-- What the worker awaits is done, unless that is the queueing of deliveries. -/
def resume (worker : ℕ) : World A N S × List (Event A S) :=
  match w.phases worker with
  | .upserting id payment riskScore reason =>
    let eventId := eventIdOf primitives payment
    let created := ((w.alerts eventId).map Alert.created).getD payment
    let alert : Alert A S := ⟨eventId, created, payment, riskScore, reason⟩
    let phase : Phase A S := match present payment.transactionHash with
      | some hash => .flagging id hash alert
      | none => .notifying id alert
    ({ w with alerts := Function.update w.alerts eventId (some alert) }.setPhase worker phase,
      [.alerted id alert])
  | .flagging id hash alert =>
    (w.setPhase worker (.notifying id alert), [.flagged id hash alert.riskScore])
  | .acking _ =>
    ((w.moved (.ack worker)).setPhase worker .ready,
      (ConsumerGroups.emit w.group (.ack worker)).map .stream)
  | .ready | .notifying .. => (w, [])

def notify (worker : ℕ) (webhooks : List Webhook) : World A N S × List (Event A S) :=
  match w.phases worker with
  | .notifying id alert =>
    (w.setPhase worker (.acking id), [.notified id alert (webhooks.filter Webhook.listens)])
  | _ => (w, [])

/-- The handling of the entry threw: the worker logs it and goes on to the next one. -/
def drop (worker : ℕ) : World A N S := (w.moved (.leave worker)).setPhase worker .ready

def restart (worker : ℕ) : World A N S :=
  { (w.moved (.crash worker)).setPhase worker .ready with
    scorers := Function.update w.scorers worker createFraudScorer }

def stream (move : ConsumerGroups.Move (List String)) : World A N S × List (Event A S) :=
  (w.moved move, (ConsumerGroups.emit w.group move).map .stream)

end World

def advance (w : World A N S) : Move → World A N S × List (Event A S)
  | .add fields => w.stream (.add fields)
  | .trim count => w.stream (.trim count)
  | .read worker =>
    match w.phases worker with
    | .ready => w.stream (.read worker COUNT)
    | _ => (w, [])
  | .lost => w.stream (.lost COUNT)
  | .handle worker now => w.handle primitives worker now
  | .resume worker => w.resume primitives worker
  | .notify worker webhooks => w.notify worker webhooks
  | .fail worker applied =>
    let (w, events) := if applied then w.resume primitives worker else (w, [])
    (w.drop worker, events)
  | .crash worker => (w.restart worker, [])

def work (move : Move) (w : World A N S) : World A N S := (advance primitives w move).1

def emit (w : World A N S) (move : Move) : List (Event A S) := (advance primitives w move).2

def streamOf (log : List (Event A S)) : List ConsumerGroups.Event :=
  log.filterMap fun | .stream event => some event | _ => none

end Model

section Stream

variable {A N S : Type} {primitives : Primitives A N S} {w : World A N S} {log : List (Event A S)}

@[simp] lemma streamOf_append (a b : List (Event A S)) : streamOf (a ++ b) = streamOf a ++ streamOf b :=
  List.filterMap_append

@[simp] lemma streamOf_map (events : List ConsumerGroups.Event) :
    streamOf (events.map (.stream : _ → Event A S)) = events := by
  rw [streamOf, List.filterMap_map]
  exact List.filterMap_some

/-- What is done to the stream in a step is a run of it. -/
def Follows (w : World A N S) (p : World A N S × List (Event A S)) : Prop :=
  ∃ moves, p.1.group = run ConsumerGroups.step w.group moves ∧
    streamOf p.2 = trace ConsumerGroups.step ConsumerGroups.emit w.group moves

namespace Follows

lemma still {w' : World A N S} {es : List (Event A S)} (hgroup : w'.group = w.group)
    (hes : streamOf es = []) : Follows w (w', es) := ⟨[], hgroup, hes⟩

lemma stream (move : ConsumerGroups.Move (List String)) : Follows w (w.stream move) := by
  refine ⟨[move], rfl, ?_⟩
  rw [trace, trace, List.append_nil]
  exact streamOf_map _

lemma handle (worker : ℕ) (now : ℤ) : Follows w (w.handle primitives worker now) := by
  rw [World.handle.eq_def]
  split
  · next id rest _ hnext =>
    have hemit := emit_take hnext
    have htake {w' : World A N S} {es : List (Event A S)}
        (hgroup : w'.group = ConsumerGroups.step (.take worker) w.group)
        (hes : streamOf es = [.taken id]) : Follows w (w', es) := by
      refine ⟨[.take worker], hgroup, ?_⟩
      rw [trace, trace, hemit, hes]
      rfl
    simp only
    split
    · refine ⟨[.take worker, .leave worker], rfl, ?_⟩
      rw [trace, trace, trace, hemit]
      rfl
    · exact htake rfl rfl
    · split_ifs
      · exact htake rfl rfl
      · exact htake rfl rfl
      · exact htake rfl rfl
  · exact still rfl rfl

lemma resume (worker : ℕ) : Follows w (w.resume primitives worker) := by
  rw [World.resume.eq_def]
  cases w.phases worker with
  | upserting => exact still rfl rfl
  | flagging => exact still rfl rfl
  | acking => exact ⟨[.ack worker], rfl, (streamOf_map _).trans (List.append_nil _).symm⟩
  | ready => exact still rfl rfl
  | notifying => exact still rfl rfl

lemma notify (worker : ℕ) (webhooks : List Webhook) : Follows w (w.notify worker webhooks) := by
  rw [World.notify.eq_def]
  split
  · exact still rfl rfl
  · exact still rfl rfl

lemma advance (move : Move) : Follows w (Fraud.advance primitives w move) := by
  rw [Fraud.advance.eq_def]
  cases move with
  | add fields => exact stream _
  | trim count => exact stream _
  | read worker =>
    simp only
    split
    · exact stream _
    · exact still rfl rfl
  | lost => exact stream _
  | handle worker now => exact handle worker now
  | resume worker => exact resume worker
  | notify worker webhooks => exact notify worker webhooks
  | fail worker applied =>
    have hleave {p : World A N S × List (Event A S)} (h : Follows w p) :
        Follows w (p.1.drop worker, p.2) := by
      obtain ⟨moves, hgroup, hes⟩ := h
      refine ⟨moves ++ [.leave worker], ?_, ?_⟩
      · rw [run_append, ← hgroup]
        rfl
      · rw [trace_append, ← hes]
        exact (List.append_nil _).symm
    cases applied with
    | true => exact hleave (resume worker)
    | false => exact hleave (still rfl rfl)
  | crash worker => exact ⟨[.crash worker], rfl, rfl⟩

lemma orderly {p : World A N S × List (Event A S)} (h : Follows w p)
    (horderly : Orderly (streamOf log) w.group) : Orderly (streamOf (log ++ p.2)) p.1.group := by
  obtain ⟨moves, hgroup, hes⟩ := h
  rw [streamOf_append, hgroup, hes]
  exact horderly.run moves

end Follows

end Stream

section Safety

variable {A N S : Type}

/-- The score that an entry was given, by whoever took it up. -/
def Sole (log : List (Event A S)) (id : ℕ) (payment : Payment A) (riskScore : S) (reason : String) : Prop :=
  (∃ worker, .scored id worker payment riskScore reason ∈ log) ∧
    ∀ worker p s r, .scored id worker p s r ∈ log → p = payment ∧ s = riskScore ∧ r = reason

variable (primitives : Primitives A N S)

/-- An alert was raised about the payment of an entry. -/
def Raised (log : List (Event A S)) (id : ℕ) (alert : Alert A S) : Prop :=
  primitives.low alert.riskScore = false ∧ Sole log id alert.rawEvent alert.riskScore alert.reason ∧
    alert.eventId = eventIdOf primitives alert.rawEvent ∧ .alerted id alert ∈ log

/-- If the score was high, there is an alert, the payments with the transaction hash are flagged, and
deliveries are queued. -/
def Settled (log : List (Event A S)) (id : ℕ) : Prop :=
  ∀ worker payment riskScore reason, .scored id worker payment riskScore reason ∈ log →
    primitives.low riskScore = false → ∃ alert webhooks, alert.rawEvent = payment ∧
      alert.riskScore = riskScore ∧ alert.reason = reason ∧
      alert.eventId = eventIdOf primitives payment ∧ .alerted id alert ∈ log ∧
      (∀ hash, present payment.transactionHash = some hash → .flagged id hash riskScore ∈ log) ∧
      .notified id alert webhooks ∈ log

/-- What a worker in a phase has done. -/
def Owed (log : List (Event A S)) : Phase A S → Prop
  | .ready => True
  | .upserting id payment riskScore reason =>
    primitives.low riskScore = false ∧ Sole log id payment riskScore reason
  | .flagging id hash alert =>
    Raised primitives log id alert ∧ present alert.rawEvent.transactionHash = some hash
  | .notifying id alert =>
    Raised primitives log id alert ∧ ∀ hash, present alert.rawEvent.transactionHash = some hash →
      .flagged id hash alert.riskScore ∈ log
  | .acking id => Settled primitives log id

/-- Both payments of an alert have its event id, and were given high scores. -/
def Founded (log : List (Event A S)) (alert : Alert A S) : Prop :=
  eventIdOf primitives alert.rawEvent = alert.eventId ∧
    eventIdOf primitives alert.created = alert.eventId ∧ primitives.low alert.riskScore = false ∧
    (∃ id worker, .scored id worker alert.rawEvent alert.riskScore alert.reason ∈ log) ∧
    ∃ id worker riskScore reason, .scored id worker alert.created riskScore reason ∈ log ∧
      primitives.low riskScore = false

structure Watched (log : List (Event A S)) (w : World A N S) : Prop where
  current : ∀ k, w.group.current k = (w.phases k).entry
  scored : ∀ id k p s r, .scored id k p s r ∈ log → id ∈ takenOf (streamOf log)
  phases : ∀ k, Owed primitives log (w.phases k)
  acked : ∀ id ∈ ackedOf (streamOf log), Settled primitives log id
  alerts : ∀ eventId alert, w.alerts eventId = some alert →
    Founded primitives log alert ∧ alert.eventId = eventId
  alerted : ∀ id alert, .alerted id alert ∈ log → (w.alerts alert.eventId).isSome

variable {primitives} {w w' : World A N S} {log es : List (Event A S)} {id worker : ℕ}
  {payment : Payment A} {riskScore : S} {reason : String} {alert : Alert A S} {phase : Phase A S}

/-- No score of the entry is among the events. -/
def Spared (es : List (Event A S)) (id : ℕ) : Prop :=
  ∀ worker payment riskScore reason, .scored id worker payment riskScore reason ∉ es

lemma Sole.append (h : Sole log id payment riskScore reason) (hes : Spared es id) :
    Sole (log ++ es) id payment riskScore reason := by
  obtain ⟨⟨worker, hscored⟩, hall⟩ := h
  refine ⟨⟨worker, List.mem_append_left _ hscored⟩, fun k p s r hmem => ?_⟩
  obtain hmem | hmem := List.mem_append.mp hmem
  · exact hall k p s r hmem
  · exact absurd hmem (hes k p s r)

lemma Raised.append (h : Raised primitives log id alert) (hes : Spared es id) :
    Raised primitives (log ++ es) id alert := by
  obtain ⟨hlow, hsole, heventId, halerted⟩ := h
  exact ⟨hlow, hsole.append hes, heventId, List.mem_append_left _ halerted⟩

lemma Settled.append (h : Settled primitives log id) (hes : Spared es id) :
    Settled primitives (log ++ es) id := by
  intro k p s r hmem hlow
  obtain hmem | hmem := List.mem_append.mp hmem
  · obtain ⟨alert, webhooks, hp, hs, hr, heventId, halerted, hflagged, hnotified⟩ := h k p s r hmem hlow
    exact ⟨alert, webhooks, hp, hs, hr, heventId, List.mem_append_left _ halerted,
      fun hash hhash => List.mem_append_left _ (hflagged hash hhash), List.mem_append_left _ hnotified⟩
  · exact absurd hmem (hes k p s r)

lemma Sole.fresh (h : Spared log id) :
    Sole (log ++ [.stream (.taken id), .scored id worker payment riskScore reason]) id payment riskScore
      reason := by
  refine ⟨⟨worker, List.mem_append_right _ (List.mem_cons_of_mem _ List.mem_cons_self)⟩,
    fun k p s r hmem => ?_⟩
  obtain hmem | hmem := List.mem_append.mp hmem
  · exact absurd hmem (h k p s r)
  obtain hmem | hmem := List.mem_cons.mp hmem
  · cases hmem
  · cases List.mem_singleton.mp hmem
    exact ⟨rfl, rfl, rfl⟩

lemma Settled.of_spared (h : Spared log id) : Settled primitives log id :=
  fun k p s r hmem => absurd hmem (h k p s r)

lemma Owed.append (h : Owed primitives log phase) (hes : ∀ id, phase.entry = some id → Spared es id) :
    Owed primitives (log ++ es) phase := by
  cases phase with
  | ready => trivial
  | upserting id payment riskScore reason => exact ⟨h.1, h.2.append (hes id rfl)⟩
  | flagging id hash alert => exact ⟨h.1.append (hes id rfl), h.2⟩
  | notifying id alert =>
    exact ⟨h.1.append (hes id rfl), fun hash hhash => List.mem_append_left _ (h.2 hash hhash)⟩
  | acking id => exact Settled.append h (hes id rfl)

lemma Owed.of_sole (h : Sole log id payment riskScore reason) : Owed primitives log
    (if primitives.low riskScore then .acking id else .upserting id payment riskScore reason) := by
  split_ifs with hlow
  · intro k p s r hmem hhigh
    obtain ⟨-, rfl, -⟩ := h.2 k p s r hmem
    exact absurd (hhigh.symm.trans hlow) Bool.false_ne_true
  · exact ⟨Bool.not_eq_true _ ▸ hlow, h⟩

lemma Founded.append (h : Founded primitives log alert) (es : List (Event A S)) :
    Founded primitives (log ++ es) alert := by
  obtain ⟨hraw, hcreated, hlow, ⟨id, worker, hscored⟩, j, k, s, r, hfirst, hhigh⟩ := h
  exact ⟨hraw, hcreated, hlow, ⟨id, worker, List.mem_append_left _ hscored⟩, j, k, s, r,
    List.mem_append_left _ hfirst, hhigh⟩

namespace Watched

lemma init : Watched primitives [] ({} : World A N S) where
  current _ := rfl
  scored _ _ _ _ _ h := absurd h List.not_mem_nil
  phases _ := trivial
  acked _ h := absurd h List.not_mem_nil
  alerts _ _ h := absurd h (Option.some_ne_none _).symm
  alerted _ _ h := absurd h List.not_mem_nil

/-- A step in which at most new entries are scored, and entries acknowledged that are settled. -/
lemma next (h : Watched primitives log w) (horderly : Orderly (streamOf log) w.group)
    (hcurrent : ∀ k, w'.group.current k = (w'.phases k).entry)
    (hscored : ∀ id k p s r, .scored id k p s r ∈ es →
      id ∈ takenOf (streamOf es) ∧ id ∉ takenOf (streamOf log))
    (hphases : ∀ k, w'.phases k = w.phases k ∨ Owed primitives (log ++ es) (w'.phases k))
    (hacked : ∀ id ∈ ackedOf (streamOf es), Settled primitives log id ∧ id ∈ takenOf (streamOf log))
    (halerts : ∀ eventId alert, w'.alerts eventId = some alert → w.alerts eventId = some alert ∨
      Founded primitives log alert ∧ alert.eventId = eventId)
    (hkept : ∀ eventId, (w.alerts eventId).isSome → (w'.alerts eventId).isSome)
    (halerted : ∀ id alert, .alerted id alert ∈ es → (w'.alerts alert.eventId).isSome) :
    Watched primitives (log ++ es) w' := by
  have hspared {id : ℕ} (hid : id ∈ takenOf (streamOf log)) : Spared es id :=
    fun k p s r hmem => (hscored id k p s r hmem).2 hid
  refine ⟨hcurrent, fun id k p s r hmem => ?_, fun k => ?_, fun id hid => ?_, fun eventId alert hmem => ?_,
    fun id alert hmem => ?_⟩
  · rw [streamOf_append, takenOf_append, List.mem_append]
    obtain hmem | hmem := List.mem_append.mp hmem
    · exact .inl (h.scored id k p s r hmem)
    · exact .inr (hscored id k p s r hmem).1
  · obtain heq | howed := hphases k
    · rw [heq]
      refine (h.phases k).append fun id hid => hspared ?_
      exact horderly.current_taken k id ((h.current k).trans hid)
    · exact howed
  · rw [streamOf_append, ackedOf_append] at hid
    obtain hid | hid := List.mem_append.mp hid
    · exact (h.acked id hid).append (hspared (horderly.acked_taken id hid))
    · exact (hacked id hid).1.append (hspared (hacked id hid).2)
  · obtain hold | ⟨hfounded, heq⟩ := halerts eventId alert hmem
    · exact ⟨(h.alerts eventId alert hold).1.append es, (h.alerts eventId alert hold).2⟩
    · exact ⟨hfounded.append es, heq⟩
  · obtain hmem | hmem := List.mem_append.mp hmem
    · exact hkept _ (h.alerted id alert hmem)
    · exact halerted id alert hmem

/-- What a worker does that leaves the alerts alone. -/
lemma turn (h : Watched primitives log w) (i : ℕ) (phase : Phase A S)
    (horderly : Orderly (streamOf log) w.group) (halerts : w'.alerts = w.alerts)
    (hcurrent : ∀ k, w'.group.current k = if k = i then phase.entry else w.group.current k)
    (hphases : ∀ k, w'.phases k = if k = i then phase else w.phases k)
    (hscored : ∀ id k p s r, .scored id k p s r ∈ es →
      id ∈ takenOf (streamOf es) ∧ id ∉ takenOf (streamOf log))
    (howed : Owed primitives (log ++ es) phase)
    (hacked : ∀ id ∈ ackedOf (streamOf es), Settled primitives log id ∧ id ∈ takenOf (streamOf log))
    (halerted : ∀ id alert, .alerted id alert ∉ es) : Watched primitives (log ++ es) w' := by
  refine h.next horderly (fun k => ?_) hscored (fun k => ?_) hacked
    (fun eventId alert hmem => .inl (by rwa [← halerts])) (fun eventId hmem => by rwa [halerts])
    fun id alert hmem => absurd hmem (halerted id alert)
  · rw [hcurrent, hphases, h.current]
    split_ifs
    · rfl
    · rfl
  · rw [hphases]
    split_ifs
    · exact .inr howed
    · exact .inl rfl

lemma stream (h : Watched primitives log w) (horderly : Orderly (streamOf log) w.group)
    {move : ConsumerGroups.Move (List String)}
    (hcurrent : ∀ k, (ConsumerGroups.step move w.group).current k = w.group.current k)
    (hacked : ackedOf (ConsumerGroups.emit w.group move) = []) :
    Watched primitives (log ++ (w.stream move).2) (w.stream move).1 := by
  refine h.next horderly (fun k => (hcurrent k).trans (h.current k)) (fun id k p s r hmem => ?_)
    (fun k => .inl rfl) (fun id hid => ?_) (fun _ _ => .inl) (fun _ => id) fun id alert hmem => ?_
  · obtain ⟨e, -, heq⟩ := List.mem_map.mp hmem
    cases heq
  · have hstream : streamOf (w.stream move : _ × List (Event A S)).2 = _ := streamOf_map _
    rw [hstream, hacked] at hid
    exact absurd hid List.not_mem_nil
  · obtain ⟨e, -, heq⟩ := List.mem_map.mp hmem
    cases heq

/-- A worker takes up an entry. -/
lemma take (h : Watched primitives log w) (horderly : Orderly (streamOf log) w.group) {rest : List ℕ}
    (hnext : w.group.next worker = some (id, rest)) (hentry : phase.entry = some id)
    (halerts : w'.alerts = w.alerts) (hgroup : w'.group = ConsumerGroups.step (.take worker) w.group)
    (hphases : ∀ k, w'.phases k = if k = worker then phase else w.phases k)
    (hes : es = [.stream (.taken id)] ∨
      ∃ p s r, es = [.stream (.taken id), .scored id worker p s r])
    (howed : Spared log id → Owed primitives (log ++ es) phase) : Watched primitives (log ++ es) w' := by
  have hbatch := (Group.next_eq_some.mp hnext).2
  have hnew : id ∉ takenOf (streamOf log) :=
    (horderly.batch_handed worker id (hbatch ▸ List.mem_cons_self)).2
  have hcurrent (k : ℕ) : w'.group.current k = if k = worker then phase.entry else w.group.current k := by
    rw [hgroup, hentry]
    exact current_take k hnext
  refine h.turn worker phase horderly halerts hcurrent hphases (fun j k p s r hmem => ?_)
    (howed fun k p s r hmem => hnew (h.scored id k p s r hmem)) (fun j hj => ?_) fun j alert hmem => ?_
  · obtain rfl | ⟨p', s', r', rfl⟩ := hes
    · cases List.mem_singleton.mp hmem
    · obtain hmem | hmem := List.mem_cons.mp hmem
      · cases hmem
      · cases List.mem_singleton.mp hmem
        exact ⟨List.mem_singleton_self _, hnew⟩
  · obtain rfl | ⟨p', s', r', rfl⟩ := hes
    · exact absurd hj List.not_mem_nil
    · exact absurd hj List.not_mem_nil
  · obtain rfl | ⟨p', s', r', rfl⟩ := hes
    · cases List.mem_singleton.mp hmem
    · obtain hmem | hmem := List.mem_cons.mp hmem
      · cases hmem
      · cases List.mem_singleton.mp hmem

lemma quit (h : Watched primitives log w) (horderly : Orderly (streamOf log) w.group) (i : ℕ)
    (halerts : w'.alerts = w.alerts)
    (hcurrent : ∀ k, w'.group.current k = if k = i then none else w.group.current k)
    (hphases : ∀ k, w'.phases k = if k = i then .ready else w.phases k) : Watched primitives log w' := by
  have hnext : Watched primitives (log ++ []) w' :=
    h.turn i .ready horderly halerts hcurrent hphases (fun _ _ _ _ _ hmem => absurd hmem List.not_mem_nil)
      trivial (fun _ hid => absurd hid List.not_mem_nil) fun _ _ => List.not_mem_nil
  rwa [List.append_nil] at hnext

lemma handle (h : Watched primitives log w) (horderly : Orderly (streamOf log) w.group) (worker : ℕ)
    (now : ℤ) : Watched primitives (log ++ (w.handle primitives worker now).2)
      (w.handle primitives worker now).1 := by
  rw [World.handle.eq_def]
  split
  · next id rest hphase hnext =>
    -- the entry holds no payment to be scored
    have hunscored : Watched primitives (log ++ [.stream (.taken id)])
        ((w.moved (.take worker)).setPhase worker (.acking id)) := by
      have hentry : (.acking id : Phase A S).entry = some id := rfl
      refine h.take horderly hnext hentry rfl rfl (fun k => World.phases_setPhase ..) (.inl rfl)
        fun hspared => Settled.of_spared fun k p s r hmem => ?_
      obtain hmem | hmem := List.mem_append.mp hmem
      · exact hspared k p s r hmem
      · cases List.mem_singleton.mp hmem
    simp only
    split
    · have htaken : Orderly (streamOf (log ++ [.stream (.taken id)])) (w.moved (.take worker)).group := by
        have hstep := horderly.step (.take worker)
        rw [emit_take hnext] at hstep
        rwa [streamOf_append]
      refine hunscored.quit htaken worker rfl current_leave fun k => ?_
      rw [World.phases_setPhase]
      split_ifs with hk
      · rw [hk]
        exact hphase
      · rfl
    · exact hunscored
    · next payment _ =>
      by_cases hfields : (present payment.sender).isSome ∧ (present payment.recipient).isSome
      · rw [if_pos hfields]
        refine h.take horderly hnext ?_ rfl rfl (fun k => World.phases_setPhase ..) (.inr ⟨_, _, _, rfl⟩)
          fun hspared => .of_sole (.fresh hspared)
        split_ifs
        · rfl
        · rfl
      · rw [if_neg hfields]
        exact hunscored
  · rw [List.append_nil]
    exact h

lemma proceed (h : Watched primitives log w) (horderly : Orderly (streamOf log) w.group) (i : ℕ)
    (phase : Phase A S) {event : Event A S} (hentry : phase.entry = (w.phases i).entry)
    (howed : Owed primitives (log ++ [event]) phase) (hscored : ∀ id k p s r, .scored id k p s r ≠ event)
    (hstream : streamOf [event] = []) (halerted : ∀ id alert, .alerted id alert ≠ event) :
    Watched primitives (log ++ [event]) (w.setPhase i phase) := by
  refine h.turn i phase horderly rfl (fun k => ?_) (fun k => World.phases_setPhase ..)
    (fun id k p s r hmem => absurd (List.mem_singleton.mp hmem) (hscored id k p s r)) howed
    (fun id hid => ?_) fun id alert hmem => absurd (List.mem_singleton.mp hmem) (halerted id alert)
  · split_ifs with hk
    · rw [hk, hentry]
      exact h.current i
    · rfl
  · rw [hstream] at hid
    exact absurd hid List.not_mem_nil

lemma founded (h : Watched primitives log w)
    (hscored : ∃ worker, .scored id worker alert.rawEvent alert.riskScore alert.reason ∈ log)
    (hlow : primitives.low alert.riskScore = false)
    (heventId : alert.eventId = eventIdOf primitives alert.rawEvent)
    (hcreated : alert.created = ((w.alerts alert.eventId).map Alert.created).getD alert.rawEvent) :
    Founded primitives log alert := by
  obtain ⟨worker, hscored⟩ := hscored
  cases hold : w.alerts alert.eventId with
  | none =>
    have hfirst : alert.created = alert.rawEvent := by rw [hcreated, hold]; rfl
    exact ⟨heventId.symm, hfirst ▸ heventId.symm, hlow, ⟨id, worker, hscored⟩, id, worker, _, _,
      hfirst ▸ hscored, hlow⟩
  | some old =>
    have hfirst : alert.created = old.created := by rw [hcreated, hold]; rfl
    obtain ⟨⟨-, hsame, -, -, hhigh⟩, heq⟩ := h.alerts _ old hold
    exact ⟨heventId.symm, hfirst ▸ hsame.trans heq, hlow, ⟨id, worker, hscored⟩, hfirst ▸ hhigh⟩

lemma upsert (h : Watched primitives log w) (horderly : Orderly (streamOf log) w.group)
    (hphase : w.phases worker = .upserting id payment riskScore reason) (hraw : alert.rawEvent = payment)
    (hscore : alert.riskScore = riskScore) (hreason : alert.reason = reason)
    (heventId : alert.eventId = eventIdOf primitives payment)
    (hcreated : alert.created = ((w.alerts alert.eventId).map Alert.created).getD payment)
    (hnext : phase.entry = some id)
    (howed : Raised primitives (log ++ [.alerted id alert]) id alert →
      Owed primitives (log ++ [.alerted id alert]) phase) :
    Watched primitives (log ++ [.alerted id alert])
      ({ w with alerts := Function.update w.alerts alert.eventId (some alert) }.setPhase worker phase) := by
  subst hraw hscore hreason
  have hupserting := h.phases worker
  rw [hphase] at hupserting
  obtain ⟨hlow, hsole⟩ := hupserting
  have hspared : Spared [(.alerted id alert : Event A S)] id := by
    intro k p s r hmem
    cases List.mem_singleton.mp hmem
  have hfounded := h.founded hsole.1 hlow heventId hcreated
  have halerts (eventId : String) : Function.update w.alerts alert.eventId (some alert) eventId =
      if eventId = alert.eventId then some alert else w.alerts eventId := Function.update_apply ..
  refine h.next horderly (fun k => ?_) (fun j k p s r hmem => ?_) (fun k => ?_)
    (fun j hj => absurd hj List.not_mem_nil) (fun eventId other hother => ?_) (fun eventId hsome => ?_)
    fun j other hmem => ?_
  · refine (h.current k).trans ?_
    rw [World.phases_setPhase]
    split_ifs with hk
    · rw [hk, hphase, hnext]
      rfl
    · rfl
  · cases List.mem_singleton.mp hmem
  · rw [World.phases_setPhase]
    split_ifs
    · exact .inr (howed ⟨hlow, hsole.append hspared, heventId,
        List.mem_append_right _ (List.mem_singleton_self _)⟩)
    · exact .inl rfl
  · have hother := (halerts eventId).symm.trans hother
    split_ifs at hother with heq
    · obtain rfl := Option.some.inj hother
      exact .inr ⟨hfounded, heq.symm⟩
    · exact .inl hother
  · refine (congrArg Option.isSome (halerts eventId)).trans ?_
    split_ifs
    · rfl
    · exact hsome
  · cases List.mem_singleton.mp hmem
    exact (congrArg Option.isSome (halerts alert.eventId)).trans (by rw [if_pos rfl]; rfl)

lemma resume (h : Watched primitives log w) (horderly : Orderly (streamOf log) w.group) (worker : ℕ) :
    Watched primitives (log ++ (w.resume primitives worker).2) (w.resume primitives worker).1 := by
  have howed := h.phases worker
  rw [World.resume.eq_def]
  cases hphase : w.phases worker with
  | ready =>
    rw [List.append_nil]
    exact h
  | upserting id payment riskScore reason =>
    simp only
    cases hhash : present payment.transactionHash with
    | none =>
      refine h.upsert horderly hphase rfl rfl rfl rfl rfl rfl fun hraised => ⟨hraised, fun hash heq => ?_⟩
      exact absurd (heq.symm.trans hhash) (Option.some_ne_none hash)
    | some hash =>
      exact h.upsert horderly hphase rfl rfl rfl rfl rfl rfl fun hraised => ⟨hraised, hhash⟩
  | flagging id hash alert =>
    rw [hphase] at howed
    have hspared : Spared [(.flagged id hash alert.riskScore : Event A S)] id := by
      intro k p s r hmem
      cases List.mem_singleton.mp hmem
    refine h.proceed horderly worker (.notifying id alert) (hphase ▸ rfl)
      ⟨howed.1.append hspared, fun other hother => ?_⟩ (by simp) rfl (by simp)
    obtain rfl := Option.some.inj (hother.symm.trans howed.2)
    exact List.mem_append_right _ (List.mem_singleton_self _)
  | notifying id alert =>
    rw [List.append_nil]
    exact h
  | acking id =>
    rw [hphase] at howed
    have hentry : w.group.current worker = some id := (h.current worker).trans (hphase ▸ rfl)
    simp only [emit_ack hentry]
    refine h.turn worker .ready horderly rfl current_ack (fun k => World.phases_setPhase ..)
      (fun j k p s r hmem => ?_) trivial (fun j hj => ?_) fun j alert hmem => ?_
    · cases List.mem_singleton.mp hmem
    · obtain rfl := List.mem_singleton.mp hj
      exact ⟨howed, horderly.current_taken worker j hentry⟩
    · cases List.mem_singleton.mp hmem

lemma notify (h : Watched primitives log w) (horderly : Orderly (streamOf log) w.group) (worker : ℕ)
    (webhooks : List Webhook) :
    Watched primitives (log ++ (w.notify worker webhooks).2) (w.notify worker webhooks).1 := by
  have howed := h.phases worker
  rw [World.notify.eq_def]
  split
  · next id alert hphase =>
    rw [hphase] at howed
    obtain ⟨⟨hlow, hsole, heventId, halerted⟩, hflagged⟩ := howed
    refine h.proceed horderly worker (.acking id) (hphase ▸ rfl) ?_ (by simp) rfl (by simp)
    intro k p s r hmem hhigh
    have hold : .scored id k p s r ∈ log := by
      obtain hmem | hmem := List.mem_append.mp hmem
      · exact hmem
      · cases List.mem_singleton.mp hmem
    obtain ⟨rfl, rfl, rfl⟩ := hsole.2 k p s r hold
    exact ⟨alert, webhooks.filter Webhook.listens, rfl, rfl, rfl, heventId,
      List.mem_append_left _ halerted, fun hash hhash => List.mem_append_left _ (hflagged hash hhash),
      List.mem_append_right _ (List.mem_singleton_self _)⟩
  · rw [List.append_nil]
    exact h

lemma advance (h : Watched primitives log w) (horderly : Orderly (streamOf log) w.group) (move : Move) :
    Watched primitives (log ++ emit primitives w move) (work primitives move w) := by
  rw [emit, work, Fraud.advance.eq_def]
  cases move with
  | add fields => exact h.stream horderly (fun _ => rfl) rfl
  | trim count => exact h.stream horderly (fun _ => rfl) rfl
  | read worker =>
    simp only
    split
    · refine h.stream horderly (fun k => ?_) ?_
      · rw [ConsumerGroups.step]
        split_ifs
        · rfl
        · rfl
      · rw [ConsumerGroups.emit]
        split_ifs
        · exact ackedOf_map _
        · rfl
    · rw [List.append_nil]
      exact h
  | lost => exact h.stream horderly (fun _ => rfl) (ackedOf_map _)
  | handle worker now => exact h.handle horderly worker now
  | resume worker => exact h.resume horderly worker
  | notify worker webhooks => exact h.notify horderly worker webhooks
  | fail worker applied =>
    have hdrop {p : World A N S × List (Event A S)} (hp : Watched primitives (log ++ p.2) p.1)
        (hfollows : Follows w p) : Watched primitives (log ++ p.2) (p.1.drop worker) :=
      hp.quit (hfollows.orderly horderly) worker rfl current_leave fun k => World.phases_setPhase ..
    cases applied with
    | true => exact hdrop (h.resume horderly worker) (.resume worker)
    | false => exact hdrop ((List.append_nil log).symm ▸ h) (.still rfl rfl)
  | crash worker =>
    rw [List.append_nil]
    exact h.quit horderly worker rfl current_crash fun k => World.phases_setPhase ..

end Watched

variable (primitives)

lemma watched (moves : List Move) :
    let log := trace (work primitives) (emit primitives) ({} : World A N S) moves
    let w := run (work primitives) {} moves
    Orderly (streamOf log) w.group ∧ Watched primitives log w := by
  have hinit : Orderly (streamOf ([] : List (Event A S))) ({} : World A N S).group ∧
      Watched primitives [] ({} : World A N S) := ⟨Orderly.init, Watched.init⟩
  have hstep (log : List (Event A S)) (w : World A N S) (move : Move)
      (h : Orderly (streamOf log) w.group ∧ Watched primitives log w) :
      Orderly (streamOf (log ++ emit primitives w move)) (work primitives move w).group ∧
        Watched primitives (log ++ emit primitives w move) (work primitives move w) :=
    ⟨(Follows.advance move).orderly h.1, h.2.advance h.1 move⟩
  exact trace_invariant hstep hinit moves

lemma forsaken_run (horderly : Orderly (streamOf log) w.group) (hid : Forsaken (streamOf log) w.group id)
    (moves : List Move) : Forsaken (streamOf (log ++ trace (work primitives) (emit primitives) w moves))
      (run (work primitives) w moves).group id ∧
      id ∉ takenOf (streamOf (trace (work primitives) (emit primitives) w moves)) := by
  induction moves generalizing log w with
  | nil => exact ⟨(List.append_nil log).symm ▸ hid, List.not_mem_nil⟩
  | cons move moves ih =>
    have hfollows : Follows w (advance primitives w move) := .advance move
    have hnext := hfollows.orderly horderly
    obtain ⟨ms, hgroup, hes⟩ := hfollows
    obtain ⟨hstep, hnot⟩ := hid.run horderly ms
    rw [← hgroup, ← hes, ← streamOf_append] at hstep
    obtain ⟨hlast, hlater⟩ := ih hnext hstep
    refine ⟨?_, ?_⟩
    · rw [trace, ← List.append_assoc]
      exact hlast
    · rw [trace, streamOf_append, takenOf_append, List.mem_append, not_or]
      exact ⟨hes ▸ hnot, hlater⟩

/-- However many workers there are, and whatever fails: an entry is taken up once at most; the pending
ones are those that were handed out and never acknowledged; what was acknowledged and scored high has its
alert, and compliance was told of it; an alert comes from payments with its event id and high scores; and
what a worker failed on or lost stays pending, and nobody takes it up. -/
theorem alerts_exact (moves : List Move) :
    let log := trace (work primitives) (emit primitives) ({} : World A N S) moves
    let w := run (work primitives) {} moves
    (takenOf (streamOf log)).Nodup ∧
    (∀ id, id ∈ w.group.pending ↔ id ∈ handedOf (streamOf log) ∧ id ∉ ackedOf (streamOf log)) ∧
    (∀ id ∈ ackedOf (streamOf log), Settled primitives log id) ∧
    (∀ id alert, .alerted id alert ∈ log → (w.alerts alert.eventId).isSome) ∧
    (∀ eventId alert, w.alerts eventId = some alert →
      Founded primitives log alert ∧ alert.eventId = eventId) ∧
    ∀ id, Forsaken (streamOf log) w.group id → ∀ later,
      id ∈ (run (work primitives) w later).group.pending ∧
      id ∉ takenOf (streamOf (trace (work primitives) (emit primitives) w later)) := by
  intro log w
  obtain ⟨horderly, h⟩ := watched (N := N) primitives moves
  refine ⟨horderly.taken_nodup, horderly.pending_iff, h.acked, h.alerted, h.alerts,
    fun id hid later => ?_⟩
  obtain ⟨hlater, hnot⟩ := forsaken_run primitives horderly hid later
  have hpending := (watched (N := N) primitives (moves ++ later)).1.pending_iff id
  rw [trace_append, run_append] at hpending
  exact ⟨hpending.mpr ⟨hlater.handed, hlater.not_acked⟩, hnot⟩

/-- A message that does not parse. -/
example :
    let primitives : Primitives ℕ ℕ ℕ :=
      ⟨⟨fun n => n, fun _ _ velocity => (velocity, "")⟩, fun _ => none, fun _ => "", fun _ => false⟩
    (run (work primitives) {} [.add ["payload", "?"], .read 0, .handle 0 0, .resume 0]).group.pending =
      [0] := by
  decide

end Safety

end StellarTags.Fraud
