import Mathlib.Data.List.Nodup
import StellarTags.Library.Runs

/-! The dead letter queue and the parked deliveries: replays, discards and resends, await by await. -/

namespace StellarTags.Webhooks.DeadLetters

open Library.Runs

section System

variable {P : Type}

/-- A job of the main queues. `origin` is the dead letter that it was replayed from. -/
structure Job (P : Type) where
  id : String
  name : String
  payload : P
  origin : Option ℕ := none
  deriving DecidableEq

/-- What `routeToDlq` keeps of a job; every job has the name of its queue. -/
structure Message (P : Type) where
  originalJobId : Option String
  queue : String
  jobName : Option String
  payload : P
  owner : Option String
  deriving DecidableEq

structure Letter (P : Type) where
  id : ℕ
  message : Message P

/-- A row of `webhookDLQ`. -/
structure Entry (P : Type) where
  id : ℕ
  webhookUrl : String
  eventPayload : P
  deliveryAttempts : ℕ := 0
  replayed : Bool := false

inductive Event (P : Type)
  | routed (id : ℕ) (message : Message P)
  | enqueued (id : ℕ) (queue : String) (job : Job P)
  | left (id : ℕ)
  | discarded (id : ℕ)
  | worked (queue : String) (job : Job P)
  | sent (id : ℕ)
  deriving DecidableEq

/-- Where a call awaits. A replay has the messages that are left of its batch. -/
inductive Phase (P : Type)
  | idle
  | listing (limit : ℕ) (username : Option String)
  | fetching (id : ℕ) (rest : List ℕ)
  | adding (id : ℕ) (message : Message P) (jobId : String) (rest : List ℕ)
  | removing (id : ℕ) (rest : List ℕ)
  | finding (id : ℕ)
  | dropping (id : ℕ)
  | looking (id : ℕ)
  | sending (entry : Entry P)
  | marking (id : ℕ)
  | counting (entry : Entry P)
  | done

/-- The letters are listed from the newest. -/
structure World (P : Type) where
  letters : List (Letter P) := []
  queues : String → List (Job P) := fun _ => []
  entries : List (Entry P) := []
  nextId : ℕ := 0
  tasks : ℕ → Phase P := fun _ => .idle
  history : List (Event P) := []

inductive Move (P : Type)
  | route (message : Message P)
  | park (entry : Entry P)
  | enqueue (queue jobId name : String) (payload : P)
  | work (queue jobId : String)
  | replay (i id : ℕ)
  | replayAll (i limit : ℕ) (username : Option String)
  | discard (i id : ℕ)
  | resend (i id : ℕ)
  | resume (i now : ℕ) (succeeds : Bool)

def replayJobId (originalJobId : Option String) (now : ℕ) : String :=
  ((originalJobId.filter (· ≠ "")).getD "replay") ++ "-replay-" ++ toString now

def messageBelongsTo (username : Option String) (letter : Letter P) : Bool :=
  match username with
  | none | some "" => true
  | some username => letter.message.owner.any fun owner => owner.toLower = username.toLower

/-- On to the next message of a batch. -/
def replayNext : List ℕ → Phase P
  | [] => .done
  | id :: rest => .fetching id rest

namespace World

variable (w : World P)

def setTask (i : ℕ) (phase : Phase P) : World P :=
  { w with tasks := Function.update w.tasks i phase }

def note (event : Event P) : World P := { w with history := w.history ++ [event] }

def letter (id : ℕ) : Option (Letter P) := w.letters.find? fun letter => letter.id = id

def Free (queue jobId : String) : Prop := ∀ job ∈ w.queues queue, job.id ≠ jobId

instance (queue jobId : String) : Decidable (w.Free queue jobId) :=
  inferInstanceAs (Decidable (∀ job ∈ w.queues queue, job.id ≠ jobId))

def setQueue (queue : String) (jobs : List (Job P)) : World P :=
  { w with queues := Function.update w.queues queue jobs }

/-- A job whose id the queue has already is ignored. -/
def add (queue : String) (job : Job P) : World P :=
  if w.Free queue job.id then w.setQueue queue (w.queues queue ++ [job]) else w

def route (message : Message P) : World P :=
  { w with
    letters := ⟨w.nextId, message⟩ :: w.letters
    nextId := w.nextId + 1 }.note (.routed w.nextId message)

def removeLetter (id : ℕ) : World P :=
  { w with letters := w.letters.filter fun letter => letter.id ≠ id }

/-- The add of a replay, and what comes of it. -/
def addReplayed (id : ℕ) (message : Message P) (jobId : String) : World P :=
  let job : Job P :=
    ⟨jobId, (message.jobName.filter (· ≠ "")).getD "deliver", message.payload, some id⟩
  if w.Free message.queue jobId then (w.add message.queue job).note (.enqueued id message.queue job)
  else w

/-- The event is noted where the letter was still there. -/
def remove (id : ℕ) (event : Event P) : World P :=
  if (w.letter id).isSome then (w.removeLetter id).note event else w

def mapEntries (id : ℕ) (change : Entry P → Entry P) : World P :=
  { w with entries := w.entries.map fun entry => if entry.id = id then change entry else entry }

def work (queue jobId : String) : World P :=
  match (w.queues queue).find? fun job => job.id = jobId with
  | none => w
  | some job =>
    (w.setQueue queue ((w.queues queue).eraseP fun other => other.id = jobId)).note (.worked queue job)

end World

def MAX_REPLAY_BATCH_SIZE : ℕ := 100

/-- An await of a call ends at a time; a delivery succeeds or not. -/
def World.resume (w : World P) (i now : ℕ) (succeeds : Bool) : World P :=
  match w.tasks i with
  | .idle | .done => w
  | .listing limit username =>
    let jobs := w.letters.take (min (max limit 1) MAX_REPLAY_BATCH_SIZE)
    w.setTask i (replayNext ((jobs.filter (messageBelongsTo username)).map Letter.id))
  | .fetching id rest =>
    match w.letter id with
    | none => w.setTask i (replayNext rest)
    | some letter =>
      w.setTask i (.adding id letter.message (replayJobId letter.message.originalJobId now) rest)
  | .adding id message jobId rest => (w.addReplayed id message jobId).setTask i (.removing id rest)
  | .removing id rest => (w.remove id (.left id)).setTask i (replayNext rest)
  | .finding id =>
    match w.letter id with
    | none => w.setTask i .done
    | some _ => w.setTask i (.dropping id)
  | .dropping id => (w.remove id (.discarded id)).setTask i .done
  | .looking id =>
    match w.entries.find? fun entry => entry.id = id with
    | none => w.setTask i .done
    | some entry => w.setTask i (if entry.replayed then .done else .sending entry)
  | .sending entry =>
    if succeeds then (w.note (.sent entry.id)).setTask i (.marking entry.id)
    else w.setTask i (.counting entry)
  | .marking id => (w.mapEntries id fun entry => { entry with replayed := true }).setTask i .done
  | .counting read =>
    (w.mapEntries read.id fun entry =>
      { entry with deliveryAttempts := read.deliveryAttempts + 1 }).setTask i .done

def World.begin (w : World P) (i : ℕ) (phase : Phase P) : World P :=
  match w.tasks i with
  | .idle => w.setTask i phase
  | _ => w

def step (move : Move P) (w : World P) : World P :=
  match move with
  | .route message => w.route message
  | .park entry => { w with entries := w.entries ++ [{ entry with replayed := false, id := w.entries.length }] }
  | .enqueue queue jobId name payload => w.add queue ⟨jobId, name, payload, none⟩
  | .work queue jobId => w.work queue jobId
  | .replay i id => w.begin i (.fetching id [])
  | .replayAll i limit username => w.begin i (.listing limit username)
  | .discard i id => w.begin i (.finding id)
  | .resend i id => w.begin i (.looking id)
  | .resume i now succeeds => w.resume i now succeeds

end System

section Letters

variable {P : Type} {w : World P} {i id : ℕ} {message : Message P} {jobId queue : String}
  {rest : List ℕ} {phase : Phase P} {event : Event P} {history : List (Event P)}

def enqueuedIds (history : List (Event P)) : List ℕ :=
  history.filterMap fun event =>
    match event with
    | .enqueued id _ _ => some id
    | _ => none

def sentIds (history : List (Event P)) : List ℕ :=
  history.filterMap fun event =>
    match event with
    | .sent id => some id
    | _ => none

@[simp] lemma enqueuedIds_append (more : List (Event P)) :
    enqueuedIds (history ++ more) = enqueuedIds history ++ enqueuedIds more :=
  List.filterMap_append ..

@[simp] lemma sentIds_append (more : List (Event P)) :
    sentIds (history ++ more) = sentIds history ++ sentIds more := List.filterMap_append ..

lemma mem_enqueuedIds : id ∈ enqueuedIds history ↔ ∃ queue job, .enqueued id queue job ∈ history := by
  simp only [enqueuedIds, List.mem_filterMap]
  constructor
  · rintro ⟨event, hevent, hid⟩
    cases event with
    | enqueued other queue job =>
      obtain rfl := Option.some.inj hid
      exact ⟨queue, job, hevent⟩
    | _ => cases hid
  · rintro ⟨queue, job, hevent⟩
    exact ⟨_, hevent, rfl⟩

/-- The letter was replayed: a job of its own, with its payload, was added to the queue that it came
from; and it is there still, unless a worker has taken it. -/
def Owned (w : World P) (id : ℕ) : Prop :=
  ∃ message job, .routed id message ∈ w.history ∧ .enqueued id message.queue job ∈ w.history ∧
    job.payload = message.payload ∧ job.origin = some id ∧
      (job ∈ w.queues message.queue ∨ .worked message.queue job ∈ w.history)

/-- No letter is replayed twice or after it was discarded, none leaves by a replay but for a job of
its own, and no parked delivery is sent twice. -/
structure ExactlyOnce (w : World P) : Prop where
  enqueued : (enqueuedIds w.history).Nodup
  sent : (sentIds w.history).Nodup
  own : ∀ id, .left id ∈ w.history → Owned w id
  discarded : w.history.Pairwise fun a b => ∀ id queue job,
    a = .discarded id → b ≠ .enqueued id queue job

/-- A replay that adds finds its letter there and no other replay of it about to remove it; or, if the
job's id is taken, a job of the same letter. A delivery that is sent was not sent before. -/
structure Unraced (w : World P) (move : Move P) : Prop where
  adds : ∀ i now succeeds id message jobId rest, move = .resume i now succeeds →
    w.tasks i = .adding id message jobId rest → w.Free message.queue jobId →
      (w.letter id).isSome ∧ ∀ k rest', w.tasks k ≠ .removing id rest'
  taken : ∀ i now succeeds id message jobId rest, move = .resume i now succeeds →
    w.tasks i = .adding id message jobId rest → ¬ w.Free message.queue jobId →
      ∃ job ∈ w.queues message.queue, job.id = jobId ∧ job.origin = some id
  sends : ∀ i now entry, move = .resume i now true → w.tasks i = .sending entry →
    (∃ row ∈ w.entries, row.id = entry.id ∧ row.replayed = false) ∧
      ∀ k, w.tasks k ≠ .marking entry.id

/-- What holds of the letters and the jobs that they are replayed as. -/
structure Kept (w : World P) : Prop where
  once : (enqueuedIds w.history).Nodup
  own : ∀ id, .left id ∈ w.history → Owned w id
  discarded : w.history.Pairwise fun a b => ∀ id queue job,
    a = .discarded id → b ≠ .enqueued id queue job
  letters : ∀ letter ∈ w.letters, .routed letter.id letter.message ∈ w.history
  routed : ∀ id message, .routed id message ∈ w.history → id < w.nextId
  message : ∀ id message message', .routed id message ∈ w.history →
    .routed id message' ∈ w.history → message = message'
  noted : ∀ id, .discarded id ∈ w.history ∨ id ∈ enqueuedIds w.history → id < w.nextId
  gone : ∀ id, .discarded id ∈ w.history → w.letter id = none
  adding : ∀ i id message jobId rest, w.tasks i = .adding id message jobId rest →
    .routed id message ∈ w.history
  removing : ∀ i id rest, w.tasks i = .removing id rest → Owned w id
  pending : ∀ id, id ∈ enqueuedIds w.history → (w.letter id).isSome →
    ∃ i rest, w.tasks i = .removing id rest
  origins : ∀ queue, ∀ job ∈ w.queues queue, ∀ id, job.origin = some id →
    ∃ message, .routed id message ∈ w.history ∧ queue = message.queue ∧
      .enqueued id queue job ∈ w.history ∧ job.payload = message.payload

lemma letter_isSome : (w.letter id).isSome ↔ ∃ letter ∈ w.letters, letter.id = id := by
  simp [World.letter]

lemma letter_eq_none : w.letter id = none ↔ ∀ letter ∈ w.letters, letter.id ≠ id := by
  simp [World.letter]

lemma Owned.mono {next : World P} (h : Owned w id) (hhistory : ∀ event ∈ w.history, event ∈ next.history)
    (hqueues : ∀ queue, ∀ job ∈ w.queues queue,
      job ∈ next.queues queue ∨ .worked queue job ∈ next.history) : Owned next id := by
  obtain ⟨message, job, hrouted, henqueued, hpayload, horigin, hjob⟩ := h
  refine ⟨message, job, hhistory _ hrouted, hhistory _ henqueued, hpayload, horigin, ?_⟩
  obtain hjob | hworked := hjob
  · exact hqueues message.queue job hjob
  · exact .inr (hhistory _ hworked)

lemma Kept.setTask (h : Kept w) (i : ℕ) (phase : Phase P)
    (hadding : ∀ id message jobId rest, phase = .adding id message jobId rest →
      .routed id message ∈ w.history)
    (hremoving : ∀ id rest, phase = .removing id rest → Owned w id)
    (hleft : ∀ id rest, w.tasks i = .removing id rest → w.letter id = none) :
    Kept (w.setTask i phase) where
  once := h.once
  own := h.own
  discarded := h.discarded
  letters := h.letters
  routed := h.routed
  message := h.message
  noted := h.noted
  gone := h.gone
  adding j id message jobId rest hphase := by
    by_cases hj : j = i
    · subst hj
      simp only [World.setTask, Function.update_self] at hphase
      exact hadding id message jobId rest hphase
    · simp only [World.setTask, Function.update_of_ne hj] at hphase
      exact h.adding j id message jobId rest hphase
  removing j id rest hphase := by
    by_cases hj : j = i
    · subst hj
      simp only [World.setTask, Function.update_self] at hphase
      exact hremoving id rest hphase
    · simp only [World.setTask, Function.update_of_ne hj] at hphase
      exact h.removing j id rest hphase
  pending id hid hletter := by
    obtain ⟨j, rest, hphase⟩ := h.pending id hid hletter
    have hj : j ≠ i := by
      rintro rfl
      rw [World.letter, World.setTask] at hletter
      have hnone := hleft id rest hphase
      rw [World.letter] at hnone
      rw [hnone] at hletter
      cases hletter
    exact ⟨j, rest, by simpa [World.setTask, Function.update_of_ne hj] using hphase⟩
  origins := h.origins

lemma Kept.setQueue (h : Kept w) (queue : String) (jobs : List (Job P)) (events : List (Event P))
    (hevents : ∀ event ∈ events, (∃ job, event = .worked queue job) ∨ ∃ id, event = .sent id)
    (hcame : ∀ job ∈ jobs, job ∈ w.queues queue ∨ job.origin = none)
    (hwent : ∀ job ∈ w.queues queue, job ∈ jobs ∨ .worked queue job ∈ w.history ++ events) :
    Kept { w with
      queues := Function.update w.queues queue jobs
      history := w.history ++ events } := by
  have hids : enqueuedIds (w.history ++ events) = enqueuedIds w.history := by
    have hnone : enqueuedIds events = [] := by
      apply List.filterMap_eq_nil_iff.mpr
      intro event hevent
      obtain ⟨job, rfl⟩ | ⟨id, rfl⟩ := hevents event hevent <;> rfl
    rw [enqueuedIds_append, hnone, List.append_nil]
  have hmem {event : Event P} (hworked : ∀ job, event ≠ .worked queue job)
      (hsent : ∀ id, event ≠ .sent id) : event ∈ w.history ++ events ↔ event ∈ w.history := by
    rw [List.mem_append, or_iff_left]
    intro hevent
    obtain ⟨job, rfl⟩ | ⟨id, rfl⟩ := hevents event hevent
    · exact hworked job rfl
    · exact hsent id rfl
  have howned (id : ℕ) (hid : Owned w id) : Owned { w with
      queues := Function.update w.queues queue jobs
      history := w.history ++ events } id := by
    apply hid.mono fun event hevent => List.mem_append_left _ hevent
    intro other job hjob
    by_cases hother : other = queue
    · subst hother
      simp only [Function.update_self]
      exact hwent job hjob
    · simp only [Function.update_of_ne hother]
      exact .inl hjob
  constructor
  · rw [hids]
    exact h.once
  · intro id hleft
    exact howned id (h.own id ((hmem (by simp) (by simp)).mp hleft))
  · rw [List.pairwise_append]
    refine ⟨h.discarded, ?_, fun a _ b hb id queue' job _ => ?_⟩
    · apply List.pairwise_of_forall_mem_list
      intro a _ b hb id queue' job _
      obtain ⟨other, rfl⟩ | ⟨other, rfl⟩ := hevents b hb <;> exact fun heq => nomatch heq
    · obtain ⟨other, rfl⟩ | ⟨other, rfl⟩ := hevents b hb <;> exact fun heq => nomatch heq
  · exact fun letter hletter => List.mem_append_left _ (h.letters letter hletter)
  · exact fun id message hrouted => h.routed id message ((hmem (by simp) (by simp)).mp hrouted)
  · exact fun id message message' hrouted hrouted' => h.message id message message'
      ((hmem (by simp) (by simp)).mp hrouted) ((hmem (by simp) (by simp)).mp hrouted')
  · intro id hnoted
    rw [hids, hmem (by simp) (by simp)] at hnoted
    exact h.noted id hnoted
  · exact fun id hdiscarded => h.gone id ((hmem (by simp) (by simp)).mp hdiscarded)
  · exact fun i id message jobId rest hphase =>
      List.mem_append_left _ (h.adding i id message jobId rest hphase)
  · exact fun i id rest hphase => howned id (h.removing i id rest hphase)
  · intro id hid hletter
    rw [hids] at hid
    exact h.pending id hid hletter
  · intro other job hjob id horigin
    have hjob : job ∈ w.queues other := by
      by_cases hother : other = queue
      · subst hother
        simp only [Function.update_self] at hjob
        obtain hjob | hnone := hcame job hjob
        · exact hjob
        · rw [hnone] at horigin
          cases horigin
      · simpa only [Function.update_of_ne hother] using hjob
    obtain ⟨message, hrouted, hqueue, henqueued, hpayload⟩ := h.origins other job hjob id horigin
    exact ⟨message, List.mem_append_left _ hrouted, hqueue, List.mem_append_left _ henqueued, hpayload⟩

lemma Kept.add (h : Kept w) (queue jobId name : String) (payload : P) :
    Kept (w.add queue ⟨jobId, name, payload, none⟩) := by
  unfold World.add
  split_ifs
  · have hadded := h.setQueue queue (w.queues queue ++ [⟨jobId, name, payload, none⟩]) [] (by simp)
      (fun job hjob => ?_) fun job hjob => .inl (List.mem_append_left _ hjob)
    · simpa [World.setQueue] using hadded
    · obtain hjob | hjob := List.mem_append.mp hjob
      · exact .inl hjob
      · exact .inr (List.mem_singleton.mp hjob ▸ rfl)
  · exact h

lemma Kept.work (h : Kept w) (queue jobId : String) : Kept (w.work queue jobId) := by
  unfold World.work
  cases hfind : (w.queues queue).find? fun job => job.id = jobId with
  | none => exact h
  | some job =>
    obtain ⟨hid, before, after, hjobs, hbefore⟩ := List.find?_eq_some_iff_append.mp hfind
    have herase : (w.queues queue).eraseP (fun other => other.id = jobId) = before ++ after := by
      rw [hjobs, List.eraseP_append_right _ fun other hother => by simpa using hbefore other hother]
      simp only [List.eraseP_cons, hid, cond_true]
    refine h.setQueue queue _ [.worked queue job] (by simp) (fun other hother => ?_) fun other hother => ?_
    · exact .inl (List.mem_of_mem_eraseP hother)
    · rw [herase]
      rw [hjobs] at hother
      obtain hother | rfl | hother := List.mem_append.mp hother |>.imp_right List.mem_cons.mp
      · exact .inl (List.mem_append_left _ hother)
      · exact .inr (by simp)
      · exact .inl (List.mem_append_right _ hother)

lemma Kept.sent (h : Kept w) (id : ℕ) : Kept (w.note (.sent id)) := by
  have hsame := h.setQueue "" (w.queues "") [.sent id] (by simp) (fun _ hjob => .inl hjob)
    fun _ hjob => .inl hjob
  simpa [World.note] using hsame

lemma Kept.route (h : Kept w) (message : Message P) : Kept (w.route message) := by
  have hfresh (event : Event P) (hevent : event ∈ w.history) : event ∈ (w.route message).history :=
    List.mem_append_left _ hevent
  have hold {event : Event P} (hother : event ≠ .routed w.nextId message) :
      event ∈ (w.route message).history ↔ event ∈ w.history := by
    simp [World.route, World.note, hother]
  have hids : enqueuedIds (w.route message).history = enqueuedIds w.history := by
    simp [World.route, World.note, enqueuedIds]
  have howned (id : ℕ) (hid : Owned w id) : Owned (w.route message) id :=
    hid.mono hfresh fun _ _ hjob => .inl hjob
  have hletter {id : ℕ} (hid : id < w.nextId) : (w.route message).letter id = w.letter id := by
    have hne : w.nextId ≠ id := (Nat.ne_of_lt hid).symm
    simp [World.letter, World.route, World.note, hne]
  constructor
  · rw [hids]
    exact h.once
  · exact fun id hleft => howned id (h.own id ((hold (by simp)).mp hleft))
  · refine List.pairwise_append.mpr ⟨h.discarded, List.pairwise_singleton .., fun a _ b hb id _ _ _ => ?_⟩
    rw [List.mem_singleton.mp hb]
    exact fun heq => nomatch heq
  · intro letter hmem
    obtain rfl | hmem := List.mem_cons.mp hmem
    · exact List.mem_append_right _ (List.mem_singleton_self _)
    · exact hfresh _ (h.letters letter hmem)
  · intro id other hrouted
    obtain hrouted | hrouted := List.mem_append.mp hrouted
    · exact Nat.lt_succ_of_lt (h.routed id other hrouted)
    · obtain ⟨rfl, -⟩ := Event.routed.inj (List.mem_singleton.mp hrouted)
      exact Nat.lt_succ_self _
  · intro id first second hfirst hsecond
    have hnew (other : Message P) (hrouted : .routed w.nextId other ∈ (w.route message).history) :
        other = message := by
      obtain hrouted | hrouted := List.mem_append.mp hrouted
      · exact absurd (h.routed _ _ hrouted) (Nat.lt_irrefl _)
      · exact (Event.routed.inj (List.mem_singleton.mp hrouted)).2
    by_cases hid : id = w.nextId
    · subst hid
      rw [hnew first hfirst, hnew second hsecond]
    · exact h.message id first second ((hold (by simp [hid])).mp hfirst)
        ((hold (by simp [hid])).mp hsecond)
  · intro id hnoted
    rw [hids, hold (by simp)] at hnoted
    exact Nat.lt_succ_of_lt (h.noted id hnoted)
  · intro id hdiscarded
    have hdiscarded := (hold (by simp)).mp hdiscarded
    rw [hletter (h.noted id (.inl hdiscarded))]
    exact h.gone id hdiscarded
  · exact fun i id other jobId rest hphase => hfresh _ (h.adding i id other jobId rest hphase)
  · exact fun i id rest hphase => howned id (h.removing i id rest hphase)
  · intro id hid hsome
    rw [hids] at hid
    rw [hletter (h.noted id (.inr hid))] at hsome
    exact h.pending id hid hsome
  · intro queue job hjob id horigin
    obtain ⟨other, hrouted, hqueue, henqueued, hpayload⟩ := h.origins queue job hjob id horigin
    exact ⟨other, hfresh _ hrouted, hqueue, hfresh _ henqueued, hpayload⟩

lemma Kept.setEntries (h : Kept w) (entries : List (Entry P)) : Kept { w with entries := entries } where
  once := h.once
  own := h.own
  discarded := h.discarded
  letters := h.letters
  routed := h.routed
  message := h.message
  noted := h.noted
  gone := h.gone
  adding := h.adding
  removing := h.removing
  pending := h.pending
  origins := h.origins

lemma Kept.remove (h : Kept w) (id : ℕ)
    (hevent : event = .left id ∧ Owned w id ∨ event = .discarded id) : Kept (w.remove id event) := by
  unfold World.remove
  split_ifs with hsome
  swap
  · exact h
  have hids : enqueuedIds ((w.removeLetter id).note event).history = enqueuedIds w.history := by
    obtain ⟨rfl, -⟩ | rfl := hevent <;> simp [World.removeLetter, World.note, enqueuedIds]
  have hfresh (other : Event P) (hother : other ∈ w.history) :
      other ∈ ((w.removeLetter id).note event).history := List.mem_append_left _ hother
  have hrouted {other : ℕ} {message : Message P}
      (hmem : .routed other message ∈ ((w.removeLetter id).note event).history) :
      .routed other message ∈ w.history := by
    obtain hmem | hmem := List.mem_append.mp hmem
    · exact hmem
    · obtain ⟨rfl, -⟩ | rfl := hevent <;> cases List.mem_singleton.mp hmem
  have howned (other : ℕ) (hother : Owned w other) : Owned ((w.removeLetter id).note event) other :=
    hother.mono hfresh fun _ _ hjob => .inl hjob
  have hletter {other : ℕ} (hother : (((w.removeLetter id).note event).letter other).isSome) :
      (w.letter other).isSome := by
    obtain ⟨letter, hmem, hid⟩ := letter_isSome.mp hother
    exact letter_isSome.mpr ⟨letter, List.mem_of_mem_filter hmem, hid⟩
  constructor
  · rw [hids]
    exact h.once
  · intro other hleft
    obtain hleft | hleft := List.mem_append.mp hleft
    · exact howned other (h.own other hleft)
    · obtain ⟨rfl, hown⟩ | rfl := hevent
      · obtain rfl := Event.left.inj (List.mem_singleton.mp hleft)
        exact howned other hown
      · cases List.mem_singleton.mp hleft
  · refine List.pairwise_append.mpr ⟨h.discarded, List.pairwise_singleton .., fun a _ b hb _ _ _ _ => ?_⟩
    rw [List.mem_singleton.mp hb]
    obtain ⟨rfl, -⟩ | rfl := hevent <;> exact fun heq => nomatch heq
  · exact fun letter hmem => hfresh _ (h.letters letter (List.mem_of_mem_filter hmem))
  · exact fun other message hmem => h.routed other message (hrouted hmem)
  · exact fun other first second hfirst hsecond =>
      h.message other first second (hrouted hfirst) (hrouted hsecond)
  · intro other hnoted
    rw [hids] at hnoted
    obtain hdiscarded | hid := hnoted
    · obtain hdiscarded | hdiscarded := List.mem_append.mp hdiscarded
      · exact h.noted other (.inl hdiscarded)
      · obtain ⟨rfl, -⟩ | rfl := hevent
        · cases List.mem_singleton.mp hdiscarded
        · obtain rfl := Event.discarded.inj (List.mem_singleton.mp hdiscarded)
          obtain ⟨letter, hmem, rfl⟩ := letter_isSome.mp hsome
          exact h.routed _ _ (h.letters letter hmem)
    · exact h.noted other (.inr hid)
  · intro other hdiscarded
    rw [letter_eq_none]
    intro letter hmem hid
    obtain ⟨hmem, hne⟩ := List.mem_filter.mp hmem
    obtain hdiscarded | hdiscarded := List.mem_append.mp hdiscarded
    · exact letter_eq_none.mp (h.gone other hdiscarded) letter hmem hid
    · obtain ⟨rfl, -⟩ | rfl := hevent
      · cases List.mem_singleton.mp hdiscarded
      · obtain rfl := Event.discarded.inj (List.mem_singleton.mp hdiscarded)
        simp [hid] at hne
  · exact fun i other message jobId rest hphase => hfresh _ (h.adding i other message jobId rest hphase)
  · exact fun i other rest hphase => howned other (h.removing i other rest hphase)
  · intro other hid hsome
    rw [hids] at hid
    exact h.pending other hid (hletter hsome)
  · intro queue job hjob other horigin
    obtain ⟨message, hmem, hqueue, henqueued, hpayload⟩ := h.origins queue job hjob other horigin
    exact ⟨message, hfresh _ hmem, hqueue, hfresh _ henqueued, hpayload⟩

lemma remove_letter (id : ℕ) (event : Event P) : (w.remove id event).letter id = none := by
  unfold World.remove
  split_ifs with hsome
  · exact letter_eq_none.mpr fun letter hmem hid => by simpa [hid] using (List.mem_filter.mp hmem).2
  · simpa using hsome

lemma Kept.enqueued (h : Kept w) (hphase : w.tasks i = .adding id message jobId rest)
    (hsome : (w.letter id).isSome) (hremoving : ∀ k rest', w.tasks k ≠ .removing id rest')
    {job : Job P} (hpayload : job.payload = message.payload) (horigin : job.origin = some id) :
    Kept (((w.setQueue message.queue (w.queues message.queue ++ [job])).note
      (.enqueued id message.queue job)).setTask i (.removing id rest)) := by
  have hmessage := h.adding i id message jobId rest hphase
  have hfirst : id ∉ enqueuedIds w.history := by
    intro hid
    obtain ⟨k, rest', hk⟩ := h.pending id hid hsome
    exact hremoving k rest' hk
  set next := ((w.setQueue message.queue (w.queues message.queue ++ [job])).note
    (.enqueued id message.queue job)).setTask i (.removing id rest) with hnext
  have hhistory : next.history = w.history ++ [.enqueued id message.queue job] := rfl
  have hids : enqueuedIds next.history = enqueuedIds w.history ++ [id] := by
    rw [hhistory, enqueuedIds_append]
    rfl
  have hfresh (event : Event P) (hevent : event ∈ w.history) : event ∈ next.history :=
    List.mem_append_left _ hevent
  have hold {event : Event P} (hother : ∀ queue job, event ≠ .enqueued id queue job) :
      event ∈ next.history ↔ event ∈ w.history := by
    simp [hhistory, hother]
  have hqueue {queue : String} {other : Job P} :
      other ∈ next.queues queue ↔ other ∈ w.queues queue ∨ queue = message.queue ∧ other = job := by
    by_cases hname : queue = message.queue
    · subst hname
      simp [hnext, World.setTask, World.note, World.setQueue]
    · simp [hnext, World.setTask, World.note, World.setQueue, hname]
  have howned (other : ℕ) (hother : Owned w other) : Owned next other :=
    hother.mono hfresh fun queue job hjob => .inl (hqueue.mpr (.inl hjob))
  have htask {k : ℕ} (hk : k ≠ i) : next.tasks k = w.tasks k := Function.update_of_ne hk ..
  have hself : next.tasks i = .removing id rest := Function.update_self ..
  have hadded : .enqueued id message.queue job ∈ next.history :=
    List.mem_append_right _ (List.mem_singleton_self _)
  constructor
  · rw [hids, List.nodup_append]
    refine ⟨h.once, List.nodup_singleton id, fun a ha b hb => ?_⟩
    rw [List.mem_singleton.mp hb]
    exact fun heq => hfirst (heq ▸ ha)
  · exact fun other hleft => howned other (h.own other ((hold (by simp)).mp hleft))
  · refine List.pairwise_append.mpr ⟨h.discarded, List.pairwise_singleton .., fun a ha b hb => ?_⟩
    rintro other queue job rfl rfl
    obtain ⟨rfl, -⟩ := Event.enqueued.inj (List.mem_singleton.mp hb)
    rw [h.gone other ha] at hsome
    cases hsome
  · exact fun letter hmem => hfresh _ (h.letters letter hmem)
  · exact fun other message hmem => h.routed other message ((hold (by simp)).mp hmem)
  · exact fun other first second hmem hmem' =>
      h.message other first second ((hold (by simp)).mp hmem) ((hold (by simp)).mp hmem')
  · intro other hnoted
    rw [hids, hold (by simp), List.mem_append, List.mem_singleton, ← or_assoc] at hnoted
    obtain hnoted | rfl := hnoted
    · exact h.noted other hnoted
    · exact h.routed other message hmessage
  · exact fun other hdiscarded => h.gone other ((hold (by simp)).mp hdiscarded)
  · intro k other message jobId rest' hk
    have hne : k ≠ i := by
      rintro rfl
      rw [hself] at hk
      cases hk
    rw [htask hne] at hk
    exact hfresh _ (h.adding k other message jobId rest' hk)
  · intro k other rest' hk
    by_cases hne : k = i
    · subst hne
      rw [hself] at hk
      obtain ⟨rfl, -⟩ := Phase.removing.inj hk
      exact ⟨message, job, hfresh _ hmessage, hadded, hpayload, horigin, .inl (hqueue.mpr (.inr ⟨rfl, rfl⟩))⟩
    · rw [htask hne] at hk
      exact howned other (h.removing k other rest' hk)
  · intro other hid hletter
    rw [hids, List.mem_append, List.mem_singleton] at hid
    obtain hid | rfl := hid
    · obtain ⟨k, rest', hk⟩ := h.pending other hid hletter
      have hne : k ≠ i := by
        rintro rfl
        rw [hphase] at hk
        cases hk
      exact ⟨k, rest', by rw [htask hne, hk]⟩
    · exact ⟨i, rest, hself⟩
  · intro queue other hother letter hletter
    obtain hother | ⟨rfl, rfl⟩ := hqueue.mp hother
    · obtain ⟨message, hmem, hname, henqueued, hsame⟩ := h.origins queue other hother letter hletter
      exact ⟨message, hfresh _ hmem, hname, hfresh _ henqueued, hsame⟩
    · obtain rfl := Option.some.inj (horigin.symm.trans hletter)
      exact ⟨message, hfresh _ hmessage, rfl, hadded, hpayload⟩

lemma Kept.replayed (h : Kept w) {move : Move P} {now : ℕ} {succeeds : Bool}
    (hphase : w.tasks i = .adding id message jobId rest) (hmove : move = .resume i now succeeds)
    (hunraced : Unraced w move) :
    Kept ((w.addReplayed id message jobId).setTask i (.removing id rest)) := by
  unfold World.addReplayed World.add
  by_cases hfree : w.Free message.queue jobId
  · obtain ⟨hsome, hremoving⟩ :=
      hunraced.adds i now succeeds id message jobId rest hmove hphase hfree
    simp only [hfree, if_true]
    exact h.enqueued hphase hsome hremoving rfl rfl
  · obtain ⟨job, hjob, -, horigin⟩ :=
      hunraced.taken i now succeeds id message jobId rest hmove hphase hfree
    obtain ⟨other, hrouted, hqueue, henqueued, hpayload⟩ :=
      h.origins message.queue job hjob id horigin
    simp only [hfree, if_false]
    apply h.setTask
    · exact fun _ _ _ _ heq => nomatch heq
    · rintro id' rest' heq
      obtain ⟨rfl, -⟩ := Phase.removing.inj heq
      exact ⟨other, job, hrouted, hqueue ▸ henqueued, hpayload, horigin, .inl (hqueue ▸ hjob)⟩
    · intro id' rest' hremoving
      rw [hphase] at hremoving
      cases hremoving

lemma replayNext_ne (rest : List ℕ) : (∀ id message jobId rest',
    (replayNext rest : Phase P) ≠ .adding id message jobId rest') ∧
      ∀ id rest', (replayNext rest : Phase P) ≠ .removing id rest' := by
  cases rest <;> simp [replayNext]

lemma Kept.goOn (h : Kept w) (i : ℕ) (rest : List ℕ)
    (hleft : ∀ id rest, w.tasks i = .removing id rest → w.letter id = none) :
    Kept (w.setTask i (replayNext rest)) := by
  obtain ⟨hadding, hremoving⟩ := replayNext_ne (P := P) rest
  apply h.setTask
  · exact fun id message jobId rest' heq => absurd heq (hadding id message jobId rest')
  · exact fun id rest' heq => absurd heq (hremoving id rest')
  · exact hleft

lemma tasks_remove (id : ℕ) (event : Event P) : (w.remove id event).tasks = w.tasks := by
  unfold World.remove
  split_ifs <;> rfl

lemma Kept.resume (h : Kept w) {now : ℕ} {succeeds : Bool}
    (hunraced : Unraced w (.resume i now succeeds)) : Kept (w.resume i now succeeds) := by
  have hset (phase : Phase P) (hadding : ∀ id message jobId rest, phase ≠ .adding id message jobId rest)
      (hremoving : ∀ id rest, phase ≠ .removing id rest)
      (hleft : ∀ id rest, w.tasks i ≠ .removing id rest) {next : World P} (hnext : Kept next)
      (htasks : next.tasks = w.tasks) : Kept (next.setTask i phase) := by
    apply hnext.setTask
    · exact fun id message jobId rest heq => absurd heq (hadding id message jobId rest)
    · exact fun id rest heq => absurd heq (hremoving id rest)
    · rw [htasks]
      exact fun id rest heq => absurd heq (hleft id rest)
  unfold World.resume
  cases hphase : w.tasks i with
  | idle | done => exact h
  | listing limit username => exact h.goOn i _ (by simp [hphase])
  | fetching id rest =>
    dsimp only
    cases hletter : w.letter id with
    | none => exact h.goOn i rest (by simp [hphase])
    | some letter =>
      have hid : letter.id = id := by simpa using List.find?_some hletter
      apply h.setTask
      · intro id' message jobId rest' heq
        obtain ⟨rfl, rfl, -⟩ := Phase.adding.inj heq
        exact hid ▸ h.letters letter (List.mem_of_find?_eq_some hletter)
      · exact fun _ _ heq => nomatch heq
      · simp [hphase]
  | adding id message jobId rest => exact h.replayed hphase rfl hunraced
  | removing id rest =>
    apply (h.remove id (.inl ⟨rfl, h.removing i id rest hphase⟩)).goOn
    intro id' rest' heq
    rw [tasks_remove, hphase] at heq
    obtain ⟨rfl, -⟩ := Phase.removing.inj heq
    exact remove_letter ..
  | finding id =>
    dsimp only
    cases hletter : w.letter id <;> exact hset _ (by simp) (by simp) (by simp [hphase]) h rfl
  | dropping id =>
    exact hset _ (by simp) (by simp) (by simp [hphase]) (h.remove id (.inr rfl)) (tasks_remove ..)
  | looking id =>
    dsimp only
    cases hentry : w.entries.find? fun entry => entry.id = id with
    | none => exact hset _ (by simp) (by simp) (by simp [hphase]) h rfl
    | some entry =>
      dsimp only
      split_ifs <;> exact hset _ (by simp) (by simp) (by simp [hphase]) h rfl
  | sending entry =>
    cases succeeds with
    | true => exact hset _ (by simp) (by simp) (by simp [hphase]) (h.sent entry.id) rfl
    | false => exact hset _ (by simp) (by simp) (by simp [hphase]) h rfl
  | marking id => exact hset _ (by simp) (by simp) (by simp [hphase]) (h.setEntries _) rfl
  | counting read => exact hset _ (by simp) (by simp) (by simp [hphase]) (h.setEntries _) rfl

lemma Kept.begin (h : Kept w) (i : ℕ) (hadding : ∀ id message jobId rest, phase ≠ .adding id message jobId rest)
    (hremoving : ∀ id rest, phase ≠ .removing id rest) : Kept (w.begin i phase) := by
  unfold World.begin
  cases hphase : w.tasks i with
  | idle =>
    apply h.setTask
    · exact fun id message jobId rest heq => absurd heq (hadding id message jobId rest)
    · exact fun id rest heq => absurd heq (hremoving id rest)
    · simp [hphase]
  | _ => exact h

lemma Kept.step (h : Kept w) {move : Move P} (hunraced : Unraced w move) : Kept (step move w) := by
  cases move with
  | route message => exact h.route message
  | park entry => exact h.setEntries _
  | enqueue queue jobId name payload => exact h.add queue jobId name payload
  | work queue jobId => exact h.work queue jobId
  | replay i id => exact h.begin i (by simp) (by simp)
  | replayAll i limit username => exact h.begin i (by simp) (by simp)
  | discard i id => exact h.begin i (by simp) (by simp)
  | resend i id => exact h.begin i (by simp) (by simp)
  | resume i now succeeds => exact h.resume hunraced

lemma Kept.init : Kept ({} : World P) := by
  constructor <;> simp [enqueuedIds]

/-- What holds of the rows and the deliveries that they are sent as. -/
structure SentOnce (w : World P) : Prop where
  once : (sentIds w.history).Nodup
  rows : ∀ row ∈ w.entries, row.id < w.entries.length
  noted : ∀ id ∈ sentIds w.history, id < w.entries.length
  marked : ∀ id ∈ sentIds w.history,
    (∀ row ∈ w.entries, row.id = id → row.replayed = true) ∨ ∃ i, w.tasks i = .marking id

lemma SentOnce.mono {next : World P} (h : SentOnce w) (hentries : next.entries = w.entries)
    (hsent : sentIds next.history = sentIds w.history)
    (hmarking : ∀ i id, w.tasks i = .marking id → next.tasks i = .marking id) : SentOnce next where
  once := by
    rw [hsent]
    exact h.once
  rows := by
    rw [hentries]
    exact h.rows
  noted := by
    rw [hsent, hentries]
    exact h.noted
  marked := by
    rw [hsent, hentries]
    exact fun id hid => (h.marked id hid).imp_right fun ⟨i, hi⟩ => ⟨i, hmarking i id hi⟩

lemma SentOnce.setTask {next : World P} (h : SentOnce w) (hentries : next.entries = w.entries)
    (hsent : sentIds next.history = sentIds w.history) (htasks : next.tasks = w.tasks)
    (hphase : ∀ id, w.tasks i ≠ .marking id) : SentOnce (next.setTask i phase) := by
  have hsame : (next.setTask i phase).entries = w.entries := hentries
  refine h.mono hsame hsent fun j id hj => ?_
  have hne : j ≠ i := by
    rintro rfl
    exact hphase id hj
  simp only [World.setTask, Function.update_of_ne hne, htasks]
  exact hj

lemma SentOnce.mapEntries (h : SentOnce w) {change : Entry P → Entry P}
    (hid : ∀ row, (change row).id = row.id)
    (hreplayed : ∀ row, row.replayed = true → (change row).replayed = true)
    (hphase : ∀ other, w.tasks i = .marking other → other = id ∧ ∀ row, (change row).replayed = true) :
    SentOnce ((w.mapEntries id change).setTask i .done) := by
  have hrow {row : Entry P} (hmem : row ∈ (w.mapEntries id change).entries) :
      ∃ before ∈ w.entries, row.id = before.id ∧ (before.replayed = true → row.replayed = true) ∧
        (before.id = id → row = change before) := by
    obtain ⟨before, hbefore, rfl⟩ := List.mem_map.mp hmem
    refine ⟨before, hbefore, ?_⟩
    by_cases heq : before.id = id
    · simp only [heq, hid, if_true, true_and, implies_true, and_true]
      exact hreplayed before
    · simp [heq]
  have hlength : (w.mapEntries id change).entries.length = w.entries.length := List.length_map ..
  constructor
  · exact h.once
  · intro row hmem
    obtain ⟨before, hbefore, heq, -⟩ := hrow hmem
    calc row.id = before.id := heq
      _ < w.entries.length := h.rows before hbefore
      _ = _ := hlength.symm
  · exact fun other hother => (h.noted other hother).trans_eq hlength.symm
  · intro other hother
    obtain hrows | ⟨j, hj⟩ := h.marked other hother
    · refine .inl fun row hmem heq => ?_
      obtain ⟨before, hbefore, hsame, hkept, -⟩ := hrow hmem
      exact hkept (hrows before hbefore (hsame.symm.trans heq))
    · by_cases hne : j = i
      · subst hne
        obtain ⟨rfl, hall⟩ := hphase other hj
        refine .inl fun row hmem heq => ?_
        obtain ⟨before, -, hsame, -, hchange⟩ := hrow hmem
        rw [hchange (hsame.symm.trans heq)]
        exact hall before
      · exact .inr ⟨j, by simpa [World.setTask, Function.update_of_ne hne, World.mapEntries] using hj⟩

lemma SentOnce.park (h : SentOnce w) (entry : Entry P) : SentOnce (step (.park entry) w) := by
  have hlength : (step (.park entry) w).entries.length = w.entries.length + 1 := by simp [step]
  constructor
  · exact h.once
  · intro row hmem
    rw [hlength]
    obtain hmem | hmem := List.mem_append.mp hmem
    · exact Nat.lt_succ_of_lt (h.rows row hmem)
    · rw [List.mem_singleton.mp hmem]
      exact Nat.lt_succ_self _
  · exact fun id hid => hlength ▸ Nat.lt_succ_of_lt (h.noted id hid)
  · intro id hid
    refine (h.marked id hid).imp_left fun hrows row hmem heq => ?_
    obtain hmem | hmem := List.mem_append.mp hmem
    · exact hrows row hmem heq
    · rw [List.mem_singleton.mp hmem] at heq
      exact absurd (h.noted id hid) (heq ▸ Nat.lt_irrefl _)

/-- A row that is not replayed yet, and that no call is about to mark, was never sent. -/
lemma SentOnce.sent (h : SentOnce w) {entry : Entry P}
    (hphase : w.tasks i = .sending entry)
    (hrow : ∃ row ∈ w.entries, row.id = entry.id ∧ row.replayed = false)
    (hmarking : ∀ k, w.tasks k ≠ .marking entry.id) :
    SentOnce ((w.note (.sent entry.id)).setTask i (.marking entry.id)) := by
  obtain ⟨row, hmem, hid, hreplayed⟩ := hrow
  have hfirst : entry.id ∉ sentIds w.history := by
    intro hsent
    obtain hrows | ⟨k, hk⟩ := h.marked entry.id hsent
    · rw [hrows row hmem hid] at hreplayed
      cases hreplayed
    · exact hmarking k hk
  have hids : sentIds (w.note (.sent entry.id)).history = sentIds w.history ++ [entry.id] :=
    sentIds_append _
  constructor
  · change (sentIds (w.note (.sent entry.id)).history).Nodup
    rw [hids, List.nodup_append]
    refine ⟨h.once, List.nodup_singleton _, fun a ha b hb heq => ?_⟩
    exact hfirst (List.mem_singleton.mp hb ▸ heq ▸ ha)
  · exact h.rows
  · intro id hsent
    change id ∈ sentIds (w.note (.sent entry.id)).history at hsent
    rw [hids, List.mem_append, List.mem_singleton] at hsent
    obtain hsent | rfl := hsent
    · exact h.noted id hsent
    · exact hid ▸ h.rows row hmem
  · intro id hsent
    change id ∈ sentIds (w.note (.sent entry.id)).history at hsent
    rw [hids, List.mem_append, List.mem_singleton] at hsent
    obtain hsent | rfl := hsent
    · refine (h.marked id hsent).imp_right fun ⟨k, hk⟩ => ⟨k, ?_⟩
      have hne : k ≠ i := by
        rintro rfl
        rw [hphase] at hk
        cases hk
      simpa [World.setTask, World.note, Function.update_of_ne hne] using hk
    · exact .inr ⟨i, by simp [World.setTask]⟩

lemma entries_remove (id : ℕ) (event : Event P) : (w.remove id event).entries = w.entries := by
  unfold World.remove
  split_ifs <;> rfl

lemma sentIds_remove (hevent : ∀ other, event ≠ .sent other) (id : ℕ) :
    sentIds (w.remove id event).history = sentIds w.history := by
  unfold World.remove
  split_ifs
  · cases event <;> simp_all [World.note, World.removeLetter, sentIds]
  · rfl

lemma addReplayed_same (id : ℕ) (message : Message P) (jobId : String) :
    (w.addReplayed id message jobId).entries = w.entries ∧
      (w.addReplayed id message jobId).tasks = w.tasks ∧
      sentIds (w.addReplayed id message jobId).history = sentIds w.history := by
  unfold World.addReplayed World.add
  by_cases hfree : w.Free message.queue jobId <;> simp [hfree, World.setQueue, World.note, sentIds]

lemma SentOnce.resume (h : SentOnce w) {now : ℕ} {succeeds : Bool}
    (hunraced : Unraced w (.resume i now succeeds)) : SentOnce (w.resume i now succeeds) := by
  have hset (hphase : ∀ id, w.tasks i ≠ .marking id) (phase : Phase P) : SentOnce (w.setTask i phase) :=
    h.setTask rfl rfl rfl hphase
  unfold World.resume
  cases hphase : w.tasks i with
  | idle | done => exact h
  | listing limit username => exact hset (by simp [hphase]) _
  | fetching id rest =>
    dsimp only
    cases w.letter id <;> exact hset (by simp [hphase]) _
  | adding id message jobId rest =>
    obtain ⟨hentries, htasks, hsent⟩ := addReplayed_same (w := w) id message jobId
    exact h.setTask hentries hsent htasks (by simp [hphase])
  | removing id rest | dropping id =>
    exact h.setTask (entries_remove ..) (sentIds_remove (by simp) id) (tasks_remove ..) (by simp [hphase])
  | finding id =>
    dsimp only
    cases w.letter id <;> exact hset (by simp [hphase]) _
  | looking id =>
    dsimp only
    cases w.entries.find? fun entry => entry.id = id <;> exact hset (by simp [hphase]) _
  | sending entry =>
    cases succeeds with
    | true =>
      obtain ⟨hrow, hmarking⟩ := hunraced.sends i now entry rfl hphase
      exact h.sent hphase hrow hmarking
    | false => exact hset (by simp [hphase]) _
  | marking id =>
    refine h.mapEntries (fun _ => rfl) (fun _ _ => rfl) fun other hother => ?_
    rw [hphase] at hother
    exact ⟨(Phase.marking.inj hother).symm, fun _ => rfl⟩
  | counting read =>
    refine h.mapEntries (fun _ => rfl) (fun _ hreplayed => hreplayed) fun other hother => ?_
    rw [hphase] at hother
    cases hother

lemma SentOnce.begin (h : SentOnce w) (i : ℕ) (phase : Phase P) : SentOnce (w.begin i phase) := by
  unfold World.begin
  cases hphase : w.tasks i with
  | idle => exact h.setTask rfl rfl rfl (by simp [hphase])
  | _ => exact h

lemma SentOnce.step (h : SentOnce w) {move : Move P} (hunraced : Unraced w move) :
    SentOnce (step move w) := by
  cases move with
  | route message =>
    exact h.mono rfl (by simp [DeadLetters.step, World.route, World.note, sentIds]) fun _ _ hi => hi
  | park entry => exact h.park entry
  | enqueue queue jobId name payload =>
    simp only [DeadLetters.step, World.add]
    split_ifs
    · exact h.mono rfl rfl fun _ _ hi => hi
    · exact h
  | work queue jobId =>
    simp only [DeadLetters.step, World.work]
    cases (w.queues queue).find? fun job => job.id = jobId with
    | none => exact h
    | some job => exact h.mono rfl (by simp [World.note, World.setQueue, sentIds]) fun _ _ hi => hi
  | replay i id | replayAll i limit username | discard i id | resend i id => exact h.begin i _
  | resume i now succeeds => exact h.resume hunraced

/-- Exactly once: so long as no replay races another, or a discard, or shares its job's id with a job
of another letter. -/
theorem deadLetters_exactlyOnce {moves : List (Move P)}
    (hunraced : Along step Unraced ({} : World P) moves) :
    ExactlyOnce (run step ({} : World P) moves) := by
  have hkept : Kept (run step ({} : World P) moves) :=
    run_invariant (fun _ _ h hmove => h.step hmove) Kept.init hunraced
  have hsent : SentOnce (run step ({} : World P) moves) := by
    apply run_invariant (fun _ _ h hmove => SentOnce.step h hmove) _ hunraced
    constructor <;> simp [sentIds]
  exact ⟨hkept.once, hsent.once, hkept.own, hkept.discarded⟩

lemma unraced_of_phase {move : Move P} (h : ∀ i now succeeds, move = .resume i now succeeds →
    (∀ id message jobId rest, w.tasks i ≠ .adding id message jobId rest) ∧
      ∀ entry, w.tasks i ≠ .sending entry) : Unraced w move where
  adds i now succeeds id message jobId rest hmove hphase :=
    absurd hphase ((h i now succeeds hmove).1 id message jobId rest)
  taken i now succeeds id message jobId rest hmove hphase :=
    absurd hphase ((h i now succeeds hmove).1 id message jobId rest)
  sends i now entry hmove hphase := absurd hphase ((h i now true hmove).2 entry)

theorem deadLetters_exactlyOnce_sample : ExactlyOnce (run step ({} : World String)
    [.route ⟨some "event", "webhooks", some "deliver", "paid", some "ann"⟩, .replay 0 0,
      .resume 0 5 true, .resume 0 6 true, .resume 0 7 true, .work "webhooks" "event-replay-5"]) := by
  apply deadLetters_exactlyOnce
  have hnot {w : World String} {move : Move String} (h : ∀ i now succeeds, move ≠ .resume i now succeeds) :
      Unraced w move := unraced_of_phase fun i now succeeds hmove => absurd hmove (h i now succeeds)
  refine ⟨hnot (by simp), hnot (by simp), ?_, ⟨?_, ?_, ?_⟩, ?_, hnot (by simp), trivial⟩
  · apply unraced_of_phase
    rintro i now succeeds ⟨⟩
    exact ⟨fun _ _ _ _ hphase => (nomatch hphase), fun _ hphase => (nomatch hphase)⟩
  · rintro i now succeeds id message jobId rest ⟨⟩ ⟨⟩ -
    refine ⟨rfl, fun k rest' hk => ?_⟩
    by_cases hzero : k = 0
    · subst hzero
      cases hk
    · simp [step, World.begin, World.resume, World.route, World.note, World.setTask, World.letter,
        hzero] at hk
  · rintro i now succeeds id message jobId rest ⟨⟩ ⟨⟩ htaken
    exact absurd (by decide) htaken
  · rintro i now entry ⟨⟩ hphase
    cases hphase
  · apply unraced_of_phase
    rintro i now succeeds ⟨⟩
    exact ⟨fun _ _ _ _ hphase => (nomatch hphase), fun _ hphase => (nomatch hphase)⟩

/-- Two replays that have both read a letter add it twice; of two letters of one job, replayed in one
millisecond, the second is lost. -/
theorem racing_replays :
    ¬ ExactlyOnce (run step ({} : World String)
        [.route ⟨some "event", "webhooks", some "deliver", "paid", some "ann"⟩,
          .replay 0 0, .replay 1 0, .resume 0 5 true, .resume 1 6 true, .resume 0 7 true,
          .resume 1 8 true]) ∧
      ¬ ExactlyOnce (run step ({} : World String)
        [.route ⟨some "event", "webhooks", some "deliver", "paid", some "ann"⟩,
          .route ⟨some "event", "webhooks", some "deliver", "paid again", some "ann"⟩,
          .replay 0 0, .replay 1 1, .resume 0 5 true, .resume 1 5 true, .resume 0 6 true,
          .resume 1 6 true, .resume 0 7 true, .resume 1 7 true]) := by
  constructor
  · intro h
    exact absurd h.enqueued (by decide)
  · intro h
    obtain ⟨message, job, -, henqueued, -⟩ := h.own 1 (by decide)
    exact absurd (mem_enqueuedIds.mpr ⟨_, _, henqueued⟩) (by decide)

end Letters

end StellarTags.Webhooks.DeadLetters
