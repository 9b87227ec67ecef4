import Mathlib.Logic.Function.Basic
import StellarTags.Library.Runs
import StellarTags.Platform.Encoding
import StellarTags.Webhooks.Breaker
import StellarTags.Webhooks.DeadLetters

/-! Webhook deliveries await by await: dispatches, the queue and its workers, the breakers of the domains
and the probe cycle, in any number of processes that share Redis. -/

namespace StellarTags.Webhooks.Deliveries

open Library.Runs Platform

/-- What parses URLs, and the hash of job ids. -/
structure Host where
  hostname : String → Option String
  sha256 : String → String

structure Config extends BreakerConfig where
  maxAttempts : ℕ := 5
  redisConfigured : Bool := true

/-- The ids of webhooks are UUIDs, which have no colon. -/
structure Webhook where
  id : String
  username : String
  url : String
  secret : String
  events : Option (List String) := some ["*"]
  id_plain : ':' ∉ id.toList
  deriving DecidableEq

structure Payload (D : Type) where
  event : String
  eventId : String
  data : D
  deriving DecidableEq

/-- What a job is given to deliver. -/
structure JobData (D : Type) where
  webhook : Webhook
  payload : Payload D
  deriving DecidableEq

/-- `ticket` is the number of the win of the probe slot that the job was queued on, until an attempt of
it has reported. -/
structure Job (D : Type) extends JobData D where
  attemptsMade : ℕ := 0
  active : Bool := false
  ticket : Option ℕ := none

/-- A row of `webhookDLQ`: its payload tells of the failure, not of the event. -/
structure Entry where
  webhook : Webhook
  eventType : String
  failureReason : String

/-- Who asks the breaker: a delivery that is to be queued, or the probe cycle at one of its webhooks. -/
inductive Call (D : Type)
  | enqueue (data : JobData D)
  | cycle (webhook : Webhook) (rest : List Webhook) (probed : List String)

/-- Who sends a request: an attempt of a job, or the probe cycle. -/
inductive Delivery
  | job (id : String) (webhook : Webhook)
  | probe (webhook : Webhook) (rest : List Webhook) (probed : List String) (ticket : ℕ)

/-- Where a task awaits. What is to be written has the number of writes before it was read. -/
inductive Phase (D : Type)
  | idle
  | checking (call : Call D)
  | acquiring (call : Call D)
  | claiming (call : Call D) (record : BreakerRecord) (version : ℕ)
  | adding (data : JobData D) (ticket : Option ℕ)
  | sending (delivery : Delivery)
  | reporting (delivery : Delivery) (ok : Bool)
  | saving (delivery : Delivery) (ok : Bool) (record : BreakerRecord) (version : ℕ)
  | routing (id : String) (job : Job D)
  | moving (job : Job D)
  | done

inductive Event (D : Type)
  | dispatched (data : JobData D)
  | refused (data : JobData D) (state : BreakerState)
  | halted (data : JobData D)
  | delivered (data : JobData D)
  deriving DecidableEq

def Event.dispatch {D : Type} : Event D → Option (JobData D)
  | dispatched data => some data
  | _ => none

def Event.delivery {D : Type} : Event D → Option (JobData D)
  | delivered data => some data
  | _ => none

structure Win where
  domain : String
  time : ℕ
  deriving DecidableEq

structure Holder where
  domain : String
  ticket : ℕ
  deriving DecidableEq

/-- `finished` are the jobs that the queue keeps when they are over. -/
structure World (D : Type) where
  records : String → BreakerRecord := fun _ => {}
  writes : String → ℕ := fun _ => 0
  now : ℕ := 0
  wins : List Win := []
  holders : List Holder := []
  jobs : String → Option (Job D) := fun _ => none
  finished : List String := []
  letters : List (DeadLetters.Message (JobData D)) := []
  entries : List Entry := []
  tasks : ℕ → Phase D := fun _ => .idle
  history : List (Event D) := []

/-- `crash` is the end of a task with its process, `expire` that of a breaker's keys, and `forget` that
of a finished job. -/
inductive Move (D : Type)
  | dispatch (i : ℕ) (data : JobData D)
  | runProbeCycle (i : ℕ) (webhooks : List Webhook)
  | work (i : ℕ) (id : String)
  | resume (i : ℕ) (succeeds : Bool)
  | crash (i : ℕ)
  | expire (domain : String)
  | forget (id : String)
  | wait (elapsed : ℕ)

def WEBHOOK_QUEUE_NAME : String := "webhook-deliveries"

def webhookEventMatches (webhook : Webhook) (eventName : String) : Bool :=
  let normalized := ((webhook.events.getD ["*"]).map trim).filter (· ≠ "")
  normalized = [] ∨ "*" ∈ normalized ∨ eventName ∈ normalized

section System

variable {D : Type} (host : Host) (config : Config) (w : World D)

def buildJobId (webhookId eventId : String) : String := host.sha256 (webhookId ++ ":" ++ eventId)

def JobData.jobId (data : JobData D) : String := buildJobId host data.webhook.id data.payload.eventId

def Webhook.domain (webhook : Webhook) : String := getDestinationDomain host.hostname webhook.url

def Call.webhook : Call D → Webhook
  | enqueue data => data.webhook
  | cycle webhook _ _ => webhook

def Delivery.webhook : Delivery → Webhook
  | job _ webhook | probe webhook _ _ _ => webhook

namespace World

def setTask (i : ℕ) (phase : Phase D) : World D := { w with tasks := Function.update w.tasks i phase }

def note (event : Event D) : World D := { w with history := w.history ++ [event] }

def setJob (id : String) (job : Option (Job D)) : World D :=
  { w with jobs := Function.update w.jobs id job }

def write (domain : String) (record : BreakerRecord) : World D :=
  { w with
    records := Function.update w.records domain record
    writes := Function.update w.writes domain (w.writes domain + 1) }

/-- The slot of the domain is no longer held on the ticket. -/
def release (domain : String) (ticket : Option ℕ) : World D :=
  { w with holders := w.holders.filter fun holder =>
      ¬ (holder.domain = domain ∧ some holder.ticket = ticket) }

end World

/-- On to the next webhook of a cycle whose domain has not been probed. -/
def nextWebhook (probed : List String) : List Webhook → Phase D
  | [] => .done
  | webhook :: rest =>
    if webhook.domain host ∈ probed then nextWebhook probed rest else .checking (.cycle webhook rest probed)

/-- What the winner of the slot goes on to. -/
def Call.won (ticket : ℕ) : Call D → Phase D
  | enqueue data => .adding data (some ticket)
  | cycle webhook rest probed => .sending (.probe webhook rest (webhook.domain host :: probed) ticket)

namespace World

/-- The slot is not won: the delivery is not queued. -/
def halt (i : ℕ) : Call D → World D
  | .enqueue data => (w.note (.halted data)).setTask i .done
  | .cycle _ rest probed => w.setTask i (nextWebhook host probed rest)

def check (i : ℕ) (call : Call D) : World D :=
  let record := w.records (call.webhook.domain host)
  let queueCheck := canQueueDelivery config.toBreakerConfig record w.now
  match call with
  | .enqueue data =>
    if queueCheck.allowed then w.setTask i (.adding data none)
    else if queueCheck.canProbe then (w.note (.refused data record.state)).setTask i (.acquiring call)
    else (w.note (.refused data record.state)).halt host i call
  | .cycle .. =>
    if queueCheck.canProbe then w.setTask i (.acquiring call) else w.halt host i call

def acquire (i : ℕ) (call : Call D) : World D :=
  let domain := call.webhook.domain host
  match acquireProbeSlot config.toBreakerConfig (w.records domain) w.now with
  | none => w.halt host i call
  | some record => w.setTask i (.claiming call record (w.writes domain))


/-- The slot is won by what is written. -/
def claim (i : ℕ) (call : Call D) (record : BreakerRecord) : World D :=
  let domain := call.webhook.domain host
  let claimed : World D := { w.write domain record with
    wins := w.wins ++ [⟨domain, record.lastProbeTime⟩]
    holders := w.holders ++ [⟨domain, w.wins.length⟩] }
  claimed.setTask i (call.won host w.wins.length)

/-- A job whose id the queue has already is ignored; then nobody holds the slot that it was won on. -/
def add (i : ℕ) (data : JobData D) (ticket : Option ℕ) (succeeds : Bool) : World D :=
  let id := data.jobId host
  if succeeds ∧ w.jobs id = none ∧ id ∉ w.finished then
    (w.setJob id (some { data with ticket })).setTask i .done
  else (w.release (data.webhook.domain host) ticket).setTask i .done

def report (i : ℕ) (delivery : Delivery) (ok : Bool) : World D :=
  let domain := delivery.webhook.domain host
  let record := w.records domain
  let next := if ok then handleDeliverySuccess config.toBreakerConfig record
    else handleDeliveryFailure config.toBreakerConfig (.error "") w.now record
  w.setTask i (.saving delivery ok next (w.writes domain))

def ticket : Delivery → Option ℕ
  | .job id _ => (w.jobs id).bind Job.ticket
  | .probe _ _ _ ticket => some ticket

/-- What becomes of a job when its attempt is over; the cycle goes on. -/
def finish (i : ℕ) (delivery : Delivery) (ok : Bool) : World D :=
  match delivery with
  | .probe _ rest probed _ => w.setTask i (nextWebhook host probed rest)
  | .job id _ =>
    match w.jobs id with
    | none => w.setTask i .done
    | some job =>
      if ok then
        ({ w.setJob id none with finished := id :: w.finished }.note (.delivered job.toJobData)).setTask i .done
      else if job.attemptsMade + 1 < config.maxAttempts then
        let retried := { job with attemptsMade := job.attemptsMade + 1, active := false, ticket := none }
        (w.setJob id (some retried)).setTask i .done
      else { w.setJob id none with finished := id :: w.finished }.setTask i (.routing id job)

def save (i : ℕ) (delivery : Delivery) (ok : Bool) (record : BreakerRecord) : World D :=
  let domain := delivery.webhook.domain host
  ((w.release domain (w.ticket delivery)).write domain record).finish host config i delivery ok

/-- The handler of a job whose attempts are exhausted. -/
def route (i : ℕ) (id : String) (job : Job D) (succeeds : Bool) : World D :=
  if config.redisConfigured ∧ succeeds then
    { w with letters :=
        ⟨some id, WEBHOOK_QUEUE_NAME, some "deliver", job.toJobData, some job.webhook.username⟩ ::
          w.letters }.setTask i .done
  else w.setTask i (.moving job)

def moveToDLQ (i : ℕ) (job : Job D) (succeeds : Bool) : World D :=
  let entry : Entry := ⟨job.webhook, "webhook.delivery_failed",
    "Delivery exhausted after " ++ toString config.maxAttempts ++ " attempts"⟩
  (if succeeds then { w with entries := w.entries ++ [entry] } else w).setTask i .done

/-- What a task awaits comes; a request, or what it asks of the queues, succeeds or not. -/
def resume (i : ℕ) (succeeds : Bool) : World D :=
  match w.tasks i with
  | .idle | .done => w
  | .checking call => w.check host config i call
  | .acquiring call => w.acquire host config i call
  | .claiming call record _ => w.claim host i call record
  | .adding data ticket => w.add host i data ticket succeeds
  | .sending delivery => w.setTask i (.reporting delivery succeeds)
  | .reporting delivery ok => w.report host config i delivery ok
  | .saving delivery ok record _ => w.save host config i delivery ok record
  | .routing id job => w.route config i id job succeeds
  | .moving job => w.moveToDLQ config i job succeeds

/-- A worker takes a job that waits. -/
def work (i : ℕ) (id : String) : World D :=
  match w.tasks i, w.jobs id with
  | .idle, some job =>
    if job.active then w
    else (w.setJob id (some { job with active := true })).setTask i (.sending (.job id job.webhook))
  | _, _ => w

/-- The job of an attempt that crashes waits again; whoever else crashes holds no slot any more. -/
def dropDelivery : Delivery → World D
  | .job id _ => w.setJob id ((w.jobs id).map fun job => { job with active := false })
  | .probe webhook _ _ ticket => w.release (webhook.domain host) (some ticket)

def crash (i : ℕ) : World D :=
  match w.tasks i with
  | .adding data ticket => (w.release (data.webhook.domain host) ticket).setTask i .done
  | .sending delivery | .reporting delivery _ | .saving delivery _ _ _ =>
    (w.dropDelivery host delivery).setTask i .done
  | _ => w.setTask i .done

end World

/-- Each webhook that an event is dispatched to is a call of its own. -/
def step (move : Move D) (w : World D) : World D :=
  match move with
  | .dispatch i data =>
    match w.tasks i with
    | .idle =>
      if webhookEventMatches data.webhook data.payload.event then
        (w.note (.dispatched data)).setTask i (.checking (.enqueue data))
      else w
    | _ => w
  | .runProbeCycle i webhooks =>
    match w.tasks i with
    | .idle => w.setTask i (nextWebhook host [] webhooks)
    | _ => w
  | .work i id => w.work i id
  | .resume i succeeds => w.resume host config i succeeds
  | .crash i => w.crash host i
  | .expire domain => w.write domain {}
  | .forget id => { w with finished := w.finished.erase id }
  | .wait elapsed => { w with now := w.now + elapsed }

end System

section Known

variable {D : Type} {host : Host} {config : Config} {w next : World D} {move : Move D} {i : ℕ}
  {id : String} {phase : Phase D}

def Phase.data : Phase D → Option (JobData D)
  | checking (.enqueue data) | acquiring (.enqueue data) | claiming (.enqueue data) _ _
  | adding data _ => some data
  | routing _ job | moving job => some job.toJobData
  | _ => none

/-- Whatever is queued or stored was dispatched, and jobs have the ids of what they deliver. -/
structure Known (host : Host) (w : World D) : Prop where
  tasks : ∀ i data, (w.tasks i).data = some data → .dispatched data ∈ w.history
  routing : ∀ i id job, w.tasks i = .routing id job → id = job.toJobData.jobId host
  jobs : ∀ id job, w.jobs id = some job →
    .dispatched job.toJobData ∈ w.history ∧ id = job.toJobData.jobId host
  letters : ∀ letter ∈ w.letters, .dispatched letter.payload ∈ w.history
  delivered : ∀ data, .delivered data ∈ w.history → .dispatched data ∈ w.history

lemma Known.congr (h : Known host w) (htasks : next.tasks = w.tasks) (hjobs : next.jobs = w.jobs)
    (hletters : next.letters = w.letters) (hhistory : next.history = w.history) : Known host next := by
  constructor
  · rw [htasks, hhistory]
    exact h.tasks
  · rw [htasks]
    exact h.routing
  · rw [hjobs, hhistory]
    exact h.jobs
  · rw [hletters, hhistory]
    exact h.letters
  · rw [hhistory]
    exact h.delivered

lemma Known.setTask (h : Known host w) (i : ℕ)
    (hdata : ∀ data, phase.data = some data → .dispatched data ∈ w.history)
    (hrouting : ∀ id job, phase = .routing id job → id = job.toJobData.jobId host) :
    Known host (w.setTask i phase) := by
  constructor
  · intro j data hj
    by_cases hne : j = i
    · subst hne
      simp only [World.setTask, Function.update_self] at hj
      exact hdata data hj
    · simp only [World.setTask, Function.update_of_ne hne] at hj
      exact h.tasks j data hj
  · intro j id job hj
    by_cases hne : j = i
    · subst hne
      simp only [World.setTask, Function.update_self] at hj
      exact hrouting id job hj
    · simp only [World.setTask, Function.update_of_ne hne] at hj
      exact h.routing j id job hj
  · exact h.jobs
  · exact h.letters
  · exact h.delivered

lemma Known.goOn (h : Known host w) (i : ℕ) (hdata : phase.data = (w.tasks i).data ∨ phase.data = none)
    (hrouting : ∀ id job, phase ≠ .routing id job) : Known host (w.setTask i phase) := by
  refine h.setTask i (fun data hsome => ?_) fun id job heq => absurd heq (hrouting id job)
  obtain hsame | hnone := hdata
  · exact h.tasks i data (hsame ▸ hsome)
  · rw [hnone] at hsome
    cases hsome

lemma Known.note (h : Known host w) (event : Event D)
    (hevent : ∀ data, event = .delivered data → .dispatched data ∈ w.history) :
    Known host (w.note event) := by
  have hmore {other : Event D} (hother : other ∈ w.history) : other ∈ (w.note event).history :=
    List.mem_append_left _ hother
  constructor
  · exact fun i data hi => hmore (h.tasks i data hi)
  · exact h.routing
  · intro id job hjob
    obtain ⟨hmem, hid⟩ := h.jobs id job hjob
    exact ⟨hmore hmem, hid⟩
  · exact fun letter hletter => hmore (h.letters letter hletter)
  · intro data hdata
    obtain hdata | hdata := List.mem_append.mp hdata
    · exact hmore (h.delivered data hdata)
    · exact hmore (hevent data (List.mem_singleton.mp hdata).symm)

lemma Known.setJob (h : Known host w) (id : String) (job : Option (Job D))
    (hjob : ∀ later, job = some later →
      .dispatched later.toJobData ∈ w.history ∧ id = later.toJobData.jobId host) :
    Known host (w.setJob id job) := by
  constructor
  · exact h.tasks
  · exact h.routing
  · intro other later hlater
    by_cases hne : other = id
    · subst hne
      simp only [World.setJob, Function.update_self] at hlater
      exact hjob later hlater
    · simp only [World.setJob, Function.update_of_ne hne] at hlater
      exact h.jobs other later hlater
  · exact h.letters
  · exact h.delivered

lemma nextWebhook_rule {P : Phase D → Prop} (hdone : P .done)
    (hchecking : ∀ webhook rest probed, P (.checking (.cycle webhook rest probed)))
    (probed : List String) (webhooks : List Webhook) : P (nextWebhook host probed webhooks) := by
  induction webhooks with
  | nil => exact hdone
  | cons webhook rest ih =>
    unfold nextWebhook
    split_ifs
    · exact ih
    · exact hchecking webhook rest probed

lemma Known.nextWebhook (h : Known host w) (i : ℕ) (probed : List String) (webhooks : List Webhook) :
    Known host (w.setTask i (nextWebhook host probed webhooks)) := by
  apply nextWebhook_rule (P := fun phase => Known host (w.setTask i phase))
  · exact h.goOn i (.inr rfl) (by simp)
  · intro webhook rest probed
    exact h.goOn i (.inr rfl) (by simp)

lemma Known.done (h : Known host w) (i : ℕ) : Known host (w.setTask i .done) :=
  h.goOn i (.inr rfl) (by simp)

lemma Known.halt (h : Known host w) (i : ℕ) (call : Call D) : Known host (w.halt host i call) := by
  cases call with
  | enqueue data => exact (h.note _ (by simp)).done i
  | cycle webhook rest probed => exact h.nextWebhook i probed rest

lemma Known.finish (h : Known host w) (i : ℕ) (delivery : Delivery) (ok : Bool) :
    Known host (w.finish host config i delivery ok) := by
  cases delivery with
  | probe webhook rest probed ticket => exact h.nextWebhook i probed rest
  | job id webhook =>
    simp only [World.finish]
    cases hjob : w.jobs id with
    | none => exact h.done i
    | some job =>
      obtain ⟨hdispatched, hid⟩ := h.jobs id job hjob
      have hgone : Known host { w.setJob id none with finished := id :: w.finished } :=
        (h.setJob id none (by simp)).congr rfl rfl rfl rfl
      dsimp only
      split_ifs
      · exact (hgone.note _ fun data heq => Event.delivered.inj heq ▸ hdispatched).done i
      · apply (h.setJob id _ _).done i
        rintro later heq
        obtain rfl := Option.some.inj heq
        exact ⟨hdispatched, hid⟩
      · apply hgone.setTask i
        · intro data heq
          exact Option.some.inj heq ▸ hdispatched
        · intro other later heq
          obtain ⟨rfl, rfl⟩ := Phase.routing.inj heq
          exact hid

lemma Known.resume (h : Known host w) (i : ℕ) (succeeds : Bool) :
    Known host (w.resume host config i succeeds) := by
  unfold World.resume
  cases hphase : w.tasks i with
  | idle | done => exact h
  | checking call =>
    cases call with
    | enqueue data =>
      have hnoted (state : BreakerState) : Known host (w.note (.refused data state)) := h.note _ (by simp)
      simp only [World.check]
      split_ifs
      · exact h.goOn i (.inl (by rw [hphase]; rfl)) (by simp)
      · apply (hnoted _).goOn i _ (by simp)
        exact .inl (by simp [World.note, hphase, Phase.data])
      · exact (hnoted _).halt i _
    | cycle webhook rest probed =>
      simp only [World.check]
      split_ifs
      · exact h.goOn i (.inr rfl) (by simp)
      · exact h.halt i _
  | acquiring call =>
    simp only [World.acquire]
    cases acquireProbeSlot config.toBreakerConfig (w.records (call.webhook.domain host)) w.now with
    | none => exact h.halt i call
    | some claimed =>
      apply h.goOn i _ (by simp)
      rw [hphase]
      cases call <;> exact .inl rfl
  | claiming call record version =>
    have hgoOn : Known host (w.setTask i (call.won host w.wins.length)) := by
      apply h.goOn i
      · rw [hphase]
        cases call <;> exact .inl rfl
      · cases call <;> simp [Call.won]
    exact hgoOn.congr rfl rfl rfl rfl
  | adding data ticket =>
    have hdispatched := h.tasks i data (by rw [hphase]; rfl)
    simp only [World.add]
    split_ifs
    · apply (h.setJob _ _ _).done i
      rintro later heq
      obtain rfl := Option.some.inj heq
      exact ⟨hdispatched, rfl⟩
    · apply Known.done
      exact h.congr rfl rfl rfl rfl
  | sending delivery => exact h.goOn i (.inr rfl) (by simp)
  | reporting delivery ok => exact h.goOn i (.inr rfl) (by simp)
  | saving delivery ok record version =>
    apply Known.finish
    exact h.congr rfl rfl rfl rfl
  | routing id job =>
    have hdispatched := h.tasks i job.toJobData (by rw [hphase]; rfl)
    simp only [World.route]
    split_ifs
    · apply Known.done
      constructor
      · exact h.tasks
      · exact h.routing
      · exact h.jobs
      · intro letter hletter
        obtain rfl | hletter := List.mem_cons.mp hletter
        · exact hdispatched
        · exact h.letters letter hletter
      · exact h.delivered
    · exact h.goOn i (.inl (by rw [hphase]; rfl)) (by simp)
  | moving job =>
    simp only [World.moveToDLQ]
    split_ifs
    · apply Known.done
      exact h.congr rfl rfl rfl rfl
    · exact h.done i

lemma Known.work (h : Known host w) (i : ℕ) (id : String) : Known host (w.work i id) := by
  unfold World.work
  split
  next job hphase hjob =>
    split_ifs
    · exact h
    · apply (h.setJob id _ _).goOn i (.inr rfl) (by simp)
      rintro later heq
      obtain rfl := Option.some.inj heq
      exact h.jobs id job hjob
  next => exact h

lemma Known.crash (h : Known host w) (i : ℕ) : Known host (w.crash host i) := by
  have hdrop (delivery : Delivery) : Known host (w.dropDelivery host delivery) := by
    cases delivery with
    | probe webhook rest probed ticket => exact h.congr rfl rfl rfl rfl
    | job id webhook =>
      refine h.setJob id _ fun later heq => ?_
      obtain ⟨job, hjob, rfl⟩ := Option.map_eq_some_iff.mp heq
      exact h.jobs id job hjob
  unfold World.crash
  cases w.tasks i with
  | adding data ticket =>
    apply Known.done
    exact h.congr rfl rfl rfl rfl
  | sending delivery | reporting delivery ok | saving delivery ok record version =>
    exact (hdrop delivery).done i
  | _ => exact h.done i

lemma Known.step (h : Known host w) (move : Move D) : Known host (step host config move w) := by
  cases move with
  | dispatch i data =>
    simp only [Deliveries.step]
    cases w.tasks i with
    | idle =>
      dsimp only
      split_ifs
      · apply (h.note (.dispatched data) (by simp)).setTask i
        · intro other heq
          rw [← Option.some.inj heq]
          exact List.mem_append_right _ (List.mem_singleton_self _)
        · exact fun _ _ heq => nomatch heq
      · exact h
    | _ => exact h
  | runProbeCycle i webhooks =>
    simp only [Deliveries.step]
    cases w.tasks i with
    | idle => exact h.nextWebhook i [] webhooks
    | _ => exact h
  | work i id => exact h.work i id
  | resume i succeeds => exact h.resume i succeeds
  | crash i => exact h.crash i
  | expire domain => exact h.congr rfl rfl rfl rfl
  | forget id => exact h.congr rfl rfl rfl rfl
  | wait elapsed => exact h.congr rfl rfl rfl rfl

lemma known_run (host : Host) (config : Config) (moves : List (Move D)) :
    Known host (run (step host config) {} moves) := by
  apply run_invariant (I := Known host) (P := fun _ _ => True) (fun _ move h _ => h.step move) _
    (along_of_forall _ (fun _ _ => trivial) _ _)
  constructor <;> simp [Phase.data]

end Known

section Frames

variable {D : Type} {host : Host} {config : Config} {w : World D} {move : Move D} {i j : ℕ}

def Move.task : Move D → Option ℕ
  | dispatch i _ | runProbeCycle i _ | work i _ | resume i _ | crash i => some i
  | expire _ | forget _ | wait _ => none

lemma tasks_resume (hj : j ≠ i) (succeeds : Bool) :
    (w.resume host config i succeeds).tasks j = w.tasks j := by
  have hset {v : World D} {phase : Phase D} (hsame : v.tasks = w.tasks) :
      (v.setTask i phase).tasks j = w.tasks j := (Function.update_of_ne hj ..).trans (congrFun hsame j)
  have hhalt {v : World D} (hsame : v.tasks = w.tasks) (call : Call D) :
      (v.halt host i call).tasks j = w.tasks j := by
    cases call <;> exact hset hsame
  unfold World.resume
  cases w.tasks i with
  | idle | done => rfl
  | checking call =>
    cases call <;> simp only [World.check] <;> split_ifs <;> exact hset rfl
  | acquiring call =>
    simp only [World.acquire]
    cases acquireProbeSlot config.toBreakerConfig (w.records (call.webhook.domain host)) w.now with
    | none => exact hhalt rfl call
    | some claimed => exact hset rfl
  | claiming call record version => exact hset rfl
  | sending delivery | reporting delivery ok => exact hset rfl
  | adding data ticket =>
    simp only [World.add]
    split_ifs <;> exact hset rfl
  | saving delivery ok record version =>
    cases delivery with
    | probe webhook rest probed ticket => exact hset rfl
    | job id webhook =>
      simp only [World.save, World.finish]
      split
      · exact hset rfl
      · split_ifs <;> exact hset rfl
  | routing id job =>
    simp only [World.route]
    split_ifs <;> exact hset rfl
  | moving job =>
    simp only [World.moveToDLQ]
    split_ifs <;> exact hset rfl

lemma tasks_step (hj : move.task ≠ some j) : (step host config move w).tasks j = w.tasks j := by
  have hset {i : ℕ} (hi : some i ≠ some j) {v : World D} {phase : Phase D} (hsame : v.tasks = w.tasks) :
      (v.setTask i phase).tasks j = w.tasks j := by
    have hne : j ≠ i := by
      rintro rfl
      exact hi rfl
    exact (Function.update_of_ne hne ..).trans (congrFun hsame j)
  cases move with
  | dispatch i data =>
    simp only [step]
    cases w.tasks i with
    | idle =>
      dsimp only
      split_ifs
      · exact hset hj rfl
      · rfl
    | _ => rfl
  | runProbeCycle i webhooks =>
    simp only [step]
    cases w.tasks i with
    | idle => exact hset hj rfl
    | _ => rfl
  | work i id =>
    simp only [step, World.work]
    split
    · split_ifs
      · rfl
      · exact hset hj rfl
    · rfl
  | resume i succeeds =>
    apply tasks_resume
    rintro rfl
    exact hj rfl
  | crash i =>
    simp only [step, World.crash]
    split
    · exact hset hj rfl
    · rename_i delivery _
      cases delivery <;> exact hset hj rfl
    · rename_i delivery _ _
      cases delivery <;> exact hset hj rfl
    · rename_i delivery _ _ _ _
      cases delivery <;> exact hset hj rfl
    · exact hset hj rfl
  | expire domain | forget id | wait elapsed => rfl

lemma tasks_run {moves : List (Move D)} (hj : ∀ move ∈ moves, move.task ≠ some j) :
    (run (step host config) w moves).tasks j = w.tasks j := by
  induction moves generalizing w with
  | nil => rfl
  | cons move rest ih =>
    rw [run_cons, ih fun later hlater => hj later (List.mem_cons_of_mem _ hlater),
      tasks_step (hj move List.mem_cons_self)]

end Frames

section Samples

def Host.plain : Host := ⟨some, id⟩

def Webhook.shop : Webhook := ⟨"hook", "ann", "shop", "secret", none, by decide⟩

def JobData.payment : JobData Unit := ⟨.shop, ⟨"payment.received", "payment", ()⟩⟩

/-- The attempts of a delivery, by one task after another, that fail until its breaker opens. -/
def opening : List (Move Unit) :=
  [.dispatch 0 .payment, .resume 0 true, .resume 0 true] ++
    (List.range 5).flatMap fun i =>
      [.work (i + 1) "hook:payment", .resume (i + 1) false, .resume (i + 1) false, .resume (i + 1) false]

end Samples

end StellarTags.Webhooks.Deliveries
