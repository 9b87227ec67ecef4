import Mathlib.Algebra.Group.Nat.Defs
import Mathlib.Data.List.Sort
import StellarTags.Library.Runs
import StellarTags.Library.Tables

/-! The outbox of payment notifications, and the workers that lease and publish its messages. -/

namespace StellarTags.Outbox

open Library.Runs Library.Tables

def RETRY_MIN_MS : ℕ := 1000
def RETRY_MAX_MS : ℕ := 60000

inductive OutboxStatus
  | pending
  | processed
  | failed
  deriving DecidableEq, Repr

/-- A lock owner is the number of the random token that was drawn. -/
structure OutboxMessage where
  id : String
  status : OutboxStatus := .pending
  retries : ℕ := 0
  nextAttemptAt : ℕ
  lockedUntil : Option ℕ := none
  lockOwner : Option ℕ := none
  lastError : Option String := none
  createdAt : ℕ
  processedAt : Option ℕ := none
  deriving DecidableEq, Repr

structure Config where
  batchSize : ℕ
  leaseMs : ℕ
  batchSize_pos : 0 < batchSize
  leaseMs_pos : 0 < leaseMs

/-- What a worker knows of the message that it claimed, and the candidates after it. -/
structure Lease where
  tick : ℕ
  message : OutboxMessage
  lockOwner : ℕ
  since : ℕ
  rest : List OutboxMessage
  deriving DecidableEq, Repr

/-- Where a worker's batch awaits: the query, the next claim, the publisher, or the write of what
came of it. -/
inductive Worker
  | idle
  | finding (tick : ℕ)
  | claiming (tick : ℕ) (candidates : List OutboxMessage)
  | publishing (lease : Lease)
  | published (lease : Lease) (processedAt : ℕ)
  | failed (lease : Lease) (nextAttemptAt : ℕ) (error : String)
  deriving DecidableEq, Repr

structure BatchResult where
  claimed : ℕ := 0
  processed : ℕ := 0
  failed : ℕ := 0
  deriving DecidableEq, Repr

structure World where
  messages : List OutboxMessage := []
  drawn : ℕ := 0
  workers : ℕ → Worker := fun _ => .idle
  results : ℕ → BatchResult := fun _ => {}

inductive Action
  | insert (id : String)
  | poll (worker : ℕ)
  | resume (worker : ℕ)
  | returned (worker : ℕ)
  | threw (worker : ℕ) (error : String)
  | crash (worker : ℕ)
  deriving DecidableEq, Repr

/-- An action when the clock shows `now`. -/
structure Move where
  now : ℕ
  action : Action
  deriving DecidableEq, Repr

section Database

def eligible (tick : ℕ) (m : OutboxMessage) : Bool :=
  decide (m.status = .pending ∨ m.status = .failed) && decide (m.nextAttemptAt ≤ tick) &&
    m.lockedUntil.all (· < tick)

def candidateOrder (a b : OutboxMessage) : Prop :=
  a.createdAt < b.createdAt ∨ a.createdAt = b.createdAt ∧ a.id ≤ b.id

instance : DecidableRel candidateOrder := fun _ _ => inferInstanceAs (Decidable (_ ∨ _))

def findCandidates (config : Config) (tick : ℕ) (messages : List OutboxMessage) :
    List OutboxMessage :=
  ((messages.filter (eligible tick)).insertionSort candidateOrder).take config.batchSize

def claim (config : Config) (tick lockOwner : ℕ) (id : String) (messages : List OutboxMessage) :
    ℕ × List OutboxMessage :=
  updateMany (fun m => decide (m.id = id) && eligible tick m)
    (fun m => { m with
      lockOwner := some lockOwner
      lockedUntil := some (tick + config.leaseMs) }) messages

def record (lease : Lease) (change : OutboxMessage → OutboxMessage) (messages : List OutboxMessage) :
    ℕ × List OutboxMessage :=
  updateMany (fun m => decide (m.id = lease.message.id) && decide (m.lockOwner = some lease.lockOwner))
    change messages

def newMessage (id : String) (now : ℕ) : OutboxMessage :=
  { id, nextAttemptAt := now, createdAt := now }

def delayMs (retries : ℕ) : ℕ := min RETRY_MAX_MS (RETRY_MIN_MS * 2 ^ min (retries - 1) 6)

def markFailed (nextAttemptAt : ℕ) (error : String) (m : OutboxMessage) : OutboxMessage :=
  { m with
    status := .failed
    retries := m.retries + 1
    nextAttemptAt := nextAttemptAt
    lockedUntil := none
    lockOwner := none
    lastError := some (.ofList (error.toList.take 1000)) }

def markProcessed (processedAt : ℕ) (m : OutboxMessage) : OutboxMessage :=
  { m with
    status := .processed
    processedAt := some processedAt
    lockedUntil := none
    lockOwner := none
    lastError := none }

end Database

section Batches

variable (config : Config)

def World.setWorker (w : World) (i : ℕ) (worker : Worker) : World :=
  { w with workers := Function.update w.workers i worker }

def World.count (w : World) (i : ℕ) (change : BatchResult → BatchResult) : World :=
  { w with results := Function.update w.results i (change (w.results i)) }

def World.tryClaim (w : World) (i now tick : ℕ) (message : OutboxMessage)
    (rest : List OutboxMessage) : World :=
  let (count, messages) := claim config tick w.drawn message.id w.messages
  let claimed := { w with messages, drawn := w.drawn + 1 }
  if count = 1 then
    (claimed.setWorker i (.publishing ⟨tick, message, w.drawn, now, rest⟩)).count i
      fun result => { result with claimed := result.claimed + 1 }
  else claimed.setWorker i (.claiming tick rest)

/-- A worker of a batch goes on to its next await. -/
def World.resume (w : World) (i now : ℕ) : World :=
  match w.workers i with
  | .idle | .publishing _ => w
  | .finding tick => w.setWorker i (.claiming tick (findCandidates config tick w.messages))
  | .claiming _ [] => w.setWorker i .idle
  | .claiming tick (message :: rest) => w.tryClaim config i now tick message rest
  | .published lease processedAt =>
    let (count, messages) := record lease (markProcessed processedAt) w.messages
    ({ w with messages }.setWorker i (.claiming lease.tick lease.rest)).count i
      fun result => { result with processed := result.processed + if count = 1 then 1 else 0 }
  | .failed lease nextAttemptAt error =>
    let (_, messages) := record lease (markFailed nextAttemptAt error) w.messages
    ({ w with messages }.setWorker i (.claiming lease.tick lease.rest)).count i
      fun result => { result with failed := result.failed + 1 }

/-- A worker that crashes, or whose write the database refuses, drops its batch. -/
def step (move : Move) (w : World) : World :=
  match move.action with
  | .insert id =>
    { w with messages := insert OutboxMessage.id (newMessage id move.now) w.messages }
  | .poll i =>
    if w.workers i = .idle then (w.setWorker i (.finding move.now)).count i fun _ => {} else w
  | .resume i => w.resume config i move.now
  | .returned i =>
    match w.workers i with
    | .publishing lease => w.setWorker i (.published lease move.now)
    | _ => w
  | .threw i error =>
    match w.workers i with
    | .publishing lease =>
      w.setWorker i (.failed lease (move.now + delayMs (lease.message.retries + 1)) error)
    | _ => w
  | .crash i => w.setWorker i .idle

/-- A successful publish. -/
structure Delivery where
  worker : ℕ
  id : String
  lockOwner : ℕ
  deriving DecidableEq, Repr

def deliveries (w : World) (move : Move) : List Delivery :=
  match move.action with
  | .returned i =>
    match w.workers i with
    | .publishing lease => [⟨i, lease.message.id, lease.lockOwner⟩]
    | _ => []
  | _ => []

end Batches

end StellarTags.Outbox
