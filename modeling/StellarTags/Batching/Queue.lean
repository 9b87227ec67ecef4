import Mathlib.Data.List.Nodup
import Mathlib.Data.List.Sort
import StellarTags.Library.Runs
import StellarTags.Platform.Encoding

/-! The queue that buffers payments and submits them in batches. -/

namespace StellarTags.Batching

open Library.Runs Platform

structure Config where
  maxBatchSize : ℕ
  maxBatchSize_pos : 0 < maxBatchSize

/-- The text of each random id that is drawn, and whether `Number` reads a positive number. -/
structure Host where
  uuidv4 : ℕ → String
  readsPositive : Json → Bool

structure PaymentData where
  paymentId : Option String
  fromAddress : String
  toAddress : String
  amount : Json

/-- An item holds the promise that its call of `enqueue` returned, by its number. -/
structure Item where
  promise : ℕ
  paymentId : String
  paymentData : PaymentData
  queuedAt : ℕ

/-- How the submission of a batch ends. -/
inductive Outcome
  | submitted (transactionHash : String)
  | failed (error : String)
  deriving DecidableEq, Repr

structure Batch where
  items : List Item
  outcome : Option Outcome

inductive Settlement
  | resolved (transactionHash : String) (operationIndex : ℕ) (paymentId : String) (batchSize : ℕ)
  | rejected (error : String)
  deriving DecidableEq, Repr

/-- The queue with its timer, the batches taken from it and how many payments were accepted. -/
structure World where
  queue : List Item := []
  timer : Bool := false
  batches : List Batch := []
  accepted : ℕ := 0

inductive Action
  | enqueue (paymentData : Option PaymentData)
  | timer
  | flush
  | clear
  | finish (batch : ℕ) (outcome : Outcome)

structure Move where
  now : ℕ
  action : Action

section Step

variable (config : Config) (host : Host)

/-- What a call of `enqueue` without an object, or with a bad payment, is rejected with. -/
def validate (paymentData : Option PaymentData) : Except String PaymentData :=
  match paymentData with
  | none => .error "paymentData is required"
  | some data =>
    if data.fromAddress = "" ∨ data.toAddress = "" then
      .error "fromAddress and toAddress are required"
    else if host.readsPositive data.amount = false then .error "amount must be greater than 0"
    else .ok data

def newItem (promise now : ℕ) (data : PaymentData) : Item where
  promise := promise
  paymentId := match data.paymentId with
    | none | some "" => host.uuidv4 promise
    | some paymentId => paymentId
  paymentData := data
  queuedAt := now

def World.processBatch (w : World) (batch : List Item) : World :=
  if batch = [] then w else { w with batches := w.batches ++ [⟨batch, none⟩] }

/-- Items that stay in the queue have a timer of their own. -/
def World.takeBatch (w : World) : World :=
  let rest := w.queue.drop config.maxBatchSize
  { w with
    queue := rest
    timer := !rest.isEmpty }.processBatch (w.queue.take config.maxBatchSize)

def World.startTimer (w : World) : World := { w with timer := true }

def World.triggerCapacityFlush (w : World) : World := w.takeBatch config

def World.enqueue (w : World) (now : ℕ) (paymentData : Option PaymentData) : World :=
  match validate host paymentData with
  | .error _ => w
  | .ok data =>
    let next := { w with
      queue := w.queue ++ [newItem host w.accepted now data]
      accepted := w.accepted + 1 }
    if config.maxBatchSize ≤ next.queue.length then next.triggerCapacityFlush config
    else if next.timer then next
    else next.startTimer

def World.timerFires (w : World) : World :=
  if w.timer then
    if w.queue = [] then { w with timer := false } else w.takeBatch config
  else w

def World.flush (w : World) : World :=
  if w.queue = [] then { w with timer := false } else w.takeBatch config

def World.clear (w : World) : World :=
  { w with
    queue := []
    timer := false }

def World.finish (w : World) (i : ℕ) (outcome : Outcome) : World :=
  match w.batches[i]? with
  | some ⟨items, none⟩ => { w with batches := w.batches.set i ⟨items, some outcome⟩ }
  | _ => w

def step (move : Move) (w : World) : World :=
  match move.action with
  | .enqueue paymentData => w.enqueue config host move.now paymentData
  | .timer => w.timerFires config
  | .flush => w.flush config
  | .clear => w.clear
  | .finish i outcome => w.finish i outcome

def Outcome.settles (outcome : Outcome) (batchSize operationIndex : ℕ) (item : Item) : Settlement :=
  match outcome with
  | .submitted transactionHash =>
    .resolved transactionHash operationIndex item.paymentId batchSize
  | .failed error => .rejected error

def settlements (w : World) (move : Move) : List (ℕ × Settlement) :=
  match move.action with
  | .clear => w.queue.map fun item => (item.promise, .rejected "Queue cleared")
  | .finish i outcome =>
    match w.batches[i]? with
    | some ⟨items, none⟩ =>
      items.mapIdx fun j item => (item.promise, outcome.settles items.length j item)
    | _ => []
  | _ => []

end Step

section Promises

variable {log more : List (ℕ × Settlement)} {n : ℕ} {settlement : Settlement}

def settled (n : ℕ) (log : List (ℕ × Settlement)) : List Settlement :=
  (log.filter fun call => call.1 = n).map Prod.snd

@[simp] lemma settled_append (n : ℕ) (log more : List (ℕ × Settlement)) :
    settled n (log ++ more) = settled n log ++ settled n more := by
  rw [settled, List.filter_append, List.map_append]
  rfl

lemma settled_eq_nil (h : n ∉ log.map Prod.fst) : settled n log = [] := by
  rw [settled, List.map_eq_nil_iff, List.filter_eq_nil_iff]
  intro call hcall heq
  exact h (List.mem_map.mpr ⟨call, hcall, of_decide_eq_true heq⟩)

lemma settled_of_mem (hnodup : (log.map Prod.fst).Nodup) (hmem : (n, settlement) ∈ log) :
    settled n log = [settlement] := by
  obtain ⟨before, after, rfl⟩ := List.append_of_mem hmem
  rw [List.map_append, List.map_cons, List.nodup_middle, List.nodup_cons, List.mem_append,
    not_or] at hnodup
  have hself : settled n ((n, settlement) :: after) = settlement :: settled n after := by
    simp [settled]
  rw [settled_append, hself, settled_eq_nil hnodup.1.1, settled_eq_nil hnodup.1.2]
  rfl

end Promises

end StellarTags.Batching
