import Mathlib.Logic.Function.Basic
import StellarTags.Library.PositionalNumerals
import StellarTags.Library.Runs
import StellarTags.Library.Tables
import StellarTags.Platform.Encoding
import StellarTags.Settlement.Merkle

/-! The in-memory outbox: payments wait in shards and are settled in batches, with receipts. -/

namespace StellarTags.Settlement

open Library.BigEndian Library.Runs Library.Tables Platform

structure Options where
  numShards : ℕ
  batchSize : ℕ
  maxRetries : ℕ
  numShards_pos : 0 < numShards
  batchSize_pos : 0 < batchSize

/-- SHA-256, the text of each random id that is drawn, and whether `parseFloat` reads a positive
number. -/
structure Host where
  sha256 : Bytes → Digest
  randomUUID : ℕ → String
  parsesPositive : Json → Bool

inductive Status
  | pending
  | processing
  | settled
  | failed
  | dlq
  deriving DecidableEq, Repr

/-- An item of this status is in its shard's queue. -/
def Status.Waiting (status : Status) : Prop := status = .pending ∨ status = .failed

instance (status : Status) : Decidable status.Waiting := inferInstanceAs (Decidable (_ ∨ _))

structure Payload where
  sender : String
  recipient : String
  amount : Json
  assetCode : Option String
  metadata : Option Json

structure Receipt where
  batchId : ℕ
  shardId : ℕ
  merkleRoot : String
  chainHash : String
  leafIndex : ℕ
  proof : List ProofStep
  settledAt : ℕ
  deriving DecidableEq, Repr

/-- An item's id is the number of the random id that was drawn for it. -/
structure OutboxItem where
  id : ℕ
  idempotencyKey : String
  payloadHash : String
  shardId : ℕ
  payload : Payload
  status : Status
  attempts : ℕ
  lastError : Option String
  receipt : Option Receipt
  createdAt : ℕ
  updatedAt : ℕ

structure IdempotencyRecord where
  trackingId : ℕ
  payloadHash : String
  createdAt : ℕ
  deriving DecidableEq, Repr

structure BatchRecord where
  batchId : ℕ
  shardId : ℕ
  merkleRoot : String
  prevBatchHash : String
  chainHash : String
  timestamp : ℕ
  transactionCount : ℕ
  items : List ℕ
  deriving DecidableEq, Repr

def zeroHash : String := .ofList (List.replicate 64 '0')

structure Engine where
  shards : ℕ → List ℕ := fun _ => []
  items : List OutboxItem := []
  idempotencyStore : String → Option IdempotencyRecord := fun _ => none
  dlq : List ℕ := []
  batches : List BatchRecord := []
  lastBatchHash : String := zeroHash
  adaptiveBatchSize : ℕ
  drawn : ℕ := 0

/-- The id of an item of this engine, or of one that another instance shares through Redis. -/
inductive TrackingId
  | drawn (n : ℕ)
  | elsewhere (text : String)
  deriving DecidableEq, Repr

structure RedisEntry where
  trackingId : TrackingId
  payloadHash : String
  deriving DecidableEq, Repr

structure Fault where
  code : String
  subCode : Option String
  message : String
  deriving DecidableEq, Repr

def Engine.item? (engine : Engine) (id : ℕ) : Option OutboxItem :=
  lookup OutboxItem.id id engine.items

def Engine.update (engine : Engine) (id : ℕ) (change : OutboxItem → OutboxItem) : Engine :=
  { engine with items := (updateMany (fun item => decide (item.id = id)) change engine.items).2 }

section Payloads

variable (host : Host) (options : Options)

def computeShard (key : String) : ℕ :=
  if key = "" then 0
  else ofBytes ((host.sha256 (utf8 key)).bytes.take 4) % options.numShards

def Payload.asset (payload : Payload) : String :=
  match payload.assetCode with
  | none | some "" => "XLM"
  | some code => code

def Payload.shardKey (payload : Payload) : String := payload.sender ++ ":" ++ payload.asset

def Payload.json (payload : Payload) : Json :=
  .object ([("from", .string payload.sender), ("to", .string payload.recipient),
    ("amount", payload.amount)] ++ (payload.assetCode.map fun code => ("assetCode", .string code)).toList
      ++ (payload.metadata.map fun data => ("metadata", data)).toList)

def hashPayload (payload : Payload) : String :=
  toHex (host.sha256 (utf8 (canonicalJson payload.json))).bytes

def invalidInput (message : String) : Fault := ⟨"INVALID_INPUT", none, message⟩

def payloadMismatch (message : String) : Fault :=
  ⟨"CONFLICT", some "IDEMPOTENCY_PAYLOAD_MISMATCH", message⟩

def validatePayload (payload : Payload) : Except Fault Unit :=
  if blank payload.sender then .error (invalidInput "Invalid sender address (from)")
  else if blank payload.recipient then .error (invalidInput "Invalid recipient address (to)")
  else if host.parsesPositive payload.amount = false then
    .error (invalidInput "Payment amount must be a positive number")
  else if payload.assetCode.any fun code => decide (12 < (codeUnits code).length) then
    .error (invalidInput "Invalid assetCode format")
  else .ok ()

end Payloads

section Enqueue

structure EnqueueResult where
  trackingId : TrackingId
  shardId : ℕ
  status : Status
  isReplay : Bool
  receipt : Option Receipt
  deriving DecidableEq, Repr

/-- Where a call of `enqueuePayment` is; an answer of Redis is `none` if Redis has nothing, or fails,
or has what does not parse. -/
inductive EnqueueCall
  | looking (payload : Payload) (idempotencyKey : String)
  | looked (payload : Payload) (idempotencyKey : String) (answer : Option RedisEntry)
  | saving (idempotencyKey payloadHash : String) (trackingId shardId : ℕ)
  | returned (idempotencyKey : String) (result : EnqueueResult)
  | threw (idempotencyKey : String) (fault : Fault)

variable (host : Host) (options : Options)

def Engine.replay (engine : Engine) (trackingId : TrackingId) : EnqueueResult :=
  let existingItem := match trackingId with
    | .drawn n => engine.item? n
    | .elsewhere _ => none
  { trackingId
    shardId := (existingItem.map OutboxItem.shardId).getD 0
    status := (existingItem.map OutboxItem.status).getD .pending
    isReplay := true
    receipt := existingItem.bind OutboxItem.receipt }

/-- A call up to its first await, or to its end. -/
def Engine.enqueuePayment (engine : Engine) (payload : Payload) (idempotencyKey : String) :
    EnqueueCall :=
  if blank idempotencyKey then
    .threw idempotencyKey (invalidInput "Missing or empty idempotency key")
  else
    match validatePayload host payload with
    | .error fault => .threw idempotencyKey fault
    | .ok () =>
      match engine.idempotencyStore idempotencyKey with
      | some existing =>
        if existing.payloadHash ≠ hashPayload host payload then
          .threw idempotencyKey (payloadMismatch ("Idempotency key reused with mismatched payload. "
            ++ "Cannot modify existing transaction."))
        else .returned idempotencyKey (engine.replay (.drawn existing.trackingId))
      | none => .looking payload idempotencyKey

def newItem (id now : ℕ) (payload : Payload) (idempotencyKey : String) : OutboxItem where
  id := id
  idempotencyKey := idempotencyKey
  payloadHash := hashPayload host payload
  shardId := computeShard host options payload.shardKey
  payload := payload
  status := .pending
  attempts := 0
  lastError := none
  receipt := none
  createdAt := now
  updatedAt := now

def Engine.insert (engine : Engine) (now : ℕ) (payload : Payload) (idempotencyKey : String) :
    Engine :=
  let item := newItem host options engine.drawn now payload idempotencyKey
  { engine with
    items := Library.Tables.insert OutboxItem.id item engine.items
    shards := Function.update engine.shards item.shardId
      (engine.shards item.shardId ++ [item.id])
    idempotencyStore := Function.update engine.idempotencyStore idempotencyKey
      (some ⟨item.id, item.payloadHash, now⟩)
    drawn := engine.drawn + 1 }

/-- A call from the answer of Redis on: it replays, or inserts an item and saves it in Redis. -/
def Engine.answered (engine : Engine) (now : ℕ) (payload : Payload) (idempotencyKey : String)
    (answer : Option RedisEntry) : Engine × EnqueueCall :=
  match answer with
  | some entry =>
    if entry.payloadHash ≠ hashPayload host payload then
      (engine, .threw idempotencyKey (payloadMismatch
        "Idempotency key reused with mismatched payload in distributed store."))
    else (engine, .returned idempotencyKey (engine.replay entry.trackingId))
  | none =>
    (engine.insert host options now payload idempotencyKey,
      .saving idempotencyKey (hashPayload host payload) engine.drawn
        (computeShard host options payload.shardKey))

end Enqueue

section Settle

variable (host : Host) (options : Options)

def startItem (now : ℕ) (item : OutboxItem) : OutboxItem :=
  { item with
    status := .processing
    updatedAt := now }

/-- Marks the items that wait among those taken from a queue, and tells which they are. -/
def Engine.start (now : ℕ) : List ℕ → Engine → List ℕ × Engine
  | [], engine => ([], engine)
  | id :: ids, engine =>
    match engine.item? id with
    | none => start now ids engine
    | some item =>
      if item.status.Waiting then
        let (itemsToProcess, next) := start now ids (engine.update id (startItem now))
        (id :: itemsToProcess, next)
      else start now ids engine

def Engine.takeBatch (engine : Engine) (shardId now : ℕ) : List ℕ × Engine :=
  let queue := engine.shards shardId
  let countToTake := min queue.length engine.adaptiveBatchSize
  Engine.start now (queue.take countToTake)
    { engine with shards := Function.update engine.shards shardId (queue.drop countToTake) }

/-- How a call of the processor ends; what it throws may be no error at all. -/
inductive Attempt
  | returns
  | throws (message : String) (fatal : Bool)
  | throwsNothing
  deriving DecidableEq, Repr

def settle (now : ℕ) (item : OutboxItem) : OutboxItem :=
  { item with
    status := .settled
    lastError := none
    updatedAt := now }

def retry (now : ℕ) (message : String) (status : Status) (item : OutboxItem) : OutboxItem :=
  { item with
    attempts := item.attempts + 1
    lastError := some message
    updatedAt := now
    status := status }

def countAttempt (item : OutboxItem) : OutboxItem := { item with attempts := item.attempts + 1 }

def isFatal (item : OutboxItem) (fatal : Bool) : Bool :=
  fatal || decide (options.maxRetries ≤ item.attempts + 1)

/-- What a failed attempt does with its item: to the dead letters, or back to the queue. -/
def Engine.fail (engine : Engine) (shardId id now : ℕ) (message : String) (fatal : Bool) : Engine :=
  match engine.item? id with
  | none => engine
  | some item =>
    if isFatal options item fatal then
      { engine.update id (retry now message .dlq) with dlq := engine.dlq ++ [id] }
    else
      { engine.update id (retry now message .failed) with
        shards := Function.update engine.shards shardId (engine.shards shardId ++ [id]) }

/-- How the average latency, as a floating-point number, compares with the thresholds. -/
inductive Latency
  | high
  | healthy
  | between
  deriving DecidableEq, Repr

def adapt (latency : Latency) (adaptiveBatchSize : ℕ) : ℕ :=
  match latency with
  | .high => max 5 (adaptiveBatchSize * 3 / 4)
  | .healthy =>
    if adaptiveBatchSize < 200 then min 200 (adaptiveBatchSize * 5 / 4) else adaptiveBatchSize
  | .between => adaptiveBatchSize

def OutboxItem.leaf (host : Host) (item : OutboxItem) : Leaf :=
  .value (.object [("id", .string ("tx_" ++ host.randomUUID item.id)),
    ("from", .string item.payload.sender), ("to", .string item.payload.recipient),
    ("amount", item.payload.amount), ("assetCode", .string item.payload.asset),
    ("timestamp", .number (toString item.updatedAt))])

def computeBatchChainHash (prevBatchHash merkleRoot : String) (timestamp batchId : ℕ) : String :=
  toHex (host.sha256 (utf8 ((if prevBatchHash = "" then "GENESIS" else prevBatchHash) ++ ":" ++
    merkleRoot ++ ":" ++ toString timestamp ++ ":" ++ ("batch_" ++ host.randomUUID batchId)))).bytes

def verifyBatchChain (prevBatchHash merkleRoot : String) (timestamp batchId : ℕ)
    (expectedChainHash : String) : Bool :=
  (computeBatchChainHash host prevBatchHash merkleRoot timestamp batchId).toLower =
    expectedChainHash.toLower

def attachReceipt (receipt : Receipt) (item : OutboxItem) : OutboxItem :=
  { item with receipt := some receipt }

def Engine.attachReceipts (receipt : ℕ → Receipt) : ℕ → List ℕ → Engine → Engine
  | _, [], engine => engine
  | index, id :: ids, engine =>
    attachReceipts receipt (index + 1) ids (engine.update id (attachReceipt (receipt index)))

def Engine.batchTree (engine : Engine) (successfulItems : List ℕ) : MerkleTree :=
  merkleTree host.sha256 ((successfulItems.filterMap engine.item?).map (OutboxItem.leaf host))

def Engine.newBatch (engine : Engine) (shardId timestamp : ℕ) (successfulItems : List ℕ) :
    BatchRecord :=
  let merkleRoot := (engine.batchTree host successfulItems).getRootHex
  { batchId := engine.drawn
    shardId
    merkleRoot
    prevBatchHash := engine.lastBatchHash
    chainHash := computeBatchChainHash host engine.lastBatchHash merkleRoot timestamp engine.drawn
    timestamp
    transactionCount := successfulItems.length
    items := successfulItems }

def BatchRecord.receipt (batch : BatchRecord) (tree : MerkleTree) (index : ℕ) : Receipt where
  batchId := batch.batchId
  shardId := batch.shardId
  merkleRoot := batch.merkleRoot
  chainHash := batch.chainHash
  leafIndex := index
  proof := (tree.getProof index).toOption.getD []
  settledAt := batch.timestamp

/-- The batch of the items that a call settled is the next link of the chain, and each gets its
receipt. -/
def Engine.settleBatch (engine : Engine) (shardId timestamp : ℕ) (successfulItems : List ℕ) :
    Engine × BatchRecord :=
  let batch := engine.newBatch host shardId timestamp successfulItems
  (Engine.attachReceipts (batch.receipt (engine.batchTree host successfulItems)) 0 successfulItems
    { engine with
      batches := engine.batches ++ [batch]
      lastBatchHash := batch.chainHash
      drawn := engine.drawn + 1 }, batch)

structure ProofReport where
  valid : Bool
  chainValid : Bool
  batchId : Option ℕ
  merkleRoot : Option String
  leafIndex : Option ℕ
  error : Option String
  deriving DecidableEq, Repr

def noProof (error : String) : ProofReport := ⟨false, false, none, none, none, some error⟩

def verifyItemProof (engine : Engine) (id : ℕ) : ProofReport :=
  match engine.item? id with
  | none => noProof "Item not found or not yet settled"
  | some item =>
    match item.receipt with
    | none => noProof "Item not found or not yet settled"
    | some receipt =>
      match engine.batches.find? (·.batchId = receipt.batchId) with
      | none => noProof "Batch record not found"
      | some batch =>
        { valid := verifyProof host.sha256 (item.leaf host) receipt.proof (.hex receipt.merkleRoot)
          chainValid := verifyBatchChain host batch.prevBatchHash batch.merkleRoot batch.timestamp
            batch.batchId receipt.chainHash
          batchId := some receipt.batchId
          merkleRoot := some receipt.merkleRoot
          leafIndex := some receipt.leafIndex
          error := none }

end Settle

end StellarTags.Settlement
