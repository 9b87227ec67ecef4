import StellarTags.Settlement.Engine

/-! The calls of the outbox engine that are under way, and what they do between two awaits. -/

namespace StellarTags.Settlement

open Library.Runs Library.Tables Platform

structure ShardResult where
  shardId : ℕ
  processed : ℕ
  settled : ℕ
  failed : ℕ
  batchId : Option ℕ
  merkleRoot : Option String
  deriving DecidableEq, Repr

inductive Progress
  | running
  | resolved (result : ShardResult)
  | rejected
  deriving DecidableEq, Repr

/-- A call of `processShard`; the processor has the first of the items that are left to do. -/
structure ShardCall where
  shardId : ℕ
  itemsToProcess : ℕ
  todo : List ℕ
  successfulItems : List ℕ := []
  failedItems : ℕ := 0
  progress : Progress := .running
  deriving DecidableEq, Repr

structure World where
  engine : Engine
  redis : String → Option RedisEntry
  enqueues : List EnqueueCall := []
  shardCalls : List ShardCall := []

/-- Redis may hold any entries at the start. -/
def World.start (options : Options) (redis : String → Option RedisEntry) : World where
  engine := { adaptiveBatchSize := options.batchSize }
  redis := redis

inductive Action
  | enqueuePayment (payload : Payload) (idempotencyKey : String)
  | redisGet (call : ℕ) (answers : Bool)
  | resume (call : ℕ)
  | redisSet (call : ℕ) (stores : Bool)
  | redisChanges (idempotencyKey : String) (entry : Option RedisEntry)
  | processShard (shardId : ℕ)
  | attempt (call : ℕ) (result : Attempt) (batchTimestamp : ℕ) (latency : Latency)

/-- An action when the clock shows `now`. -/
structure Move where
  now : ℕ
  action : Action

section Step

variable (host : Host) (options : Options)

def World.setEnqueue (w : World) (i : ℕ) (call : EnqueueCall) : World :=
  { w with enqueues := w.enqueues.set i call }

/-- The end of a call: the batch size adapts, and what was settled gets its receipts. -/
def Engine.finish (engine : Engine) (call : ShardCall) (batchTimestamp : ℕ) (latency : Latency) :
    Engine × ShardCall :=
  let engine := { engine with adaptiveBatchSize := adapt latency engine.adaptiveBatchSize }
  let result (batchId : Option ℕ) (merkleRoot : Option String) : ShardCall := { call with
    successfulItems := []
    progress := .resolved ⟨call.shardId, call.itemsToProcess, call.successfulItems.length,
      call.failedItems, batchId, merkleRoot⟩ }
  if call.successfulItems = [] then (engine, result none none)
  else
    let (next, batch) := engine.settleBatch host call.shardId batchTimestamp call.successfulItems
    (next, result (some batch.batchId) (some batch.merkleRoot))

/-- What an attempt comes to, before the call goes on. -/
def Engine.attempt (engine : Engine) (call : ShardCall) (now id : ℕ) (rest : List ℕ)
    (result : Attempt) : Engine × ShardCall :=
  match result with
  | .returns => (engine.update id (settle now), { call with
      todo := rest
      successfulItems := call.successfulItems ++ [id] })
  | .throws message fatal => (engine.fail options call.shardId id now message fatal, { call with
      todo := rest
      failedItems := call.failedItems + 1 })
  -- reading the message of `null` throws out of the handler
  | .throwsNothing => (engine.update id countAttempt, { call with
      todo := []
      successfulItems := []
      progress := .rejected })

def World.attempt (w : World) (i now : ℕ) (result : Attempt) (batchTimestamp : ℕ)
    (latency : Latency) : World :=
  match w.shardCalls[i]? with
  | none => w
  | some call =>
    match call.todo with
    | [] => w
    | id :: rest =>
      let (engine, next) := w.engine.attempt options call now id rest result
      let (engine, next) :=
        if next.todo = [] ∧ next.progress = .running then
          engine.finish host next batchTimestamp latency
        else (engine, next)
      { w with
        engine
        shardCalls := w.shardCalls.set i next }

def World.processShard (w : World) (shardId now : ℕ) : World :=
  if options.numShards ≤ shardId then w
  else
    let (itemsToProcess, engine) := w.engine.takeBatch shardId now
    let call : ShardCall := {
      shardId
      itemsToProcess := itemsToProcess.length
      todo := itemsToProcess }
    { w with
      engine
      shardCalls := w.shardCalls ++ [if itemsToProcess = [] then
        { call with progress := .resolved ⟨shardId, 0, 0, 0, none, none⟩ } else call] }

def step (move : Move) (w : World) : World :=
  match move.action with
  | .enqueuePayment payload key =>
    { w with enqueues := w.enqueues ++ [w.engine.enqueuePayment host payload key] }
  | .redisGet i answers =>
    match w.enqueues[i]? with
    | some (.looking payload key) =>
      w.setEnqueue i (.looked payload key (if answers then w.redis key else none))
    | _ => w
  | .resume i =>
    match w.enqueues[i]? with
    | some (.looked payload key answer) =>
      let (engine, call) := w.engine.answered host options move.now payload key answer
      { w with engine }.setEnqueue i call
    | _ => w
  | .redisSet i stores =>
    match w.enqueues[i]? with
    | some (.saving key payloadHash trackingId shardId) =>
      let returned := w.setEnqueue i
        (.returned key ⟨.drawn trackingId, shardId, .pending, false, none⟩)
      if stores then
        { returned with redis := Function.update w.redis key (some ⟨.drawn trackingId, payloadHash⟩) }
      else returned
    | _ => w
  | .redisChanges key entry => { w with redis := Function.update w.redis key entry }
  | .processShard shardId => w.processShard options shardId move.now
  | .attempt i result batchTimestamp latency =>
    w.attempt host options i move.now result batchTimestamp latency

def Attempt.out (result : Attempt) (id : ℕ) : List ℕ :=
  match result with
  | .returns => [id]
  | .throws _ _ | .throwsNothing => []

def settlements (w : World) (move : Move) : List ℕ :=
  match move.action with
  | .attempt i result _ _ =>
    match w.shardCalls[i]? with
    | none => []
    | some call => call.todo.head?.elim [] result.out
  | _ => []

end Step

/-- What a step preserves of the engine and its calls is what an insertion, the start of a batch, an
attempt and the end of a batch preserve. -/
lemma step_rule {host : Host} {options : Options} {w : World} {move : Move} {log : List ℕ}
    {J : List ℕ → Engine → List ShardCall → Prop}
    (hinsert : ∀ i payload key, move.action = .resume i →
      w.enqueues[i]? = some (.looked payload key none) → J log w.engine w.shardCalls →
      J log (w.engine.insert host options move.now payload key) w.shardCalls)
    (htake : ∀ s (call : ShardCall), move.action = .processShard s → s < options.numShards →
      call.shardId = s → call.todo = (w.engine.takeBatch s move.now).1 → call.successfulItems = [] →
      J log w.engine w.shardCalls →
      J log (w.engine.takeBatch s move.now).2 (w.shardCalls ++ [call]))
    (hattempt : ∀ i (call : ShardCall) id rest result batchTimestamp latency,
      move.action = .attempt i result batchTimestamp latency → w.shardCalls[i]? = some call →
      call.todo = id :: rest → J log w.engine w.shardCalls →
      J (log ++ result.out id) (w.engine.attempt options call move.now id rest result).1
        (w.shardCalls.set i (w.engine.attempt options call move.now id rest result).2))
    (hfinish : ∀ log (e : Engine) calls i (call : ShardCall) batchTimestamp latency, J log e calls →
      calls[i]? = some call → call.todo = [] →
      J log (e.finish host call batchTimestamp latency).1
        (calls.set i (e.finish host call batchTimestamp latency).2))
    (h : J log w.engine w.shardCalls) :
    J (log ++ settlements w move) (step host options move w).engine
      (step host options move w).shardCalls := by
  unfold step settlements
  cases haction : move.action with
  | enqueuePayment payload key => simpa only [List.append_nil] using h
  | redisChanges key entry => simpa only [List.append_nil] using h
  | redisGet i answers =>
    rw [List.append_nil]
    dsimp only
    split <;> exact h
  | redisSet i stores =>
    rw [List.append_nil]
    dsimp only
    split
    · split_ifs <;> exact h
    · exact h
  | resume i =>
    rw [List.append_nil]
    dsimp only
    split
    · rename_i payload key answer hcall
      cases answer with
      | none => exact hinsert i payload key haction hcall h
      | some entry =>
        unfold Engine.answered
        dsimp only
        split_ifs <;> exact h
    · exact h
  | processShard s =>
    rw [List.append_nil]
    dsimp only
    unfold World.processShard
    by_cases hs : options.numShards ≤ s
    · rw [if_pos hs]
      exact h
    · rw [if_neg hs]
      refine htake s _ haction (not_le.mp hs) ?_ ?_ ?_ h <;> split_ifs <;> rfl
  | attempt i result batchTimestamp latency =>
    dsimp only
    unfold World.attempt
    cases hcall : w.shardCalls[i]? with
    | none => simpa only [List.append_nil] using h
    | some call =>
      cases htodo : call.todo with
      | nil => simpa only [htodo, List.head?_nil, Option.elim_none, List.append_nil] using h
      | cons id rest =>
        have hnext := hattempt i call id rest result batchTimestamp latency haction hcall htodo h
        simp only [htodo, List.head?_cons, Option.elim_some]
        split_ifs with hdone
        · have hset : (w.shardCalls.set i
              (w.engine.attempt options call move.now id rest result).2)[i]? =
              some (w.engine.attempt options call move.now id rest result).2 := by
            rw [List.getElem?_set_self (List.getElem?_eq_some_iff.mp hcall).1]
          have hend := hfinish _ _ _ i _ batchTimestamp latency hnext hset hdone.1
          rwa [List.set_set] at hend
        · exact hnext

end StellarTags.Settlement
