import Mathlib.Data.Rat.Defs
import StellarTags.Library.Tables
import StellarTags.Library.Runs
import StellarTags.Platform.Encoding

/-! The idempotency middleware, whose requests interleave at the answers of Redis and of the handler. -/

namespace StellarTags.Middleware.Idempotency

open Library Library.Runs Platform

section Requests

mutual

def stringify : Json → String
  | .null => "null"
  | .bool b => if b then "true" else "false"
  | .number text => text
  | .string s => quote s
  | .array values => "[" ++ ",".intercalate (stringifyValues values) ++ "]"
  | .object fields => "\x7b" ++ ",".intercalate (stringifyFields fields) ++ "\x7d"

def stringifyValues : List Json → List String
  | [] => []
  | value :: values => stringify value :: stringifyValues values

def stringifyFields : List (String × Json) → List String
  | [] => []
  | (key, value) :: fields => (quote key ++ ":" ++ stringify value) :: stringifyFields fields

end

structure Host where
  sha256 : Bytes → Digest

/-- `clients` of Redis there are, or there is none. -/
structure Config where
  clients : ℕ
  retryCount : ℕ := 10
  enforce : Bool := false

/-- A header that is absent is none, as is a body. -/
structure Request where
  method : String
  path : String
  originalUrl : String
  idempotencyKey : Option String
  body : Option Json
  authorization : Option String
  apiKey : Option String
  cookie : Option String

structure ApiError where
  code : String
  message : String
  deriving DecidableEq, Repr

structure Response where
  status : ℕ
  body : String
  contentType : Option String
  deriving DecidableEq, Repr

def isSuccess (status : ℕ) : Bool := 200 ≤ status ∧ status < 300

def IDEMPOTENCY_HEADER : String := "Idempotency-Key"

def MUTATING_METHODS : List String := ["POST", "PUT", "PATCH", "DELETE"]

def invalidInput (message : String) : ApiError := ⟨"INVALID_INPUT", message⟩

def unavailable (message : String) : ApiError := ⟨"SERVICE_UNAVAILABLE", message⟩

def conflict (message : String) : ApiError := ⟨"CONFLICT", message⟩

def noProtection : ApiError := unavailable "Idempotency protection is unavailable"

variable (host : Host)

def digest (value : String) : String := toHex (host.sha256 (utf8 value)).bytes

def requestFingerprint (request : Request) : String :=
  digest host (stringify (.array [.string request.originalUrl, request.body.getD .null,
    .string (request.authorization.getD ""), .string (request.apiKey.getD ""),
    .string (request.cookie.getD "")]))

inductive Admission
  | passes
  | rejected (error : ApiError)
  | claims (cacheKey : String)

def admission (config : Config) (request : Request) : Admission :=
  if request.method ∉ MUTATING_METHODS then .passes
  else
    match request.idempotencyKey with
    | none | some "" =>
      if config.enforce then .rejected (invalidInput ("Missing required header: " ++ IDEMPOTENCY_HEADER))
      else .passes
    | some rawKey =>
      let key := trim rawKey
      if key = "" ∨ 128 < (codeUnits key).length then
        .rejected (invalidInput "Invalid or too long Idempotency-Key")
      else .claims ("idempotency:" ++ request.method ++ ":" ++ request.path ++ ":" ++ digest host key)

end Requests

section Records

/-- A request's token is its number. -/
inductive Record
  | pending (fingerprint : String) (token : ℕ)
  | complete (fingerprint : String) (response : Response)
  deriving DecidableEq, Repr

abbrev Store := InsertionMap String Record

def acquireInstanceLock (key : String) (pending : Record) (store : Store) : Bool × Store :=
  if store.get key = none then (true, store.set key pending) else (false, store)

/-- No token is the text of a record, which is what the scripts compare tokens with. -/
def releaseScript (key : String) (pending : Record) (store : Store) : Store :=
  if store.get key = some pending then store.delete key else store

def completeScript (key : String) (pending record : Record) (store : Store) : Bool × Store :=
  if store.get key = some pending then (true, store.set key record) else (false, store)

inductive Outcome
  | replayed (response : Response)
  | rejected (error : ApiError)
  | sent (response : Response)
  deriving DecidableEq, Repr

def Record.outcome (fingerprint : String) : Record → Outcome
  | pending saved _ =>
    if saved ≠ fingerprint then .rejected (conflict "Idempotency-Key was used for a different request")
    else .rejected (conflict "Request with this Idempotency-Key is still processing")
  | complete saved response =>
    if saved ≠ fingerprint then .rejected (conflict "Idempotency-Key was used for a different request")
    else .replayed response

end Records

section Calls

/-- What a request waits for: `todo` are the stores that have still to answer. -/
inductive Phase
  | locking (attempt : ℕ) (todo locked : List ℕ)
  | unlocking (attempt : ℕ) (todo : List ℕ)
  | checking (attempt : ℕ) (todo : List ℕ) (found : List (ℕ × Record))
  | waiting (attempt : ℕ)
  | handling
  | ended (status : ℕ)
  | completing (response : Response) (todo : List ℕ) (saved : ℕ)
  | releasing (response : Response) (todo : List ℕ)
  | answered (outcome : Outcome)
  deriving DecidableEq, Repr

def Phase.todo : Phase → List ℕ
  | locking _ todo _ | unlocking _ todo | checking _ todo _ | completing _ todo _ | releasing _ todo => todo
  | _ => []

/-- `abandoned` are those whose key the end of the connection has released, or is releasing in the stores
of `closing`. -/
structure Call where
  cacheKey : String
  fingerprint : String
  phase : Phase
  closed : Bool := false
  abandoned : Bool := false
  closing : List ℕ := []
  deriving DecidableEq, Repr

def Call.pending (call : Call) (i : ℕ) : Record := .pending call.fingerprint i

/-- A handler that succeeded, when so many requests had arrived; `response` is what it sent. -/
structure Success where
  call : ℕ
  key : String
  fingerprint : String
  arrived : ℕ
  response : Option Response
  deriving DecidableEq, Repr

variable (config : Config)

/-- The stores: the clients of Redis, or the cache in memory. -/
def Config.members : List ℕ := List.range (max config.clients 1)

def Config.quorum : ℕ := config.members.length / 2 + 1

def ttlMs : ℚ := 300_000

def driftMs : ℚ := 3_002

def Config.unlocked (attempt : ℕ) (todo : List ℕ) : Phase :=
  if todo = [] then .checking attempt config.members [] else .unlocking attempt todo

def Config.locked (attempt : ℕ) (todo locked : List ℕ) (elapsed : ℚ) : Phase :=
  if todo ≠ [] then .locking attempt todo locked
  else if config.quorum ≤ locked.length ∧ 0 < ttlMs - elapsed - driftMs then .handling
  else config.unlocked attempt locked

def Config.stored (found : List (ℕ × Record)) : Option Record :=
  config.members.findSome? fun member => (found.find? fun answer => answer.1 = member).map Prod.snd

def Config.checked (fingerprint : String) (attempt : ℕ) (todo : List ℕ) (found : List (ℕ × Record)) :
    Phase :=
  if todo ≠ [] then .checking attempt todo found
  else if attempt < config.retryCount then
    match config.stored found with
    | some (.complete saved response) => .answered ((Record.complete saved response).outcome fingerprint)
    | _ => .waiting attempt
  else
    match config.stored found with
    | some existing => .answered (existing.outcome fingerprint)
    | none => .answered (.rejected noProtection)

def Config.completed (response : Response) (todo : List ℕ) (saved : ℕ) : Phase :=
  if todo ≠ [] then .completing response todo saved
  else if config.quorum ≤ saved then .answered (.sent response)
  else .answered (.rejected noProtection)

def released (response : Response) (todo : List ℕ) : Phase :=
  if todo ≠ [] then .releasing response todo else .answered (.sent response)

/-- A store runs the command that a request has sent it, and answers. -/
def Call.command (call : Call) (i member : ℕ) (elapsed : ℚ) (store : Store) : Store × Phase :=
  let pending := call.pending i
  match call.phase with
  | .locking attempt todo locked =>
    let (ok, store) := acquireInstanceLock call.cacheKey pending store
    (store, config.locked attempt (todo.erase member) (if ok then locked ++ [member] else locked) elapsed)
  | .unlocking attempt todo =>
    (releaseScript call.cacheKey pending store, config.unlocked attempt (todo.erase member))
  | .checking attempt todo found =>
    (store, config.checked call.fingerprint attempt (todo.erase member)
      (found ++ ((store.get call.cacheKey).map fun record => (member, record)).toList))
  | .completing response todo saved =>
    let (ok, store) := completeScript call.cacheKey pending (.complete call.fingerprint response) store
    (store, config.completed response (todo.erase member) (if ok then saved + 1 else saved))
  | .releasing response todo =>
    (releaseScript call.cacheKey pending store, released response (todo.erase member))
  | phase => (store, phase)

end Calls

section System

/-- `stores` are those of the members. -/
structure World where
  stores : ℕ → Store := fun _ => .empty
  calls : List Call := []
  successes : List Success := []

/-- `finish` is the end of a response that the handler does not give to `res.send`; `close` is the end
of its connection. -/
inductive Move
  | request (request : Request)
  | answer (i member : ℕ) (elapsed : ℚ)
  | resume (i : ℕ)
  | send (i : ℕ) (response : Response)
  | finish (i : ℕ) (status : ℕ)
  | close (i : ℕ)
  | closeAnswer (i member : ℕ)

variable (host : Host) (config : Config) (w : World)

namespace World

def setCall (i : ℕ) (call : Call) : World := { w with calls := w.calls.set i call }

def setStore (member : ℕ) (store : Store) : World :=
  { w with stores := Function.update w.stores member store }

/-- The cache in memory answers at once. -/
def claim (call : Call) : World :=
  match (w.stores 0).get call.cacheKey with
  | some existing =>
    { w with calls := w.calls ++ [{ call with phase := .answered (existing.outcome call.fingerprint) }] }
  | none =>
    if 1000 ≤ (w.stores 0).size then
      { w with calls := w.calls ++
        [{ call with phase := .answered (.rejected (unavailable "Idempotency cache is full")) }] }
    else
      let store := (w.stores 0).set call.cacheKey (call.pending w.calls.length)
      { w.setStore 0 store with calls := w.calls ++ [{ call with phase := .handling }] }

def request (request : Request) : World :=
  match admission host config request with
  | .claims cacheKey =>
    let call : Call := {
      cacheKey
      fingerprint := requestFingerprint host request
      phase := .locking 0 config.members [] }
    if config.clients = 0 then w.claim call else { w with calls := w.calls ++ [call] }
  | _ => w

def answer (i member : ℕ) (elapsed : ℚ) : World :=
  match w.calls[i]? with
  | none => w
  | some call =>
    if member ∈ call.phase.todo then
      let (store, phase) := call.command config i member elapsed (w.stores member)
      (w.setStore member store).setCall i { call with phase }
    else w

/-- A request whose handler is done waits for the stores, or for nothing where the store is in memory. -/
def settle (i : ℕ) (call : Call) (phase : Phase) : World :=
  let next := w.setCall i { call with phase }
  if config.clients = 0 then next.answer config i 0 0 else next

def succeed (i : ℕ) (call : Call) (response : Option Response) : World :=
  { w with successes := w.successes ++
    [⟨i, call.cacheKey, call.fingerprint, w.calls.length, response⟩] }

def send (i : ℕ) (response : Response) : World :=
  match w.calls[i]? with
  | none => w
  | some call =>
    if call.phase = .handling then
      if isSuccess response.status then
        (w.succeed i call (some response)).settle config i call (.completing response config.members 0)
      else w.settle config i call (.releasing response config.members)
    else w

def finish (i status : ℕ) : World :=
  match w.calls[i]? with
  | none => w
  | some call =>
    if call.phase = .handling then
      let next := if isSuccess status then w.succeed i call none else w
      next.setCall i { call with phase := .ended status }
    else w

def release (i : ℕ) (call : Call) (member : ℕ) : World :=
  w.setStore member (releaseScript call.cacheKey (call.pending i) (w.stores member))

def abandon (i : ℕ) (call : Call) : World :=
  if config.clients = 0 then
    (w.release i call 0).setCall i { call with closed := true, abandoned := true }
  else w.setCall i { call with closed := true, abandoned := true, closing := config.members }

/-- The end of the connection releases the key of a request that has not given `res.send` its response;
before the handler is called nobody listens for it. -/
def close (i : ℕ) : World :=
  match w.calls[i]? with
  | none => w
  | some call =>
    if call.closed then w
    else
      match call.phase with
      | .handling | .ended _ => w.abandon config i call
      | _ => w.setCall i { call with closed := true }

def closeAnswer (i member : ℕ) : World :=
  match w.calls[i]? with
  | none => w
  | some call =>
    if member ∈ call.closing then
      (w.release i call member).setCall i { call with closing := call.closing.erase member }
    else w

end World

def step (move : Move) (w : World) : World :=
  match move with
  | .request request => w.request host config request
  | .answer i member elapsed => w.answer config i member elapsed
  | .resume i =>
    match w.calls[i]? with
    | none => w
    | some call =>
      match call.phase with
      | .waiting attempt => w.setCall i { call with phase := .locking (attempt + 1) config.members [] }
      | _ => w
  | .send i response => w.send config i response
  | .finish i status => w.finish i status
  | .close i => w.close config i
  | .closeAnswer i member => w.closeAnswer i member

end System

end StellarTags.Middleware.Idempotency
