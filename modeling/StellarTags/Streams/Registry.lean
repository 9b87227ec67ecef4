import StellarTags.Library.Runs
import StellarTags.Library.Subscriptions
import Mathlib.Algebra.GroupWithZero.Nat

/-! The streams of payment updates: the registry of the clients that listen, and what each is sent. -/

namespace StellarTags.Streams

open Library.Runs Library.Subscriptions

variable {α : Type}

section Model

inductive Chunk (α : Type)
  | retry
  | connected (paymentId : String)
  | snapshot (paymentId status : String) (transactionHash : Option String)
  | update (paymentId : String) (payload : α)
  | keepAlive

/-- What comes of a write to a response that is still open: it returns true, or false as the buffer is
full, or throws. -/
inductive Outcome
  | flushed
  | queued
  | threw

structure Client (α : Type) where
  paymentId : String
  /-- The response has ended or is destroyed. -/
  gone : Bool
  receivedUpdate : Bool
  /-- The chunks that were written, each with what the write returned. -/
  written : List (Chunk α × Bool)

structure State (α : Type) where
  clients : Registry String ℕ
  heartbeat : Bool
  /-- Every client there has been, by its place in the order in which they came. -/
  pool : ℕ → Option (Client α)
  next : ℕ

def init : State α := ⟨∅, false, fun _ => none, 0⟩

def topicName (paymentId : String) : String := "payment:" ++ paymentId

namespace Client

def append (chunk : Chunk α) (flushed : Bool) (client : Client α) : Client α :=
  { client with written := client.written ++ [(chunk, flushed)] }

end Client

namespace State

def put (c : ℕ) (client : Client α) (s : State α) : State α :=
  { s with pool := Function.update s.pool c (some client) }

def removeClient (c : ℕ) (client : Client α) (s : State α) : State α :=
  let topic := topicName client.paymentId
  if c ∈ members s.clients topic then
    let clients := remove topic c s.clients
    { s with clients, heartbeat := s.heartbeat && !clients.entries.isEmpty }
  else s

/-- The state after a write, and whether the chunk was written. -/
def write (c : ℕ) (client : Client α) (chunk : Chunk α) (out : Outcome) (s : State α) :
    State α × Bool :=
  if client.gone then (s.removeClient c client, false)
  else match out with
    | .flushed => (s.put c (client.append chunk true), true)
    | .queued => (s.put c (client.append chunk false), false)
    | .threw => (s.removeClient c client, false)

def addClient (paymentId : String) (gone first second : Bool) (s : State α) : State α :=
  let greeting := if gone then [] else [(.retry, first), (.connected paymentId, second)]
  { clients := add (topicName paymentId) s.next s.clients
    heartbeat := true
    pool := Function.update s.pool s.next (some ⟨paymentId, gone, false, greeting⟩)
    next := s.next + 1 }

def sendUpdate (paymentId : String) (payload : α) (outs : ℕ → Outcome) (s : State α) (c : ℕ) :
    State α :=
  match s.pool c with
  | none => s
  | some client =>
    match s.write c client (.update paymentId payload) (outs c) with
    | (s, false) => s
    | (s, true) =>
      { s with pool := Function.update s.pool c ((s.pool c).map ({ · with receivedUpdate := true })) }

def emitPaymentUpdate (paymentId : String) (payload : α) (outs : ℕ → Outcome) (s : State α) :
    State α :=
  if paymentId = "" then s
  else (members s.clients (topicName paymentId)).foldl (sendUpdate paymentId payload outs) s

structure Snapshot where
  status : String
  transactionHash : Option String

/-- The answer to the query for the last known status has come. -/
def sendSnapshot (c : ℕ) (snapshot : Option Snapshot) (out : Outcome) (s : State α) : State α :=
  match s.pool c, snapshot with
  | some client, some snapshot =>
    if client.receivedUpdate then s
    else
      let chunk := .snapshot client.paymentId snapshot.status snapshot.transactionHash
      (s.write c client chunk out).1
  | _, _ => s

def keepAlive (outs : ℕ → Outcome) (s : State α) (c : ℕ) : State α :=
  match s.pool c with
  | none => s
  | some client => (s.write c client .keepAlive (outs c)).1

def tick (outs : ℕ → Outcome) (s : State α) : State α :=
  if s.heartbeat then (all s.clients).foldl (keepAlive outs) s else s

def cleanup (c : ℕ) (s : State α) : State α :=
  match s.pool c with
  | none => s
  | some client => s.removeClient c client

/-- The response ends, or its socket is destroyed. -/
def lose (c : ℕ) (s : State α) : State α :=
  { s with pool := Function.update s.pool c ((s.pool c).map ({ · with gone := true })) }

def closeSse (s : State α) : State α :=
  { (all s.clients).foldl (fun s c => s.lose c) s with clients := ∅, heartbeat := false }

def getSseClientCount (s : State α) : ℕ := (s.clients.entries.map fun entry => entry.2.length).sum

end State

inductive Action (α : Type)
  | addClient (paymentId : String) (gone first second : Bool)
  | emitPaymentUpdate (paymentId : String) (payload : α) (outs : ℕ → Outcome)
  | snapshot (c : ℕ) (snapshot : Option State.Snapshot) (out : Outcome)
  | tick (outs : ℕ → Outcome)
  | closed (c : ℕ)
  | lost (c : ℕ)
  | closeSse

def step : Action α → State α → State α
  | .addClient paymentId gone first second, s => s.addClient paymentId gone first second
  | .emitPaymentUpdate paymentId payload outs, s => s.emitPaymentUpdate paymentId payload outs
  | .snapshot c snapshot out, s => s.sendSnapshot c snapshot out
  | .tick outs, s => s.tick outs
  | .closed c, s => s.cleanup c
  | .lost c, s => s.lose c
  | .closeSse, s => s.closeSse

end Model

section Abstract

/-- One client on its own: nothing else is registered. -/
structure Listener (α : Type) where
  client : Client α
  listening : Bool

namespace Listener

def write (chunk : Chunk α) (out : Outcome) (l : Listener α) : Listener α × Bool :=
  if l.client.gone then ({ l with listening := false }, false)
  else match out with
    | .flushed => ({ l with client := l.client.append chunk true }, true)
    | .queued => ({ l with client := l.client.append chunk false }, false)
    | .threw => ({ l with listening := false }, false)

def update (paymentId : String) (payload : α) (out : Outcome) (l : Listener α) : Listener α :=
  match l.write (.update paymentId payload) out with
  | (l, false) => l
  | (l, true) => { l with client := { l.client with receivedUpdate := true } }

def snapshot (snapshot : Option State.Snapshot) (out : Outcome) (l : Listener α) : Listener α :=
  match snapshot with
  | none => l
  | some snapshot =>
    if l.client.receivedUpdate then l
    else
      (l.write (.snapshot l.client.paymentId snapshot.status snapshot.transactionHash) out).1

def lose (l : Listener α) : Listener α := { l with client := { l.client with gone := true } }

def init (paymentId : String) (gone first second : Bool) : Listener α :=
  ⟨⟨paymentId, gone, false,
    if gone then [] else [(.retry, first), (.connected paymentId, second)]⟩, true⟩

/-- What the steps of the system are to the client with this number. -/
def step (c : ℕ) (l : Listener α) : Action α → Listener α
  | .addClient .. => l
  | .emitPaymentUpdate paymentId payload outs =>
    if paymentId ≠ "" ∧ l.listening ∧ l.client.paymentId = paymentId then
      l.update paymentId payload (outs c)
    else l
  | .snapshot c' found out => if c = c' then l.snapshot found out else l
  | .tick outs => if l.listening then (l.write .keepAlive (outs c)).1 else l
  | .closed c' => if c = c' then { l with listening := false } else l
  | .lost c' => if c = c' then l.lose else l
  | .closeSse => if l.listening then { l.lose with listening := false } else l

end Listener

end Abstract

/-- What the registry holds of a client. -/
def view (s : State α) (c : ℕ) : Option (Listener α) :=
  (s.pool c).map fun client => ⟨client, c ∈ members s.clients (topicName client.paymentId)⟩

structure Registered (s : State α) : Prop where
  sound : Sound s.clients
  heartbeat : s.heartbeat = !s.clients.entries.isEmpty
  known : ∀ k c, c ∈ members s.clients k →
    ∃ client, s.pool c = some client ∧ topicName client.paymentId = k
  pooled : ∀ c, s.pool c = none ↔ s.next ≤ c

section Steps

variable {s : State α} {c j : ℕ} {client : Client α} {chunk : Chunk α} {out : Outcome}
  {outs : ℕ → Outcome} {paymentId : String} {payload : α} {l : Listener α}

lemma topicName_injective : Function.Injective topicName := by
  intro p q h
  have hlist := congrArg String.toList h
  rw [topicName, topicName, String.toList_append, String.toList_append] at hlist
  exact String.toList_injective (List.append_cancel_left hlist)

lemma registered_init : Registered (init : State α) :=
  ⟨sound_empty, rfl, fun _ _ h => absurd h List.not_mem_nil, fun _ => by simp [init]⟩

lemma view_of_pool (h : s.pool c = some client) : view s c =
    some ⟨client, c ∈ members s.clients (topicName client.paymentId)⟩ := by
  rw [view, h, Option.map_some]

/-- The view of a client depends on its entries alone. -/
lemma view_congr {t : State α} (hpool : t.pool c = s.pool c)
    (hmem : ∀ k, c ∈ members t.clients k ↔ c ∈ members s.clients k) : view t c = view s c := by
  rw [view, view, hpool]
  congr 1
  funext client
  rw [Listener.mk.injEq]
  exact ⟨rfl, decide_eq_decide.mpr (hmem _)⟩

lemma pool_of_view (h : view s c = some l) : s.pool c = some l.client ∧
    decide (c ∈ members s.clients (topicName l.client.paymentId)) = l.listening := by
  obtain ⟨client, hc, rfl⟩ := Option.map_eq_some_iff.mp h
  exact ⟨hc, rfl⟩

namespace Registered

/-- What the two halves of the registry know of a client agrees. -/
lemma mem_iff (h : Registered s) (k : String) : c ∈ members s.clients k ↔
    ∃ l, view s c = some l ∧ l.listening = true ∧ topicName l.client.paymentId = k := by
  constructor
  · intro hmem
    obtain ⟨client, hc, rfl⟩ := h.known k c hmem
    exact ⟨_, view_of_pool hc, decide_eq_true hmem, rfl⟩
  · rintro ⟨l, hl, hlistening, rfl⟩
    exact of_decide_eq_true ((pool_of_view hl).2.trans hlistening)

lemma put (h : Registered s) (client' : Client α) (hc : s.pool c = some client)
    (hid : client'.paymentId = client.paymentId) : Registered (s.put c client') ∧
      ∀ j, view (s.put c client') j = if j = c then
        some ⟨client', c ∈ members s.clients (topicName client.paymentId)⟩ else view s j := by
  refine ⟨⟨h.sound, h.heartbeat, ?_, ?_⟩, fun j => ?_⟩
  · intro k i hi
    obtain ⟨old, hold, hk⟩ := h.known k i hi
    by_cases hic : i = c
    · subst hic
      obtain rfl := Option.some.inj (hc.symm.trans hold)
      exact ⟨client', Function.update_self .., by rw [hid, hk]⟩
    · exact ⟨old, (Function.update_of_ne hic _ _).trans hold, hk⟩
  · intro i
    by_cases hic : i = c
    · subst hic
      change Function.update s.pool i _ i = none ↔ s.next ≤ i
      rw [Function.update_self, ← h.pooled, hc]
      exact iff_of_false (Option.some_ne_none _) (Option.some_ne_none _)
    · change Function.update s.pool c _ i = none ↔ s.next ≤ i
      rw [Function.update_of_ne hic]
      exact h.pooled i
  · by_cases hj : j = c
    · subst hj
      rw [if_pos rfl, ← hid]
      exact view_of_pool (Function.update_self ..)
    · rw [if_neg hj]
      exact view_congr (Function.update_of_ne hj _ _) fun _ => Iff.rfl

lemma removeClient (h : Registered s) (hc : s.pool c = some client) :
    Registered (s.removeClient c client) ∧
      ∀ j, view (s.removeClient c client) j = if j = c then some ⟨client, false⟩ else view s j := by
  rw [State.removeClient]
  by_cases hmem : c ∈ members s.clients (topicName client.paymentId)
  · rw [if_pos hmem]
    refine ⟨⟨h.sound.remove _ _, ?_, ?_, h.pooled⟩, fun j => ?_⟩
    · have hbusy : s.clients.entries.isEmpty = false := by
        rw [List.isEmpty_eq_false_iff, ne_eq, h.sound.entries_eq_nil]
        intro hnone
        exact hnone c (mem_all.mpr ⟨_, hmem⟩)
      change (s.heartbeat && _) = _
      rw [h.heartbeat, hbusy, Bool.not_false, Bool.true_and]
    · intro k i hi
      exact h.known k i (h.sound.mem_members_remove.mp hi).1
    · by_cases hj : j = c
      · subst hj
        rw [if_pos rfl]
        change Option.map _ (s.pool j) = _
        rw [hc, Option.map_some,
          decide_eq_false fun hj => (h.sound.mem_members_remove.mp hj).2 ⟨rfl, rfl⟩]
      · rw [if_neg hj]
        refine view_congr rfl fun k => h.sound.mem_members_remove.trans ?_
        exact and_iff_left fun hboth => hj hboth.2
  · rw [if_neg hmem]
    refine ⟨h, fun j => ?_⟩
    by_cases hj : j = c
    · subst hj
      rw [if_pos rfl, view_of_pool hc, decide_eq_false hmem]
    · rw [if_neg hj]

/-- A write is the client's own affair. -/
lemma write (h : Registered s) (hl : view s c = some l) (chunk : Chunk α) (out : Outcome) :
    Registered (s.write c l.client chunk out).1 ∧
      (∀ j, view (s.write c l.client chunk out).1 j =
        if j = c then some (l.write chunk out).1 else view s j) ∧
      (s.write c l.client chunk out).2 = (l.write chunk out).2 := by
  obtain ⟨hc, hlistening⟩ := pool_of_view hl
  obtain ⟨hdropped, hdropview⟩ := h.removeClient hc
  have hwritten (flushed : Bool) := h.put (l.client.append chunk flushed) hc rfl
  rw [hlistening] at hwritten
  rw [State.write.eq_def, Listener.write.eq_def]
  by_cases hgone : l.client.gone = true
  · rw [if_pos hgone, if_pos hgone]
    exact ⟨hdropped, hdropview, rfl⟩
  rw [if_neg hgone, if_neg hgone]
  cases out with
  | flushed => exact ⟨(hwritten true).1, (hwritten true).2, rfl⟩
  | queued => exact ⟨(hwritten false).1, (hwritten false).2, rfl⟩
  | threw => exact ⟨hdropped, hdropview, rfl⟩

lemma keepAlive (h : Registered s) (c : ℕ) : Registered (s.keepAlive outs c) ∧
    ∀ j, view (s.keepAlive outs c) j =
      if j = c then (view s c).map (fun l => (l.write .keepAlive (outs c)).1) else view s j := by
  rw [State.keepAlive]
  cases hc : s.pool c with
  | none =>
    refine ⟨h, fun j => ?_⟩
    by_cases hj : j = c
    · subst hj
      rw [if_pos rfl, view, hc]
      rfl
    · rw [if_neg hj]
  | some client =>
    have hl := view_of_pool hc
    obtain ⟨hnext, hview, -⟩ := h.write hl .keepAlive (outs c)
    rw [hl]
    exact ⟨hnext, hview⟩

lemma sendUpdate (h : Registered s) (c : ℕ) : Registered (s.sendUpdate paymentId payload outs c) ∧
    ∀ j, view (s.sendUpdate paymentId payload outs c) j =
      if j = c then (view s c).map (fun l => l.update paymentId payload (outs c)) else view s j := by
  rw [State.sendUpdate]
  cases hc : s.pool c with
  | none =>
    refine ⟨h, fun j => ?_⟩
    by_cases hj : j = c
    · subst hj
      rw [if_pos rfl, view, hc]
      rfl
    · rw [if_neg hj]
  | some client =>
    have hl := view_of_pool hc
    obtain ⟨hnext, hview, hflag⟩ := h.write hl (.update paymentId payload) (outs c)
    rw [hl, Option.map_some, Listener.update]
    simp only at hnext hview hflag ⊢
    generalize s.write c client (.update paymentId payload) (outs c) = r at *
    generalize Listener.write (.update paymentId payload) (outs c) _ = r' at *
    obtain ⟨t, b⟩ := r
    obtain ⟨l, b'⟩ := r'
    obtain rfl : b = b' := hflag
    cases b with
    | false => exact ⟨hnext, hview⟩
    | true =>
      have hlc : view t c = some l := (hview c).trans (if_pos rfl)
      obtain ⟨hpool, hlistening⟩ := pool_of_view hlc
      obtain ⟨hput, hputview⟩ := hnext.put { l.client with receivedUpdate := true } hpool rfl
      simp only
      rw [hpool, Option.map_some]
      refine ⟨hput, fun j => (hputview j).trans ?_⟩
      by_cases hj : j = c
      · rw [if_pos hj, if_pos hj, hlistening]
      · rw [if_neg hj, if_neg hj]
        exact (hview j).trans (if_neg hj)

lemma mem_topic (h : Registered s) (paymentId : String) :
    c ∈ members s.clients (topicName paymentId) ↔
      ∃ l, view s c = some l ∧ l.listening = true ∧ l.client.paymentId = paymentId := by
  rw [h.mem_iff]
  constructor
  · rintro ⟨l, hl, hlistening, hid⟩
    exact ⟨l, hl, hlistening, topicName_injective hid⟩
  · rintro ⟨l, hl, hlistening, rfl⟩
    exact ⟨l, hl, hlistening, rfl⟩

lemma mem_all_iff (h : Registered s) :
    c ∈ all s.clients ↔ ∃ l, view s c = some l ∧ l.listening = true := by
  rw [mem_all]
  constructor
  · rintro ⟨k, hk⟩
    obtain ⟨l, hl, hlistening, -⟩ := (h.mem_iff k).mp hk
    exact ⟨l, hl, hlistening⟩
  · rintro ⟨l, hl, hlistening⟩
    exact ⟨_, (h.mem_iff _).mpr ⟨l, hl, hlistening, rfl⟩⟩

lemma nodup_all (h : Registered s) : (all s.clients).Nodup := by
  refine h.sound.nodup_all fun c k k' hk hk' => ?_
  obtain ⟨client, hc, rfl⟩ := h.known k c hk
  obtain ⟨client', hc', rfl⟩ := h.known k' c hk'
  obtain rfl := Option.some.inj (hc.symm.trans hc')
  rfl

lemma emitPaymentUpdate (h : Registered s) :
    Registered (s.emitPaymentUpdate paymentId payload outs) ∧
      ∀ c, view (s.emitPaymentUpdate paymentId payload outs) c =
        (view s c).map fun l => l.step c (.emitPaymentUpdate paymentId payload outs) := by
  rw [State.emitPaymentUpdate]
  by_cases hempty : paymentId = ""
  · rw [if_pos hempty]
    refine ⟨h, fun c => ?_⟩
    cases view s c with
    | none => rfl
    | some l => exact (congrArg some (if_neg fun hsent => hsent.1 hempty)).symm
  · rw [if_neg hempty]
    obtain ⟨hend, hview⟩ := foldl_view Registered view (State.sendUpdate paymentId payload outs)
      (fun c l => l.map fun l => l.update paymentId payload (outs c))
      (fun _ c h => Registered.sendUpdate h c) (h.sound.nodup (topicName paymentId)) h
    refine ⟨hend, fun c => (hview c).trans ?_⟩
    by_cases hmem : c ∈ members s.clients (topicName paymentId)
    · rw [if_pos hmem]
      obtain ⟨l, hl, hlistening, hid⟩ := (h.mem_topic paymentId).mp hmem
      rw [hl]
      exact congrArg some (if_pos ⟨hempty, hlistening, hid⟩).symm
    · rw [if_neg hmem]
      cases hl : view s c with
      | none => rfl
      | some l =>
        refine (congrArg some (if_neg fun hsent => hmem ?_)).symm
        exact (h.mem_topic paymentId).mpr ⟨l, hl, hsent.2⟩

lemma tick (h : Registered s) : Registered (s.tick outs) ∧
    ∀ c, view (s.tick outs) c = (view s c).map fun l => l.step c (.tick outs) := by
  rw [State.tick]
  by_cases hbeat : s.heartbeat = true
  · rw [if_pos hbeat]
    obtain ⟨hend, hview⟩ := foldl_view Registered view (State.keepAlive outs)
      (fun c l => l.map fun l => (l.write .keepAlive (outs c)).1)
      (fun _ c h => Registered.keepAlive h c) h.nodup_all h
    refine ⟨hend, fun c => (hview c).trans ?_⟩
    by_cases hmem : c ∈ all s.clients
    · rw [if_pos hmem]
      obtain ⟨l, hl, hlistening⟩ := h.mem_all_iff.mp hmem
      rw [hl]
      exact congrArg some (if_pos hlistening).symm
    · rw [if_neg hmem]
      cases hl : view s c with
      | none => rfl
      | some l => exact (congrArg some (if_neg fun hlistening => hmem (h.mem_all_iff.mpr ⟨l, hl, hlistening⟩))).symm
  · rw [if_neg hbeat]
    refine ⟨h, fun c => ?_⟩
    cases hl : view s c with
    | none => rfl
    | some l =>
      refine (congrArg some (if_neg fun hlistening => hbeat ?_)).symm
      rw [h.heartbeat, Bool.not_eq_true', List.isEmpty_eq_false_iff, ne_eq, h.sound.entries_eq_nil]
      exact fun hnone => hnone c (h.mem_all_iff.mpr ⟨l, hl, hlistening⟩)

/-- A step that leaves the registry as it is must leave every client as it is. -/
lemma unchanged (h : Registered s) {a : Action α}
    (hsame : ∀ j l, view s j = some l → l.step j a = l) :
    Registered s ∧ ∀ j, view s j = (view s j).map fun l => l.step j a := by
  refine ⟨h, fun j => ?_⟩
  cases hl : view s j with
  | none => rfl
  | some l => exact congrArg some (hsame j l hl).symm

/-- A step that changes one client. -/
lemma changed {t : State α} {a : Action α} (ht : Registered t) (hc : view s c = some l)
    (hview : ∀ j, view t j = if j = c then some (l.step c a) else view s j)
    (hsame : ∀ j (l : Listener α), j ≠ c → l.step j a = l) :
    Registered t ∧ ∀ j, view t j = (view s j).map fun l => l.step j a := by
  refine ⟨ht, fun j => (hview j).trans ?_⟩
  by_cases hj : j = c
  · subst hj
    rw [if_pos rfl, hc, Option.map_some]
  · rw [if_neg hj]
    cases view s j with
    | none => rfl
    | some l => exact congrArg some (hsame j l hj).symm

lemma sendSnapshot (h : Registered s) (found : Option State.Snapshot) :
    Registered (s.sendSnapshot c found out) ∧ ∀ j, view (s.sendSnapshot c found out) j =
      (view s j).map fun l => l.step j (.snapshot c found out) := by
  rw [State.sendSnapshot.eq_def]
  cases hc : s.pool c with
  | none =>
    refine h.unchanged fun j l hl => if_neg ?_
    rintro rfl
    rw [view, hc] at hl
    cases hl
  | some client =>
    have hl := view_of_pool hc
    cases found with
    | none => exact h.unchanged fun j l _ => ite_self l
    | some found =>
      simp only
      by_cases hreceived : client.receivedUpdate = true
      · rw [if_pos hreceived]
        refine h.unchanged fun j l hl' => ?_
        by_cases hj : j = c
        · subst hj
          obtain rfl := Option.some.inj (hl.symm.trans hl')
          exact (if_pos rfl).trans (if_pos hreceived)
        · exact if_neg hj
      · rw [if_neg hreceived]
        obtain ⟨hnext, hview, -⟩ := h.write hl
          (.snapshot client.paymentId found.status found.transactionHash) out
        refine changed hnext hl (fun j => (hview j).trans ?_) fun j l hj => if_neg hj
        congr 2
        exact ((if_pos rfl).trans (if_neg hreceived)).symm

lemma cleanup (h : Registered s) : Registered (s.cleanup c) ∧
    ∀ j, view (s.cleanup c) j = (view s j).map fun l => l.step j (.closed c) := by
  rw [State.cleanup]
  cases hc : s.pool c with
  | none =>
    refine h.unchanged fun j l hl => if_neg ?_
    rintro rfl
    rw [view, hc] at hl
    cases hl
  | some client =>
    obtain ⟨hnext, hview⟩ := h.removeClient hc
    refine changed hnext (view_of_pool hc) (fun j => (hview j).trans ?_) fun j l hj => if_neg hj
    congr 2
    exact (if_pos rfl).symm

lemma lose (h : Registered s) (c : ℕ) : Registered (s.lose c) ∧ ∀ j, view (s.lose c) j =
    if j = c then (view s c).map Listener.lose else view s j := by
  cases hc : s.pool c with
  | none =>
    have hsame : s.lose c = s := by
      rw [State.lose, hc, Option.map_none, ← hc, Function.update_eq_self]
    rw [hsame]
    refine ⟨h, fun j => ?_⟩
    by_cases hj : j = c
    · subst hj
      rw [if_pos rfl, view, hc]
      rfl
    · rw [if_neg hj]
  | some client =>
    have hput : s.lose c = s.put c { client with gone := true } := by
      rw [State.lose, hc]
      rfl
    rw [hput, view_of_pool hc]
    exact h.put _ hc rfl

lemma lost (h : Registered s) : Registered (s.lose c) ∧
    ∀ j, view (s.lose c) j = (view s j).map fun l => l.step j (.lost c) := by
  obtain ⟨hnext, hview⟩ := h.lose c
  refine ⟨hnext, fun j => (hview j).trans ?_⟩
  by_cases hj : j = c
  · subst hj
    rw [if_pos rfl]
    cases view s j with
    | none => rfl
    | some l => exact congrArg some (if_pos rfl).symm
  · rw [if_neg hj]
    cases view s j with
    | none => rfl
    | some l => exact congrArg some (if_neg hj).symm

lemma closeSse (h : Registered s) : Registered s.closeSse ∧
    ∀ j, view s.closeSse j = (view s j).map fun l => l.step j .closeSse := by
  obtain ⟨hend, hview⟩ := foldl_view Registered view (fun s c => s.lose c)
    (fun _ l => l.map Listener.lose) (fun _ c h => Registered.lose h c) h.nodup_all h
  have hempty (j : ℕ) : view s.closeSse j =
      (view ((all s.clients).foldl (fun s c => s.lose c) s) j).map ({ · with listening := false }) := by
    rw [view, view, Option.map_map]
    rfl
  refine ⟨⟨sound_empty, rfl, fun _ _ hmem => absurd hmem List.not_mem_nil, hend.pooled⟩, fun j => ?_⟩
  rw [hempty, hview]
  by_cases hmem : j ∈ all s.clients
  · obtain ⟨l, hl, hlistening⟩ := h.mem_all_iff.mp hmem
    rw [if_pos hmem, hl]
    exact congrArg some (if_pos hlistening).symm
  · rw [if_neg hmem]
    cases hl : view s j with
    | none => rfl
    | some l =>
      have hidle : l.listening = false := by
        rw [← Bool.not_eq_true]
        exact fun hlistening => hmem (h.mem_all_iff.mpr ⟨l, hl, hlistening⟩)
      refine congrArg some (Eq.trans ?_ (if_neg (Bool.eq_false_iff.mp hidle)).symm)
      rw [← hidle]

lemma addClient (h : Registered s) (gone first second : Bool) :
    Registered (s.addClient paymentId gone first second) ∧
      view (s.addClient paymentId gone first second) s.next =
        some (Listener.init paymentId gone first second) ∧
      ∀ j ≠ s.next, view (s.addClient paymentId gone first second) j = view s j := by
  have hself : s.next ∈ members (s.addClient paymentId gone first second).clients
      (topicName paymentId) := mem_members_add.mpr (.inl ⟨rfl, rfl⟩)
  have hsound : Sound (s.addClient paymentId gone first second).clients := h.sound.add _ _
  refine ⟨⟨hsound, ?_, ?_, ?_⟩, ?_, ?_⟩
  · have hbusy : (s.addClient paymentId gone first second).clients.entries.isEmpty = false := by
      rw [List.isEmpty_eq_false_iff, ne_eq, hsound.entries_eq_nil]
      exact fun hnone => hnone s.next (mem_all.mpr ⟨_, hself⟩)
    rw [hbusy]
    rfl
  · intro k c hmem
    obtain ⟨rfl, rfl⟩ | hold := mem_members_add.mp hmem
    · exact ⟨_, Function.update_self .., rfl⟩
    · obtain ⟨client, hc, rfl⟩ := h.known k c hold
      refine ⟨client, (Function.update_of_ne ?_ _ _).trans hc, rfl⟩
      rintro rfl
      rw [(h.pooled _).mpr le_rfl] at hc
      cases hc
  · intro c
    change Function.update s.pool s.next _ c = none ↔ s.next < c
    by_cases hc : c = s.next
    · subst hc
      rw [Function.update_self]
      exact iff_of_false (Option.some_ne_none _) (lt_irrefl _)
    · rw [Function.update_of_ne hc, h.pooled]
      exact ⟨fun hle => lt_of_le_of_ne hle (Ne.symm hc), le_of_lt⟩
  · refine (view_of_pool (Function.update_self ..)).trans ?_
    rw [decide_eq_true hself]
    rfl
  · intro j hj
    refine view_congr (Function.update_of_ne hj _ _) fun k => mem_members_add.trans ?_
    exact or_iff_right fun hboth => hj hboth.2

end Registered

end Steps

section Runs

variable {s : State α} {ls : List (Listener α)}

/-- The clients as so many listeners, each on its own. -/
def Listeners.step (a : Action α) (ls : List (Listener α)) : List (Listener α) :=
  let ls := ls.mapIdx fun c l => l.step c a
  match a with
  | .addClient paymentId gone first second => ls ++ [.init paymentId gone first second]
  | _ => ls

structure Simulates (s : State α) (ls : List (Listener α)) : Prop where
  registered : Registered s
  view : ∀ c, view s c = ls[c]?

namespace Simulates

lemma init : Simulates (init : State α) [] := ⟨registered_init, fun _ => rfl⟩

lemma next_eq (h : Simulates s ls) : s.next = ls.length := by
  have hle (c : ℕ) : s.next ≤ c ↔ ls.length ≤ c := by
    rw [← List.getElem?_eq_none_iff, ← h.view, Streams.view, Option.map_eq_none_iff,
      h.registered.pooled]
  exact le_antisymm ((hle _).mpr le_rfl) ((hle _).mp le_rfl)

lemma step (h : Simulates s ls) (a : Action α) :
    Simulates (step a s) (Listeners.step a ls) := by
  have hmap {t : State α} (ht : Registered t ∧ ∀ c, Streams.view t c =
      (Streams.view s c).map fun l => l.step c a) :
      Simulates t (ls.mapIdx fun c l => l.step c a) := by
    refine ⟨ht.1, fun c => ?_⟩
    rw [ht.2, h.view, List.getElem?_mapIdx]
  cases a with
  | addClient paymentId gone first second =>
    obtain ⟨hnext, hnew, hold⟩ := h.registered.addClient gone first second
    have hsame : (ls.mapIdx fun c l => l.step c (.addClient paymentId gone first second)) = ls := by
      apply List.ext_getElem?
      intro c
      rw [List.getElem?_mapIdx]
      cases ls[c]? <;> rfl
    refine ⟨hnext, fun c => ?_⟩
    rw [Listeners.step, hsame]
    by_cases hc : c = s.next
    · rw [hc, h.next_eq, List.getElem?_concat_length, ← h.next_eq]
      exact hnew
    · refine (hold c hc).trans ((h.view c).trans ?_)
      rw [h.next_eq] at hc
      rcases lt_or_gt_of_ne hc with hlt | hgt
      · exact (List.getElem?_append_left hlt).symm
      · rw [List.getElem?_eq_none hgt.le, List.getElem?_eq_none]
        rw [List.length_append]
        exact hgt
  | emitPaymentUpdate paymentId payload outs => exact hmap h.registered.emitPaymentUpdate
  | snapshot c found out => exact hmap (h.registered.sendSnapshot found)
  | tick outs => exact hmap h.registered.tick
  | closed c => exact hmap h.registered.cleanup
  | lost c => exact hmap h.registered.lost
  | closeSse => exact hmap h.registered.closeSse

/-- A step of the system is, to a client there is, the client's own step. -/
lemma view_step (h : Simulates s ls) {c : ℕ} {l : Listener α} (hl : Streams.view s c = some l)
    (a : Action α) : Streams.view (Streams.step a s) c = some (l.step c a) := by
  rw [h.view] at hl
  have hmapped : (ls.mapIdx fun c l => l.step c a)[c]? = some (l.step c a) := by
    rw [List.getElem?_mapIdx, hl, Option.map_some]
  rw [(h.step a).view]
  cases a with
  | addClient => exact (List.getElem?_append_left (List.getElem?_eq_some_iff.mp hmapped).1).trans hmapped
  | _ => exact hmapped

lemma run (h : Simulates s ls) (actions : List (Action α)) :
    Simulates (run Streams.step s actions) (run Listeners.step ls actions) := by
  induction actions generalizing s ls with
  | nil => exact h
  | cons a actions ih => exact ih (h.step a)

lemma count (h : Simulates s ls) : s.getSseClientCount = ls.countP Listener.listening := by
  have hindices : (all s.clients).Perm
      ((ls.zipIdx.filter fun entry => entry.1.listening).map Prod.snd) := by
    refine (List.perm_ext_iff_of_nodup h.registered.nodup_all ?_).mpr fun c => ?_
    · have hsub : ((ls.zipIdx.filter fun entry => entry.1.listening).map Prod.snd).Sublist
          (ls.zipIdx.map Prod.snd) := List.filter_sublist.map _
      refine hsub.nodup ?_
      rw [List.zipIdx_map_snd]
      exact List.nodup_range'
    · rw [h.registered.mem_all_iff, List.mem_map]
      constructor
      · rintro ⟨l, hl, hlistening⟩
        rw [h.view] at hl
        exact ⟨(l, c), List.mem_filter.mpr ⟨List.mk_mem_zipIdx_iff_getElem?.mpr hl, hlistening⟩, rfl⟩
      · rintro ⟨⟨l, c⟩, hmem, rfl⟩
        obtain ⟨hzip, hlistening⟩ := List.mem_filter.mp hmem
        exact ⟨l, (h.view c).trans (List.mk_mem_zipIdx_iff_getElem?.mp hzip), hlistening⟩
  have hlength : s.getSseClientCount = (all s.clients).length := by
    rw [State.getSseClientCount, all, List.length_flatMap]
  rw [hlength, hindices.length_eq, List.length_map, ← List.countP_eq_length_filter]
  conv_rhs => rw [← List.zipIdx_map_fst 0 ls, List.countP_map]
  rfl

end Simulates

/-- The registry, with its topics, its timer and its writes to sockets in any state, is as good as so
many clients each on its own: what a client is sent and when it is dropped depends on no other. -/
theorem registry_refines (actions : List (Action α)) :
    let s := run step init actions
    let ls := run Listeners.step [] actions
    (∀ c, s.pool c = ls[c]?.map Listener.client) ∧
    (∀ k c, c ∈ members s.clients k ↔
      ∃ l, ls[c]? = some l ∧ l.listening = true ∧ topicName l.client.paymentId = k) ∧
    (∀ k is, s.clients.lookup k = some is → is ≠ [] ∧ is.Nodup) ∧
    s.heartbeat = ls.any Listener.listening ∧
    s.getSseClientCount = ls.countP Listener.listening := by
  intro s ls
  have h : Simulates s ls := Simulates.init.run actions
  refine ⟨fun c => ?_, fun k c => ?_, h.registered.sound, ?_, ?_⟩
  · rw [← h.view, view, Option.map_map]
    exact Option.map_id'.symm
  · rw [h.registered.mem_iff]
    simp only [h.view]
  · rw [h.registered.heartbeat, Bool.eq_iff_iff, Bool.not_eq_true', List.isEmpty_eq_false_iff, ne_eq,
      h.registered.sound.entries_eq_nil, List.any_eq_true, not_forall_not]
    constructor
    · rintro ⟨c, hc⟩
      obtain ⟨l, hl, hlistening⟩ := h.registered.mem_all_iff.mp hc
      exact ⟨l, List.mem_of_getElem? ((h.view c).symm.trans hl), hlistening⟩
    · rintro ⟨l, hl, hlistening⟩
      obtain ⟨c, hc⟩ := List.getElem?_of_mem hl
      exact ⟨c, h.registered.mem_all_iff.mpr ⟨l, (h.view c).trans hc, hlistening⟩⟩
  · exact h.count

end Runs

section Snapshots

variable {s : State α} {ls : List (Listener α)} {l : Listener α} {client : Client α} {c : ℕ}

/-- An update whose write returned true. -/
def FlushedUpdate : Chunk α × Bool → Prop
  | (.update .., true) => True
  | _ => False

def IsSnapshot : Chunk α × Bool → Prop
  | (.snapshot .., _) => True
  | _ => False

/-- The mark tells whether an update was flushed, and no snapshot comes after one. -/
structure Fresh (client : Client α) : Prop where
  marked : client.receivedUpdate = true ↔ ∃ e ∈ client.written, FlushedUpdate e
  ordered : client.written.Pairwise fun earlier later => FlushedUpdate earlier → ¬ IsSnapshot later

namespace Fresh

lemma append {chunk : Chunk α} {flushed : Bool} (h : Fresh client)
    (hupdate : ¬ FlushedUpdate (chunk, flushed))
    (hsnapshot : IsSnapshot (chunk, flushed) → client.receivedUpdate = false) :
    Fresh (client.append chunk flushed) := by
  refine ⟨h.marked.trans ?_, List.pairwise_append.mpr ⟨h.ordered, List.pairwise_singleton _ _, ?_⟩⟩
  · constructor
    · rintro ⟨e, he, hflushed⟩
      exact ⟨e, List.mem_append_left _ he, hflushed⟩
    · rintro ⟨e, he, hflushed⟩
      obtain he | he := List.mem_append.mp he
      · exact ⟨e, he, hflushed⟩
      · exact absurd (List.mem_singleton.mp he ▸ hflushed) hupdate
  · intro earlier hearlier later hlater hflushed hsnap
    obtain rfl := List.mem_singleton.mp hlater
    have hmark := h.marked.mpr ⟨earlier, hearlier, hflushed⟩
    rw [hsnapshot hsnap] at hmark
    cases hmark

lemma flushed (h : Fresh client) (paymentId : String) (payload : α) :
    Fresh { client.append (.update paymentId payload) true with receivedUpdate := true } := by
  refine ⟨iff_of_true rfl ⟨_, List.mem_append_right _ List.mem_cons_self, trivial⟩, ?_⟩
  refine List.pairwise_append.mpr ⟨h.ordered, List.pairwise_singleton _ _, ?_⟩
  intro earlier _ later hlater _ hsnap
  rw [List.mem_singleton.mp hlater] at hsnap
  exact hsnap

lemma write {chunk : Chunk α} (h : Fresh l.client) (out : Outcome)
    (hupdate : ∀ flushed, ¬ FlushedUpdate (chunk, flushed))
    (hsnapshot : ∀ flushed, IsSnapshot (chunk, flushed) → l.client.receivedUpdate = false) :
    Fresh (l.write chunk out).1.client := by
  rw [Listener.write.eq_def]
  by_cases hgone : l.client.gone = true
  · rw [if_pos hgone]
    exact h
  rw [if_neg hgone]
  cases out with
  | flushed => exact h.append (hupdate true) (hsnapshot true)
  | queued => exact h.append (hupdate false) (hsnapshot false)
  | threw => exact h

lemma update (h : Fresh l.client) (paymentId : String) (payload : α) (out : Outcome) :
    Fresh (l.update paymentId payload out).client := by
  rw [Listener.update, Listener.write.eq_def]
  by_cases hgone : l.client.gone = true
  · rw [if_pos hgone]
    exact h
  rw [if_neg hgone]
  cases out with
  | flushed => exact h.flushed paymentId payload
  | queued => exact h.append not_false fun hsnap => hsnap.elim
  | threw => exact h

lemma snapshot (h : Fresh l.client) (found : Option State.Snapshot) (out : Outcome) :
    Fresh (l.snapshot found out).client := by
  rw [Listener.snapshot.eq_def]
  cases found with
  | none => exact h
  | some found =>
    simp only
    by_cases hreceived : l.client.receivedUpdate = true
    · rw [if_pos hreceived]
      exact h
    · rw [if_neg hreceived]
      exact h.write out (fun _ => not_false) fun _ _ => Bool.eq_false_iff.mpr hreceived

lemma step (h : Fresh l.client) (a : Action α) : Fresh (l.step c a).client := by
  cases a with
  | addClient => exact h
  | emitPaymentUpdate paymentId payload outs =>
    rw [Listener.step]
    split_ifs
    · exact h.update paymentId payload (outs c)
    · exact h
  | snapshot c' found out =>
    rw [Listener.step]
    split_ifs
    · exact h.snapshot found out
    · exact h
  | tick outs =>
    rw [Listener.step]
    split_ifs
    · exact h.write (outs c) (fun _ => not_false) fun _ hsnap => hsnap.elim
    · exact h
  | closed c' =>
    rw [Listener.step]
    split_ifs
    · exact h
    · exact h
  | lost c' =>
    rw [Listener.step]
    split_ifs
    · exact ⟨h.marked, h.ordered⟩
    · exact h
  | closeSse =>
    rw [Listener.step]
    split_ifs
    · exact ⟨h.marked, h.ordered⟩
    · exact h

lemma init (paymentId : String) (gone first second : Bool) :
    Fresh (Listener.init (α := α) paymentId gone first second).client := by
  cases gone with
  | true => exact ⟨by simp [Listener.init], List.Pairwise.nil⟩
  | false =>
    refine ⟨?_, ?_⟩
    · simp [Listener.init, FlushedUpdate]
    · simp [Listener.init, IsSnapshot]

end Fresh

lemma listeners_fresh (h : ∀ l ∈ ls, Fresh l.client) (a : Action α) :
    ∀ l ∈ Listeners.step a ls, Fresh l.client := by
  have hmapped : ∀ l ∈ ls.mapIdx fun c l => l.step c a, Fresh l.client := by
    intro l hl
    obtain ⟨c, hc, rfl⟩ := List.mem_mapIdx.mp hl
    exact (h _ (List.getElem_mem hc)).step a
  cases a with
  | addClient paymentId gone first second =>
    intro l hl
    obtain hl | hl := List.mem_append.mp hl
    · exact hmapped l hl
    · rw [List.mem_singleton.mp hl]
      exact Fresh.init paymentId gone first second
  | _ => exact hmapped

lemma listeners_run_fresh (actions : List (Action α)) :
    ∀ l ∈ run Listeners.step [] actions, Fresh l.client := by
  have hstep (ls : List (Listener α)) (a : Action α) (hs : ∀ l ∈ ls, Fresh l.client) (_ : True) :
      ∀ l ∈ Listeners.step a ls, Fresh l.client := listeners_fresh hs a
  have hinit : ∀ l ∈ ([] : List (Listener α)), Fresh l.client := fun l hl => by cases hl
  exact run_invariant hstep hinit (along_of_forall _ (fun _ _ => trivial) _ actions)

/-- A snapshot never follows an update that found room in the buffer. One that did not is on its way
all the same, but the mark misses it: the snapshot, older, is sent after it. -/
theorem snapshot_order (actions : List (Action α)) (c : ℕ) (client : Client α)
    (hc : (run step init actions).pool c = some client) :
    (client.receivedUpdate = true ↔ ∃ e ∈ client.written, FlushedUpdate e) ∧
    (client.written.Pairwise fun earlier later => FlushedUpdate earlier → ¬ IsSnapshot later) ∧
    ∀ payload (found : State.Snapshot),
      c ∈ all (run step init actions).clients → client.gone = false →
      client.receivedUpdate = false → client.paymentId ≠ "" →
      ∃ client', (run step init (actions ++
          [.emitPaymentUpdate client.paymentId payload fun _ => .queued,
            .snapshot c (some found) .flushed])).pool c = some client' ∧
        client'.written = client.written ++ [(.update client.paymentId payload, false),
          (.snapshot client.paymentId found.status found.transactionHash, true)] := by
  have h : Simulates (run step init actions) (run Listeners.step [] actions) :=
    Simulates.init.run actions
  obtain ⟨l, hl, rfl⟩ : ∃ l, view (run step init actions) c = some l ∧ l.client = client :=
    ⟨_, view_of_pool hc, rfl⟩
  have hf := listeners_run_fresh actions l (List.mem_of_getElem? ((h.view c).symm.trans hl))
  refine ⟨hf.marked, hf.ordered, fun payload found hmem hopen hmark hid => ?_⟩
  obtain ⟨l', hl', hlistening⟩ := h.registered.mem_all_iff.mp hmem
  obtain rfl := Option.some.inj (hl.symm.trans hl')
  have hid' : l.client.paymentId ≠ "" ∧ l.listening = true ∧ l.client.paymentId = l.client.paymentId :=
    ⟨hid, hlistening, rfl⟩
  have hqueued : l.step c (.emitPaymentUpdate l.client.paymentId payload fun _ => .queued) =
      { l with client := l.client.append (.update l.client.paymentId payload) false } := by
    rw [Listener.step, if_pos hid', Listener.update, Listener.write.eq_def, hopen,
      if_neg Bool.false_ne_true]
  have hsent := (h.step (.emitPaymentUpdate l.client.paymentId payload fun _ => .queued)).view_step
    (h.view_step hl _) (.snapshot c (some found) .flushed)
  have hsnapshot (l : Listener α) (hopen : l.client.gone = false)
      (hmark : l.client.receivedUpdate = false) :
      l.step c (.snapshot c (some found) .flushed) =
        ⟨l.client.append (.snapshot l.client.paymentId found.status found.transactionHash) true,
          l.listening⟩ := by
    rw [Listener.step, if_pos rfl, Listener.snapshot, hmark, if_neg Bool.false_ne_true,
      Listener.write.eq_def, hopen, if_neg Bool.false_ne_true]
  rw [hqueued, hsnapshot ⟨l.client.append (.update l.client.paymentId payload) false, l.listening⟩
    hopen hmark] at hsent
  rw [run_append]
  exact ⟨_, (pool_of_view hsent).1, List.append_assoc ..⟩

theorem snapshot_order_sample :
    ∃ client : Client Unit, (run step init [.addClient "p" false true true,
        .emitPaymentUpdate "p" () fun _ => .queued,
        .snapshot 0 (some ⟨"PENDING", none⟩) .flushed]).pool 0 = some client ∧
      client.written = [(.retry, true), (.connected "p", true), (.update "p" (), false),
        (.snapshot "p" "PENDING" none, true)] :=
  (snapshot_order [.addClient "p" false true true] 0 _ rfl).2.2 () ⟨"PENDING", none⟩
    (mem_all.mpr ⟨topicName "p", List.mem_cons_self⟩) rfl rfl (by decide)

end Snapshots

end StellarTags.Streams
