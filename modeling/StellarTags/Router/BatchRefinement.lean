import StellarTags.Router.Gate

/-! When a batch of timelocked actions does what its actions do one by one. -/

namespace StellarTags.Router

open Library.Transactions Library.Runs Library.Tokens Soroban

def oneByOne (env : Env) (nonces : List ℕ) : List Call :=
  nonces.map fun nonce => ⟨env, .timelock (.executeAction nonce)⟩

def Succeeds (h : Host) (s : State) (call : Call) : Prop :=
  Tx.succeeds (call.op.invoke h call.env) s = true

def Sequential (h : Host) (env : Env) (nonces : List ℕ) (s t : State) : Prop :=
  Along (step h) (Succeeds h) s (oneByOne env nonces) ∧ run (step h) s (oneByOne env nonces) = t

variable {h : Host} {env : Env} {s t v : State} {nonce : ℕ} {nonces : List ℕ}

lemma sequential_cons : Sequential h env (nonce :: nonces) s t ↔
    ∃ v, executeAction h env nonce s = .ok ((), v) ∧ Sequential h env nonces v t := by
  simp only [Sequential, oneByOne, List.map_cons, along_cons, run_cons, Succeeds, Tx.succeeds,
    step, Op.invoke, TimelockOp.invoke]
  cases hr : executeAction h env nonce s with
  | ok r =>
    obtain ⟨u, v⟩ := r
    rw [Tx.commit_ok hr]
    simp [Except.toBool]
  | error e => simp [Except.toBool]

/-- The entries still to come are queued and due, and the breaker is closed. -/
structure Pending (env : Env) (s : State) (nonces : List ℕ) (entries : List TimelockEntry) :
    Prop where
  frozen : s.settings.isFrozenInternal = false
  paused : s.settings.isPausedInternal = false
  nodup : nonces.Nodup
  ripe : List.Forall₂ (fun nonce entry => s.timelock.Ripe env nonce entry ∧
    ∃ m : Multisig, m.Admits entry.action) nonces entries

namespace Pending

variable {entry : TimelockEntry} {entries : List TimelockEntry}

lemma tail (hp : Pending env s (nonce :: nonces) (entry :: entries))
    (ha : Applied h entry.action (s.dropEntry nonce) v) : Pending env v nonces entries := by
  obtain ⟨hn, hnodup⟩ := List.nodup_cons.mp hp.nodup
  refine ⟨ha.frozen.trans hp.frozen, ha.paused.trans hp.paused, hnodup, ?_⟩
  have hrest := (List.forall₂_cons.mp hp.ripe).2
  rw [List.forall₂_iff_zip] at hrest ⊢
  refine ⟨hrest.1, fun {n e} hne => ?_⟩
  obtain ⟨⟨he, hdue⟩, hm⟩ := hrest.2 hne
  have hdiff : n ≠ nonce := fun heq => hn (heq ▸ (List.of_mem_zip hne).1)
  refine ⟨⟨?_, hdue⟩, hm⟩
  rw [ha.timelock]
  simpa [State.dropEntry, hdiff] using he

lemma executeAction_iff (hp : Pending env s (nonce :: nonces) (entry :: entries)) :
    executeAction h env nonce s = .ok ((), v) ↔
      s.gate.Opens h env entry.action ∧ consumeEntry h env nonce entry s = .ok ((), v) := by
  obtain ⟨hripe, m, hm⟩ := (List.forall₂_cons.mp hp.ripe).1
  rw [executeAction_ok, consumeEntry_ok]
  constructor
  · rintro ⟨⟨-, -, hadmin⟩, other, hother, hadmits, hr⟩
    obtain rfl : entry = other := Option.some.inj (hripe.1.symm.trans hother.1)
    exact ⟨⟨hadmin, hm.transport.mp hadmits⟩, hr⟩
  · rintro ⟨⟨hadmin, hquorum⟩, hr⟩
    exact ⟨⟨hp.frozen, hp.paused, hadmin⟩, entry, hripe, hm.transport.mpr hquorum, hr⟩

lemma sequential_iff (hp : Pending env s nonces entries)
    (hr : Tx.forEach (fun item : ℕ × TimelockEntry => consumeEntry h env item.1 item.2)
      (nonces.zip entries) s = .ok ((), t)) :
    Sequential h env nonces s t ↔
      Along (Gate.apply h) (Gate.Opens h env) s.gate (entries.map TimelockEntry.action) := by
  induction nonces generalizing s entries with
  | nil =>
    cases hp.ripe
    obtain rfl := Tx.forEach_nil.mp hr
    simp [Sequential, oneByOne]
  | cons nonce nonces ih =>
    cases entries with
    | nil => cases hp.ripe
    | cons entry entries =>
      obtain ⟨v, hv, hrest⟩ := Tx.forEach_cons.mp hr
      have ha := applyAction_applied (consumeEntry_ok.mp hv)
      have htail := ih (hp.tail ha) hrest
      rw [ha.gate, gate_dropEntry] at htail
      rw [sequential_cons, List.map_cons, along_cons, ← htail]
      constructor
      · rintro ⟨w, hw, hseq⟩
        obtain ⟨hopens, hw⟩ := hp.executeAction_iff.mp hw
        obtain rfl : v = w := congrArg Prod.snd (Except.ok.inj (hv.symm.trans hw))
        exact ⟨hopens, hseq⟩
      · rintro ⟨hopens, hseq⟩
        exact ⟨v, hp.executeAction_iff.mpr ⟨hopens, hv⟩, hseq⟩

end Pending

section Examples

def queuedTransfer : List Call :=
  approvedOnce ++ [⟨adminEnv, .timelock (.queueAction (.transferAdmin ⟨2⟩))⟩,
    ⟨adminEnv, .timelock (.queueAction (.setMinLimit 5))⟩]

def batch (nonces : List ℕ) : Tx State Error Unit := executeBatchActions .sample dayLater nonces

/-- One after the other, the second action of either batch is refused. -/
def RefusedOneByOne (calls : List Call) : Prop :=
  Tx.succeeds (batch [1, 2]) (after .sample emptyLedger calls) = true ∧
    ¬ Along (step .sample) (Succeeds .sample) (after .sample emptyLedger calls)
      (oneByOne dayLater [1, 2])

end Examples

end StellarTags.Router
