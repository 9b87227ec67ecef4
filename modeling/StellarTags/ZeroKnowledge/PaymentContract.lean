import StellarTags.Library.Runs
import StellarTags.ZeroKnowledge.PaymentCircuit

/-! The contract that records private payments, and what any sequence of calls leaves in it. -/

namespace StellarTags.ZeroKnowledge.Payments

open Library.Runs Library.Transactions
open Platform (Bytes Digest)

inductive Error : Type
  | notInitialized
  | malformedVerifyingKey
  | invalidProof
  | nullifierUsed
  deriving DecidableEq, Repr

/-- The host's operations on BLS12-381, which trap on points that are none. -/
structure Bls12381 where
  G1 : Type
  G2 : Type
  g1_mul : G1 → Fr → Option G1
  g1_add : G1 → G1 → Option G1
  g1_neg : G1 → Option G1
  pairing_check : List G1 → List G2 → Option Bool

structure VerificationKey (bls : Bls12381) where
  alpha : bls.G1
  beta : bls.G2
  gamma : bls.G2
  delta : bls.G2
  ic : List bls.G1

structure Proof (bls : Bls12381) where
  a : bls.G1
  b : bls.G2
  c : bls.G1

structure PaymentVerified where
  commitment : Fr
  nullifier : Fr
  deriving DecidableEq

structure State (bls : Bls12381) where
  verificationKey : Option (VerificationKey bls) := none
  nullifiers : Fr → Bool := fun _ => false
  payments : Fr → Bool := fun _ => false
  /-- The events, the newest first. -/
  published : List PaymentVerified := []

variable {bls : Bls12381}

abbrev Entry (bls : Bls12381) (α : Type) : Type := Tx (State bls) Error α

section Operations

def host {α : Type} (answer : Option α) : Entry bls α :=
  match answer with
  | some a => pure a
  | none => Tx.trap

def constructor (verification_key : VerificationKey bls) : Entry bls Unit := do
  Tx.reject (verification_key.ic.length ≠ 3) .malformedVerifyingKey
  Tx.update fun s => { s with verificationKey := some verification_key }

def pairing (verification_key : VerificationKey bls) (proof : Proof bls) (commitment nullifier : Fr) :
    Option Bool := do
  let vk_x ← verification_key.ic[0]?
  let commitment_term ← bls.g1_mul (← verification_key.ic[1]?) commitment
  let vk_x ← bls.g1_add vk_x commitment_term
  let nullifier_term ← bls.g1_mul (← verification_key.ic[2]?) nullifier
  let vk_x ← bls.g1_add vk_x nullifier_term
  let a ← bls.g1_neg proof.a
  bls.pairing_check [a, verification_key.alpha, vk_x, proof.c]
    [proof.b, verification_key.beta, verification_key.gamma, verification_key.delta]

def verify_proof (verification_key : VerificationKey bls) (proof : Proof bls)
    (commitment nullifier : Fr) : Entry bls Bool := do
  Tx.reject (verification_key.ic.length ≠ 3) .malformedVerifyingKey
  host (pairing verification_key proof commitment nullifier)

def verify (proof : Proof bls) (commitment nullifier : Fr) : Entry bls Bool := do
  let stored ← Tx.read fun s => s.verificationKey
  let verification_key ← Tx.unwrap stored .notInitialized
  verify_proof verification_key proof commitment nullifier

def submit (proof : Proof bls) (commitment nullifier : Fr) : Entry bls Unit := do
  let used ← Tx.read fun s => s.nullifiers nullifier
  Tx.reject (used = true) .nullifierUsed
  let stored ← Tx.read fun s => s.verificationKey
  let verification_key ← Tx.unwrap stored .notInitialized
  let valid ← verify_proof verification_key proof commitment nullifier
  Tx.reject (valid = false) .invalidProof
  Tx.update fun s => { s with
    nullifiers := Function.update s.nullifiers nullifier true
    payments := Function.update s.payments commitment true
    published := ⟨commitment, nullifier⟩ :: s.published }

def payment_exists (commitment : Fr) : Entry bls Bool := Tx.read fun s => s.payments commitment

def nullifier_used (nullifier : Fr) : Entry bls Bool := Tx.read fun s => s.nullifiers nullifier

inductive Call (bls : Bls12381) : Type
  | verify (proof : Proof bls) (commitment nullifier : Fr)
  | submit (proof : Proof bls) (commitment nullifier : Fr)
  | paymentExists (commitment : Fr)
  | nullifierUsed (nullifier : Fr)

def Call.entry : Call bls → Entry bls Unit
  | .verify proof commitment nullifier => Tx.void (Payments.verify proof commitment nullifier)
  | .submit proof commitment nullifier => Payments.submit proof commitment nullifier
  | .paymentExists commitment => Tx.void (payment_exists commitment)
  | .nullifierUsed nullifier => Tx.void (nullifier_used nullifier)

def step (call : Call bls) (s : State bls) : State bls := Tx.commit call.entry s

/-- The contract as it is deployed. -/
def deployed (verification_key : VerificationKey bls) : State bls :=
  Tx.commit (constructor verification_key) {}

end Operations

section Steps

variable {s t : State bls} {key : VerificationKey bls} {proof : Proof bls}
  {commitment nullifier : Fr}

def accepted (s : State bls) (commitment nullifier : Fr) : State bls :=
  { s with
    nullifiers := Function.update s.nullifiers nullifier true
    payments := Function.update s.payments commitment true
    published := ⟨commitment, nullifier⟩ :: s.published }

lemma host_ok {α : Type} {answer : Option α} {a : α} :
    (host answer : Entry bls α) s = .ok (a, t) ↔ answer = some a ∧ t = s := by
  cases answer with
  | none => simp [host]
  | some b => simp [host, eq_comm (a := a)]

lemma verify_proof_ok {b : Bool} : verify_proof key proof commitment nullifier s = .ok (b, t) ↔
    (key.ic.length = 3 ∧ pairing key proof commitment nullifier = some b) ∧ t = s := by
  rw [verify_proof, Tx.reject_bind_ok, not_not, host_ok, and_assoc]

/-- A submission is accepted exactly if its nullifier is new and its proof passes. -/
lemma submit_ok {u : Unit} : submit proof commitment nullifier s = .ok (u, t) ↔
    (s.nullifiers nullifier = false ∧ ∃ key, s.verificationKey = some key ∧ key.ic.length = 3 ∧
      pairing key proof commitment nullifier = some true) ∧ t = accepted s commitment nullifier := by
  rw [submit, Tx.read_bind, Tx.reject_bind_ok, Tx.read_bind, Tx.unwrap_bind_ok, Bool.not_eq_true,
    and_assoc]
  refine and_congr_right fun _ => ?_
  constructor
  · rintro ⟨key, hkey, h⟩
    obtain ⟨b, v, hv, hrest⟩ := Tx.bind_ok.mp h
    obtain ⟨⟨hlen, hp⟩, rfl⟩ := verify_proof_ok.mp hv
    obtain ⟨hb, ht⟩ := Tx.reject_bind_ok.mp hrest
    rw [Bool.not_eq_false] at hb
    exact ⟨⟨key, hkey, hlen, hb ▸ hp⟩, Tx.update_ok.mp ht⟩
  · rintro ⟨⟨key, hkey, hlen, hp⟩, rfl⟩
    refine ⟨key, hkey, ?_⟩
    rw [Tx.bind_of_ok (verify_proof_ok.mpr ⟨⟨hlen, hp⟩, rfl⟩), Tx.reject_bind_ok]
    exact ⟨by simp, rfl⟩

lemma step_cases (call : Call bls) (s : State bls) : step call s = s ∨
    ∃ proof commitment nullifier, call = .submit proof commitment nullifier ∧
      submit proof commitment nullifier s = .ok ((), step call s) := by
  have hread {α : Type} (m : Entry bls α) (hm : Tx.Respects (· = ·) m) :
      Tx.commit (Tx.void m) s = s := by
    rcases Tx.commit_cases (Tx.void m) s with h | ⟨_, h⟩
    · exact h
    · obtain ⟨a, ha⟩ := Tx.void_ok.mp h
      exact (hm s a _ ha).symm
  cases call with
  | verify proof commitment nullifier =>
    refine .inl (hread _ (.bind (.read _) fun _ => .bind (.unwrap _ _) fun key => ?_))
    intro s b t h
    exact (verify_proof_ok.mp h).2.symm
  | submit proof commitment nullifier =>
    rcases Tx.commit_cases (submit proof commitment nullifier) s with h | ⟨_, h⟩
    · exact .inl h
    · exact .inr ⟨proof, commitment, nullifier, rfl, h⟩
  | paymentExists commitment => exact .inl (hread _ (.read _))
  | nullifierUsed nullifier => exact .inl (hread _ (.read _))

end Steps

section Histories

variable {key : VerificationKey bls} {s : State bls} {calls : List (Call bls)}

/-- What the contract holds after the calls: the key it was deployed with, and the nullifiers and the
commitments of the events, each of which a proof of one of the calls has earned. -/
structure Recorded (key : VerificationKey bls) (calls : List (Call bls)) (s : State bls) : Prop where
  installed : s.verificationKey = some key
  once : (s.published.map (·.nullifier)).Nodup
  nullifiers : ∀ n, s.nullifiers n = true ↔ n ∈ s.published.map (·.nullifier)
  payments : ∀ c, s.payments c = true ↔ c ∈ s.published.map (·.commitment)
  proved : ∀ e ∈ s.published, ∃ proof, .submit proof e.commitment e.nullifier ∈ calls ∧
    pairing key proof e.commitment e.nullifier = some true

lemma deployed_eq (hkey : key.ic.length = 3) :
    deployed key = { verificationKey := some key } := by
  refine Tx.commit_ok (a := ()) ?_
  rw [constructor, Tx.reject_bind_ok]
  exact ⟨by simpa using hkey, rfl⟩

lemma Recorded.start (hkey : key.ic.length = 3) : Recorded key [] (deployed key) := by
  rw [deployed_eq hkey]
  exact ⟨rfl, List.nodup_nil, by simp, by simp, by simp⟩

lemma Recorded.later (h : Recorded key calls s) (call : Call bls) :
    Recorded key (calls ++ [call]) s :=
  { h with proved := fun e he => (h.proved e he).imp fun _ hp => ⟨List.mem_append_left _ hp.1, hp.2⟩ }

lemma Recorded.step (h : Recorded key calls s) (call : Call bls) :
    Recorded key (calls ++ [call]) (step call s) := by
  rcases step_cases call s with hs | ⟨proof, commitment, nullifier, rfl, hs⟩
  · rw [hs]
    exact h.later call
  · obtain ⟨⟨hnew, key', hkey', -, hp⟩, ht⟩ := submit_ok.mp hs
    obtain rfl : key' = key := Option.some.inj (hkey'.symm.trans h.installed)
    rw [ht]
    refine ⟨h.installed, ?_, fun n => ?_, fun c => ?_, fun e he => ?_⟩
    · refine List.nodup_cons.mpr ⟨fun hmem => ?_, h.once⟩
      rw [← h.nullifiers, hnew] at hmem
      exact Bool.false_ne_true hmem
    · change Function.update s.nullifiers nullifier true n = true ↔ n ∈ nullifier :: _
      by_cases hn : n = nullifier
      · simp [hn]
      · rw [Function.update_of_ne hn, h.nullifiers, List.mem_cons, or_iff_right hn]
    · change Function.update s.payments commitment true c = true ↔ c ∈ commitment :: _
      by_cases hc : c = commitment
      · simp [hc]
      · rw [Function.update_of_ne hc, h.payments, List.mem_cons, or_iff_right hc]
    · rcases List.mem_cons.mp he with rfl | he
      · exact ⟨proof, by simp, hp⟩
      · exact (h.later _).proved e he

lemma recorded_run (hkey : key.ic.length = 3) (calls : List (Call bls)) :
    Recorded key calls (run step (deployed key) calls) := by
  induction calls using List.reverseRecOn with
  | nil => exact .start hkey
  | append_singleton calls call ih =>
    rw [run_append]
    exact ih.step call

lemma host_spares {α : Type} {answer : Option α} {e : Error} :
    Tx.Spares e (host answer : Entry bls α) s := by
  cases answer with
  | none => simp [Tx.Spares, host, Tx.trap]
  | some a => exact .of_ok (r := (a, s)) rfl

lemma verify_proof_spares (hkey : key.ic.length = 3) {proof : Proof bls} {commitment nullifier : Fr}
    {e : Error} : Tx.Spares e (verify_proof key proof commitment nullifier) s :=
  .bind (.reject fun hne => absurd hkey hne) fun _ _ _ => host_spares

lemma Recorded.stored (h : Recorded key calls s) {e : Error} :
    Tx.unwrap s.verificationKey e s = .ok (key, s) := by
  rw [h.installed]
  rfl

/-- With a well-formed key in place, neither its absence nor its length is reported. -/
lemma Recorded.spares (h : Recorded key calls s) (hkey : key.ic.length = 3) (call : Call bls)
    {e : Error} (hp : e ≠ .invalidProof) (hn : e ≠ .nullifierUsed) : Tx.Spares e call.entry s := by
  have hread {α : Type} (f : State bls → α) : Tx.Spares e (Tx.read f : Entry bls α) s :=
    .of_ok (r := (f s, s)) rfl
  cases call with
  | verify proof commitment nullifier =>
    refine .bind (.bind (hread _) fun stored t ht => ?_) fun _ _ _ => .of_ok (r := ((), _)) rfl
    obtain ⟨rfl, rfl⟩ := Tx.read_ok.mp ht
    refine .bind (.of_ok h.stored) fun key' t ht => ?_
    obtain ⟨rfl, rfl⟩ := Prod.ext_iff.mp (Except.ok.inj (h.stored.symm.trans ht))
    exact verify_proof_spares hkey
  | submit proof commitment nullifier =>
    refine .bind (hread _) fun used t ht => ?_
    obtain ⟨rfl, rfl⟩ := Tx.read_ok.mp ht
    refine .bind (.reject fun _ => hn.symm) fun _ t ht => ?_
    obtain ⟨-, rfl⟩ := Tx.reject_ok.mp ht
    refine .bind (hread _) fun stored t ht => ?_
    obtain ⟨rfl, rfl⟩ := Tx.read_ok.mp ht
    refine .bind (.of_ok h.stored) fun key' t ht => ?_
    obtain ⟨rfl, rfl⟩ := Prod.ext_iff.mp (Except.ok.inj (h.stored.symm.trans ht))
    refine .bind (verify_proof_spares hkey) fun valid t _ => ?_
    exact .bind (.reject fun _ => hp.symm) fun _ t _ => .of_ok (r := ((), _)) rfl
  | paymentExists commitment => exact .bind (hread _) fun _ _ _ => .of_ok (r := ((), _)) rfl
  | nullifierUsed nullifier => exact .bind (hread _) fun _ _ _ => .of_ok (r := ((), _)) rfl

/-- After any calls, whoever made them: no nullifier has been accepted twice, a nullifier is used and
a payment exists exactly if an event says so, every event was earned by a proof for the key that the
contract was deployed with, and calls are refused for their nullifier or their proof only. -/
theorem contract_history (hkey : key.ic.length = 3) (calls : List (Call bls)) :
    Recorded key calls (run step (deployed key) calls) ∧
      ∀ (call : Call bls) (e : Error), call.entry (run step (deployed key) calls) = .error (.err e) →
        e = .invalidProof ∨ e = .nullifierUsed := by
  have h := recorded_run hkey calls
  refine ⟨h, fun call e he => ?_⟩
  by_contra hother
  rw [not_or] at hother
  exact h.spares hkey call hother.1 hother.2 he

/-- Curves of one point, where every product of pairings is one. -/
def onePoint : Bls12381 where
  G1 := Unit
  G2 := Unit
  g1_mul _ _ := some ()
  g1_add _ _ := some ()
  g1_neg _ := some ()
  pairing_check _ _ := some true

def sampleKey : VerificationKey onePoint := ⟨(), (), (), (), [(), (), ()]⟩

theorem contract_history_sample :
    Recorded sampleKey [.submit ⟨(), (), ()⟩ 5 9]
        (run step (deployed sampleKey) [.submit ⟨(), (), ()⟩ 5 9]) ∧
      ∀ (call : Call onePoint) (e : Error),
        call.entry (run step (deployed sampleKey) [.submit ⟨(), (), ()⟩ 5 9]) = .error (.err e) →
          e = .invalidProof ∨ e = .nullifierUsed :=
  contract_history rfl _

/-- If the prover finds a proof for whatever has an opening, then it is the nullifier alone that
decides: any commitment can be recorded, any number of times, as long as new nullifiers are used. -/
theorem submission_accepted_iff (sha256 : Bytes → Digest) (hkey : key.ic.length = 3)
    (hprover : ∀ amount recipient secret commitment nullifier,
      Opens sha256 amount recipient secret commitment nullifier →
        ∃ proof, pairing key proof commitment nullifier = some true)
    (calls : List (Call bls)) (commitment nullifier : Fr) :
    (∃ proof, Tx.succeeds (submit proof commitment nullifier) (run step (deployed key) calls) = true) ↔
      nullifier ∉ (run step (deployed key) calls).published.map (·.nullifier) := by
  have h := recorded_run hkey calls
  rw [← h.nullifiers, Bool.not_eq_true]
  constructor
  · rintro ⟨proof, hs⟩
    obtain ⟨t, ht⟩ := Tx.succeeds_unit.mp hs
    exact (submit_ok.mp ht).1.1
  · intro hnew
    obtain ⟨opening, ho, -⟩ := opening_unique sha256 1 commitment nullifier one_ne_zero
      (by decide +kernel)
    obtain ⟨proof, hproof⟩ := hprover _ _ _ _ _ ho
    exact ⟨proof, Tx.succeeds_unit.mpr ⟨_, submit_ok.mpr ⟨⟨hnew, key, h.installed, hkey, hproof⟩, rfl⟩⟩⟩

theorem submission_accepted_iff_sample :
    (∃ proof, Tx.succeeds (submit proof 5 7) (run step (deployed sampleKey)
      [.submit ⟨(), (), ()⟩ 5 9]) = true) ↔ 7 ∉ (run step (deployed sampleKey)
        [.submit ⟨(), (), ()⟩ 5 9]).published.map (·.nullifier) :=
  submission_accepted_iff Platform.sampleSha256 rfl (fun _ _ _ _ _ _ => ⟨⟨(), (), ()⟩, rfl⟩) _ 5 7

end Histories

end StellarTags.ZeroKnowledge.Payments
