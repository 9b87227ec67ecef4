import Mathlib.Data.BitVec
import StellarTags.Library.StepFunctions
import StellarTags.Oracle.Calls

/-! The retained history against all the observations that were accepted. -/

namespace StellarTags.Oracle

open Library.Transactions Library.Integers Library.Runs Library.StepFunctions Soroban

def Observation.sample (o : Observation) : ℕ × ℤ := (o.timestamp, o.price)

@[simp] lemma Observation.sample_fst (o : Observation) : o.sample.1 = o.timestamp := rfl

@[simp] lemma Observation.sample_snd (o : Observation) : o.sample.2 = o.price := rfl

/-- The sample a call adds to a pair's prices: an observation that returns and does not trip the
breaker is accepted. -/
def Call.accepted (pair : Pair) (s : State) (call : Call) : List (ℕ × ℤ) :=
  match call.op with
  | .observe observed price timestamp =>
    if observed = pair ∧ Tx.succeeds (observe call.env observed price timestamp) s = true ∧
        (step call s).isCircuitBreakerTripped = false then [(timestamp, price)] else []
  | _ => []

def acceptedAlong (pair : Pair) (s : State) (calls : List Call) : List (ℕ × ℤ) :=
  trace step (Call.accepted pair) s calls

/-- The accumulator of a running total. -/
def total (n : ℤ) : U256 := BitVec.ofNat 256 n.toNat

@[simp] lemma total_zero : total 0 = 0 := rfl

lemma total_add {n m : ℤ} (hn : 0 ≤ n) (hm : 0 ≤ m) : total (n + m) = total n + total m := by
  simp only [total, Int.toNat_add hn hm, BitVec.ofNat_add]

lemma total_mul {p : ℤ} (hp : 0 ≤ p) (hm : p ≤ maxI128) (n m : ℕ) (h : n ≤ m) :
    castUnsigned p * BitVec.ofNat 256 (m - n) = total (p * (m - n)) := by
  have hd : ((m : ℤ) - n).toNat = m - n := by omega
  rw [castUnsigned_eq hp hm, ← BitVec.ofNat_mul, total,
    Int.toNat_mul hp (by omega), hd]

/-- The retained observations go with everything accepted: they are its last part, and their
accumulators differ by what the step function adds up to in between. -/
structure Records (c : U256) (samples : List (ℕ × ℤ)) (observations : List Observation) :
    Prop where
  kept : observations.map Observation.sample <:+ samples
  opened : observations = [] → samples = [] ∧ c = 0
  ordered : samples.Pairwise (·.1 < ·.1)
  priced : ∀ p ∈ samples, 0 < p.2 ∧ p.2 ≤ maxPrice
  sums : ∀ o ∈ observations, o.cumulativePrice = c + total (area 0 samples 0 o.timestamp)

lemma maxPrice_le : maxPrice ≤ maxI128 := by decide

namespace Records

variable {c : U256} {samples : List (ℕ × ℤ)} {observations : List Observation}
  {price : ℤ} {timestamp : ℕ}

lemma start : Records 0 [] [] := ⟨by simp, by simp, .nil, by simp, by simp⟩

lemma seed (o : Observation) (hp : 0 < o.price) (hm : o.price ≤ maxPrice) :
    Records o.cumulativePrice [o.sample] [o] := by
  refine ⟨by simp, by simp, List.pairwise_singleton _ _, by simpa using ⟨hp, hm⟩, ?_⟩
  have ha : area 0 [o.sample] 0 o.timestamp = 0 * ((o.timestamp : ℤ) - (0 : ℕ)) := by
    refine area_constant (Nat.zero_le _) fun x _ hx => stepAt_before ?_
    simpa using hx
  simp [ha]

lemma area_nonneg (hr : Records c samples observations) (n m : ℕ) : 0 ≤ area 0 samples n m :=
  Library.StepFunctions.area_nonneg le_rfl fun p hp => (hr.priced p hp).1.le

lemma area_le (hr : Records c samples observations) (n m : ℕ) :
    area 0 samples n m ≤ (m - n : ℕ) * maxPrice :=
  Library.StepFunctions.area_le (by decide) fun p hp => (hr.priced p hp).2

lemma sum_at (hr : Records c samples observations) {before later : List Observation}
    {base : Observation} (ho : observations = before ++ base :: later) {target : ℕ}
    (hb : base.timestamp ≤ target) (hl : ∀ o ∈ later, target ≤ o.timestamp) :
    base.cumulativePrice + castUnsigned base.price * BitVec.ofNat 256 (target - base.timestamp) =
      c + total (area 0 samples 0 target) := by
  obtain ⟨dropped, hd⟩ := hr.kept
  have hs : samples = (dropped ++ before.map Observation.sample) ++
      (base.timestamp, base.price) :: later.map Observation.sample := by
    simp [← hd, ho, Observation.sample]
  have hbase := hr.priced (base.timestamp, base.price) (by simp [hs])
  have hearlier : ∀ q ∈ dropped ++ before.map Observation.sample, q.1 ≤ base.timestamp := by
    have hp := hr.ordered
    rw [hs, List.pairwise_append] at hp
    exact fun q hq => (hp.2.2 q hq _ List.mem_cons_self).le
  have hsegment : area 0 samples base.timestamp target =
      base.price * (target - base.timestamp) := by
    rw [hs]
    refine area_between hearlier hb fun q hq => ?_
    obtain ⟨o, ho, rfl⟩ := List.mem_map.mp hq
    exact hl o ho
  have hsplit : area 0 samples 0 target =
      area 0 samples 0 base.timestamp + area 0 samples base.timestamp target :=
    area_split (Nat.zero_le _) hb
  rw [hr.sums base (by simp [ho]), total_mul hbase.1.le (hbase.2.trans maxPrice_le) _ _ hb,
    add_assoc, ← hsegment, ← total_add (hr.area_nonneg _ _) (hr.area_nonneg _ _), hsplit]

lemma mem_le_last (hr : Records c samples observations) {previous : Observation}
    (hlast : observations.getLast? = some previous) : ∀ p ∈ samples, p.1 ≤ previous.timestamp := by
  obtain ⟨before, rfl⟩ := List.getLast?_eq_some_iff.mp hlast
  obtain ⟨dropped, hd⟩ := hr.kept
  have hp := hr.ordered
  rw [← hd, List.map_append, ← List.append_assoc, List.pairwise_append] at hp
  intro p hmem
  rw [← hd, List.map_append, ← List.append_assoc, List.mem_append] at hmem
  rcases hmem with hmem | hmem
  · exact (hp.2.2 p hmem previous.sample (by simp)).le
  · simp only [List.map_cons, List.map_nil, List.mem_singleton] at hmem
    simp [hmem]

lemma pruned (hr : Records c samples observations) (full : Bool)
    (h : full = true → 1 < observations.length) : Records c samples (prune full observations) := by
  cases full with
  | false => simpa [prune] using hr
  | true =>
    have hlen := h rfl
    refine ⟨?_, fun he => ?_, hr.ordered, hr.priced, fun o ho => ?_⟩
    · exact (((List.drop_suffix 1 observations).map Observation.sample)).trans hr.kept
    · have hz : observations.length - 1 = 0 := by simpa [prune] using congrArg List.length he
      omega
    · exact hr.sums o (List.mem_of_mem_drop ho)

lemma opening (hr : Records c samples []) (hp : 0 < price) (hm : price ≤ maxPrice) :
    Records c (samples ++ [(timestamp, price)]) [⟨timestamp, price, 0⟩] := by
  obtain ⟨rfl, rfl⟩ := hr.opened rfl
  exact seed ⟨timestamp, price, 0⟩ hp hm

lemma append (hr : Records c samples observations) {previous : Observation}
    (hlast : observations.getLast? = some previous) (hlater : previous.timestamp < timestamp)
    (hp : 0 < price) (hm : price ≤ maxPrice) : Records c (samples ++ [(timestamp, price)])
      (observations ++ [⟨timestamp, price, previous.advance timestamp⟩]) := by
  have hle : ∀ p ∈ samples, p.1 < timestamp :=
    fun p hmem => (hr.mem_le_last hlast p hmem).trans_lt hlater
  have hsums : ∀ n ≤ timestamp,
      area 0 (samples ++ [(timestamp, price)]) 0 n = area 0 samples 0 n := by
    intro n hn
    exact area_append (by simpa using hn)
  refine ⟨?_, by simp, ?_, ?_, ?_⟩
  · obtain ⟨dropped, hd⟩ := hr.kept
    exact ⟨dropped, by simp [← hd, Observation.sample]⟩
  · rw [List.pairwise_append]
    exact ⟨hr.ordered, List.pairwise_singleton _ _, by simpa using fun a b hab => hle (a, b) hab⟩
  · intro p hmem
    rcases List.mem_append.mp hmem with hmem | hmem
    · exact hr.priced p hmem
    · obtain rfl := List.mem_singleton.mp hmem
      exact ⟨hp, hm⟩
  · intro o hmem
    rcases List.mem_append.mp hmem with hmem | hmem
    · have hin : o.sample ∈ samples := hr.kept.subset (List.mem_map_of_mem hmem)
      rw [hsums o.timestamp (hle _ hin).le]
      exact hr.sums o hmem
    · obtain rfl := List.mem_singleton.mp hmem
      rw [hsums _ le_rfl]
      obtain ⟨before, hb⟩ := List.getLast?_eq_some_iff.mp hlast
      exact hr.sum_at hb hlater.le (by simp)

end Records

section Runs

variable {c : U256} {pair other : Pair} {s t : State} {samples : List (ℕ × ℤ)}

@[simp] lemma isCircuitBreakerTripped_record (observations : List Observation)
    (logs : List LogObservation) : (s.record pair observations logs).isCircuitBreakerTripped =
      s.isCircuitBreakerTripped := rfl

@[simp] lemma isCircuitBreakerTripped_trip (previous price deviationBps : ℤ) :
    (s.trip previous price deviationBps).isCircuitBreakerTripped = true := rfl

@[simp] lemma observations_trip (previous price deviationBps : ℤ) :
    (s.trip previous price deviationBps).observations pair = s.observations pair := rfl

@[simp] lemma observations_record (observations : List Observation) (logs : List LogObservation) :
    (s.record pair observations logs).observations pair =
      prune (State.isFull observations) observations := by
  simp [State.observations, State.record]

lemma observations_record_ne (observations : List Observation) (logs : List LogObservation)
    (h : pair ≠ other) : (s.record other observations logs).observations pair =
      s.observations pair := by
  simp [State.observations, State.record, h]

/-- Neither the observations nor their logarithms change, and the limit stays a checked one. -/
structure Unrecorded (s t : State) : Prop where
  pair : t.pair = s.pair
  cumulativeLogs : t.cumulativeLogs = s.cumulativeLogs
  limit : s.maxSingleUpdateDevBps ≤ 10000 → t.maxSingleUpdateDevBps ≤ 10000

instance unrecordedPreorder : IsPreorder State Unrecorded where
  refl _ := ⟨rfl, rfl, id⟩
  trans _ _ _ h k :=
    ⟨k.pair.trans h.pair, k.cumulativeLogs.trans h.cumulativeLogs, k.limit ∘ h.limit⟩

lemma Unrecorded.observations (h : Unrecorded s t) : t.observations pair = s.observations pair := by
  rw [State.observations, State.observations, h.pair]

lemma answering_respects {α : Type} {R : State → State → Prop} [IsPreorder State R] {f : α → Answer}
    {m : Tx State Error α} (h : Tx.Respects R m) : Tx.Respects R (answering f m) :=
  .bind h fun _ => .pure _

lemma Unrecorded.of_reads {α : Type} {m : Tx State Error α} (h : Tx.Respects Eq m) :
    Tx.Respects Unrecorded m := by
  intro s a t hr
  obtain rfl := h s a t hr
  exact ⟨rfl, rfl, id⟩

lemma Op.invoke_unrecorded (env : Env) (op : Op) (h : ∀ pair price timestamp,
    op ≠ .observe pair price timestamp) : Tx.Respects Unrecorded (op.invoke env) := by
  cases op with
  | observe pair price timestamp => exact absurd rfl (h pair price timestamp)
  | initialise admin =>
    exact answering_respects (.bind (.demand _) fun _ => .bind (.read _) fun _ =>
      .bind (.reject _ _) fun _ => .update fun _ => ⟨rfl, rfl, id⟩)
  | setMaxStaleness pair seconds =>
    exact answering_respects (.bind (.of_reads (requireAdmin_reads env)) fun _ =>
      .update fun _ => ⟨rfl, rfl, id⟩)
  | tripCircuitBreaker =>
    exact answering_respects (.bind (.of_reads (requireAdmin_reads env)) fun _ =>
      .update fun _ => ⟨rfl, rfl, id⟩)
  | resetCircuitBreaker =>
    exact answering_respects (.bind (.of_reads (requireAdmin_reads env)) fun _ =>
      .update fun _ => ⟨rfl, rfl, id⟩)
  | setMaxSingleUpdateDevBps bps =>
    refine answering_respects (.bind (.of_reads (requireAdmin_reads env)) fun _ => ?_)
    intro s a t hr
    rw [Tx.reject_bind_ok] at hr
    obtain ⟨hbps, hr⟩ := hr
    obtain rfl := Tx.update_ok.mp hr
    exact ⟨rfl, rfl, fun _ => not_lt.mp hbps⟩
  | twap pair windowSeconds => exact answering_respects (.of_reads (twap_reads pair windowSeconds))
  | consult pair windowSeconds =>
    exact answering_respects (.of_reads (consult_reads env pair windowSeconds))

lemma Observed.records {price : ℤ} {timestamp n : ℕ} {logs : List LogObservation} {env : Env}
    (ha : Admissible s env price timestamp) (h : Observed pair price timestamp s logs n t)
    (hr : Records c samples (s.observations pair)) :
    Records c (samples ++ if t.isCircuitBreakerTripped = false then [(timestamp, price)] else [])
      (t.observations pair) := by
  cases h with
  | first empty =>
    rw [empty] at hr
    simpa [ha.untripped, prune, State.isFull, maxObservations] using
      hr.opening ha.positive ha.bounded
  | tripped previous last later beyond => simpa using hr
  | appended previous last later within log next =>
    have hlater : previous.timestamp < timestamp := by
      simp only [minIntervalSeconds] at later
      omega
    have hn := hr.append last hlater ha.positive ha.bounded
    rw [isCircuitBreakerTripped_record, if_pos ha.untripped, observations_record]
    refine hn.pruned _ fun hfull => ?_
    have hlength := of_decide_eq_true hfull
    simp only [maxObservations] at hlength
    omega

lemma step_records (call : Call) (hr : Records c samples (s.observations pair)) :
    Records c (samples ++ call.accepted pair s) ((step call s).observations pair) := by
  obtain ⟨env, op⟩ := call
  by_cases hop : ∀ observed price timestamp, op ≠ .observe observed price timestamp
  · have ha : Call.accepted pair s ⟨env, op⟩ = [] := by
      cases op with
      | observe observed price timestamp => exact absurd rfl (hop observed price timestamp)
      | _ => rfl
    rcases step_cases ⟨env, op⟩ s with he | ⟨a, hok⟩
    · simpa [he, ha] using hr
    · rw [ha, List.append_nil, (op.invoke_unrecorded env hop _ _ _ hok).observations]
      exact hr
  · push Not at hop
    obtain ⟨observed, price, timestamp, rfl⟩ := hop
    cases hok : observe env observed price timestamp s with
    | error e =>
      have he : step ⟨env, .observe observed price timestamp⟩ s = s := by
        simp [step, Tx.commit, Op.invoke, answering, bind, hok]
      have hs : Tx.succeeds (observe env observed price timestamp) s = false := by
        simp [Tx.succeeds, hok, Except.toBool]
      simpa [he, Call.accepted, hs] using hr
    | ok r =>
      obtain ⟨n, t⟩ := r
      have he : step ⟨env, .observe observed price timestamp⟩ s = t :=
        Tx.commit_ok (answering_ok.mpr ⟨n, hok, rfl⟩)
      obtain ⟨ha, logs, -, ho⟩ := observe_ok hok
      by_cases hp : observed = pair
      · subst hp
        have hn := ho.records ha hr
        simpa [Call.accepted, he, Tx.succeeds_of_ok hok] using hn
      · have hkept : t.observations pair = s.observations pair := by
          cases ho with
          | first => exact observations_record_ne _ _ (Ne.symm hp)
          | tripped => rfl
          | appended => exact observations_record_ne _ _ (Ne.symm hp)
        simpa [Call.accepted, he, hp, hkept] using hr

/-- Whatever the oracle is asked, the history goes with what was accepted. -/
lemma run_records (calls : List Call) (hr : Records c samples (s.observations pair)) :
    Records c (samples ++ acceptedAlong pair s calls) ((run step s calls).observations pair) :=
  trace_invariant (I := fun log (s : State) => Records c log (s.observations pair))
    (fun _ _ call hs => step_records call hs) hr calls

end Runs

end StellarTags.Oracle
