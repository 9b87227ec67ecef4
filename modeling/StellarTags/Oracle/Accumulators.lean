import StellarTags.Library.Sequences
import StellarTags.Oracle.Breaker

/-! The retained observations and their logarithms, link by link, whether kept or rebuilt. -/

namespace StellarTags.Oracle

open Library.Transactions Library.Integers Library.Runs Library.Telescopes Soroban

/-- The second observation is one that may come right after the first. -/
structure Follows (o p : Observation) : Prop where
  spaced : o.timestamp + minIntervalSeconds ≤ p.timestamp
  accumulated : p.cumulativePrice.toNat =
    (o.cumulativePrice.toNat + o.price.toNat * (p.timestamp - o.timestamp)) % 2 ^ 256

structure Recorded (observations : List Observation) : Prop where
  short : observations.length ≤ maxObservations
  priced : ∀ o ∈ observations, 0 < o.price ∧ o.price ≤ maxPrice
  linked : observations.IsChain Follows

/-- What the logarithms grow by from one observation to the next. -/
def segment (o p : Observation) : ℤ := log2Value o.price * (p.timestamp - o.timestamp : ℕ)

/-- The logarithms go with the observations, and between any two of them add up to the segments. -/
structure Consistent (observations : List Observation) (logs : List LogObservation) : Prop where
  timestamps : logs.map LogObservation.timestamp = observations.map Observation.timestamp
  differences : ∀ i j l m, i ≤ j → logs[i]? = some l → logs[j]? = some m →
    m.cumulativeLogPrice - l.cumulativeLogPrice =
      (((steps segment observations).drop i).take (j - i)).sum

variable {observations : List Observation} {logs : List LogObservation} {o previous : Observation}
  {log : LogObservation} {pair : Pair} {price : ℤ} {timestamp n : ℕ} {s t : State} {env : Env}

section Links

lemma follows_advance (hp : 0 < o.price) (hm : o.price ≤ maxPrice)
    (h : o.timestamp + minIntervalSeconds ≤ timestamp) :
    Follows o ⟨timestamp, price, o.advance timestamp⟩ := by
  refine ⟨h, ?_⟩
  rw [Observation.advance, castUnsigned_eq hp.le (hm.trans maxPrice_le), BitVec.toNat_add,
    BitVec.toNat_mul, BitVec.toNat_ofNat, BitVec.toNat_ofNat, ← Nat.mul_mod, Nat.add_mod_mod]

lemma Recorded.append (h : Recorded observations) (hlast : observations.getLast? = some previous)
    (hf : Follows previous o) (hp : 0 < o.price) (hm : o.price ≤ maxPrice) :
    Recorded (prune (State.isFull (observations ++ [o])) (observations ++ [o])) := by
  have hlinked : (observations ++ [o]).IsChain Follows := by
    refine List.isChain_append.mpr ⟨h.linked, List.isChain_singleton _, ?_⟩
    intro q hq p hp
    rw [hlast, Option.mem_some_iff] at hq
    rw [List.head?_cons, Option.mem_some_iff] at hp
    subst hq hp
    exact hf
  have hlength := h.short
  refine ⟨?_, fun q hq => ?_, ?_⟩
  · cases hfull : State.isFull (observations ++ [o]) with
    | false =>
      have hfits := of_decide_eq_false hfull
      simpa [prune] using hfits
    | true => simpa [prune] using hlength
  · rcases List.mem_append.mp (mem_prune hq) with hq | hq
    · exact h.priced q hq
    · obtain rfl := List.mem_singleton.mp hq
      exact ⟨hp, hm⟩
  · cases State.isFull (observations ++ [o]) with
    | false => exact hlinked
    | true => exact hlinked.drop 1

end Links

section Tallies

def logTotal (entry : Observation × LogObservation) : ℤ := entry.2.cumulativeLogPrice

/-- The logarithms are the running totals of the segments. -/
structure Tallied (observations : List Observation) (logs : List LogObservation) : Prop where
  timestamps : logs.map LogObservation.timestamp = observations.map Observation.timestamp
  linked : Runs logTotal (fun a b => segment a.1 b.1) (observations.zip logs)

namespace Tallied

lemma length_eq (h : Tallied observations logs) : logs.length = observations.length := by
  simpa using congrArg List.length h.timestamps

lemma consistent (h : Tallied observations logs) : Consistent observations logs := by
  refine ⟨h.timestamps, fun i j l m hij hl hm => ?_⟩
  have hfst : (observations.zip logs).map Prod.fst = observations :=
    List.map_fst_zip h.length_eq.ge
  have hentry : ∀ (k : ℕ) (log : LogObservation), logs[k]? = some log →
      ∃ o, (observations.zip logs)[k]? = some (o, log) := by
    intro k log hk
    obtain ⟨hlt, -⟩ := List.getElem?_eq_some_iff.mp hk
    have hlt' : k < observations.length := h.length_eq ▸ hlt
    exact ⟨observations[k], by simp [List.getElem?_zip_eq_some, hk]⟩
  obtain ⟨o, ho⟩ := hentry i l hl
  obtain ⟨p, hp⟩ := hentry j m hm
  have hdifference := h.linked.difference hij ho hp
  have hsteps : steps (fun a b : Observation × LogObservation => segment a.1 b.1)
      (observations.zip logs) = steps segment observations := by
    conv_rhs => rw [← hfst, steps, ← List.map_tail, List.zipWith_map]
    rfl
  rwa [hsteps] at hdifference

lemma append (h : Tallied observations logs) (hlast : observations.getLast? = some previous)
    (hstamp : log.timestamp = o.timestamp)
    (hlog : log.cumulativeLogPrice = lastLog logs + segment previous o) :
    Tallied (observations ++ [o]) (logs ++ [log]) := by
  refine ⟨by simp [h.timestamps, hstamp], ?_⟩
  have hzip : (observations ++ [o]).zip (logs ++ [log]) = observations.zip logs ++ [(o, log)] := by
    rw [List.zip_append h.length_eq.symm]
    rfl
  rw [Runs, hzip]
  refine List.isChain_append.mpr ⟨h.linked, List.isChain_singleton _, ?_⟩
  intro a ha b hb
  rw [List.head?_cons, Option.mem_some_iff] at hb
  subst hb
  -- The last entry pairs the last observation with the last logarithm.
  obtain ⟨before, rfl⟩ := List.getLast?_eq_some_iff.mp hlast
  have hlength := h.length_eq
  obtain ⟨earlier, last, rfl⟩ : ∃ earlier last, logs = earlier ++ [last] := by
    have hne : logs ≠ [] := by
      rintro rfl
      simp at hlength
    exact ⟨logs.dropLast, logs.getLast hne, (List.dropLast_append_getLast hne).symm⟩
  have hbefore : before.length = earlier.length := by simpa using hlength.symm
  rw [List.zip_append hbefore] at ha
  simp only [List.zip_cons_cons, List.zip_nil_right, List.getLast?_append, List.getLast?_singleton,
    Option.some_or, Option.mem_some_iff] at ha
  subst ha
  simpa [logTotal, lastLog] using hlog

lemma pruned (h : Tallied observations logs) (full : Bool) :
    Tallied (prune full observations) (prune full logs) := by
  cases full with
  | false => exact h
  | true =>
    refine ⟨by simp only [prune, if_true, List.map_drop, h.timestamps], ?_⟩
    have hdrop := h.linked.drop 1
    rw [List.zip, List.drop_zipWith] at hdrop
    exact hdrop

end Tallied

end Tallies

section Rebuilding

variable {rest : List Observation} {cumulative next : ℤ}

lemma nextLog_eq (hp : 0 < previous.price) (hm : previous.price ≤ maxPrice)
    (h : nextLog cumulative previous timestamp s = .ok (next, t)) :
    next = cumulative + log2Value previous.price * (timestamp - previous.timestamp : ℕ) ∧ t = s := by
  obtain ⟨log, hlog, -, -, rfl, rfl⟩ := nextLog_ok.mp h
  rw [log2Q64_eq hp (hm.trans maxPrice_le)] at hlog
  obtain rfl := congrArg Prod.fst (Except.ok.inj hlog)
  exact ⟨rfl, rfl⟩

/-- For some 2 * 10 ^ 9 years the logarithms fit. -/
lemma nextLog_of_early (hp : 0 < previous.price) (hm : previous.price ≤ maxPrice)
    (hc : 0 ≤ cumulative) (hb : cumulative ≤ logBound * previous.timestamp)
    (ht : previous.timestamp ≤ timestamp) (he : timestamp < 2 ^ 56) :
    ∃ next, nextLog cumulative previous timestamp s = .ok (next, s) ∧ 0 ≤ next ∧
      next ≤ logBound * timestamp := by
  obtain ⟨hlow, hhigh⟩ := log2Value_bounds hp (hm.trans maxPrice_le)
  obtain ⟨hincrement, hsum, hbound⟩ := accumulator_bounded hlow hhigh hc hb ht
  have hmin : minI128 ≤ 0 := by decide
  have htime : logBound * timestamp ≤ maxI128 := by
    simp only [logBound, q64, maxI128]
    omega
  have hnext := nextLog_ok.mpr ⟨_, log2Q64_eq (s := s) hp (hm.trans maxPrice_le),
    ⟨hmin.trans hincrement, by omega⟩, ⟨hmin.trans hsum, hbound.trans htime⟩, rfl, rfl⟩
  exact ⟨_, hnext, hsum, hbound⟩

lemma rebuildLogs_tallied (hp : ∀ o ∈ previous :: rest, 0 < o.price ∧ o.price ≤ maxPrice)
    (h : rebuildLogs previous cumulative rest s = .ok (logs, t)) :
    Tallied (previous :: rest) (⟨previous.timestamp, cumulative⟩ :: logs) := by
  induction rest generalizing previous cumulative logs s t with
  | nil =>
    obtain ⟨rfl, -⟩ := Tx.pure_ok.mp h
    exact ⟨rfl, List.isChain_singleton _⟩
  | cons o rest ih =>
    rw [rebuildLogs, Tx.reject_bind_ok, Tx.bind_ok] at h
    obtain ⟨-, next, u, hnext, h⟩ := h
    obtain ⟨logs, v, hlogs, h⟩ := Tx.bind_ok.mp h
    obtain ⟨rfl, rfl⟩ := Tx.pure_ok.mp h
    obtain ⟨hprevious, hprevious'⟩ := hp previous List.mem_cons_self
    obtain ⟨rfl, -⟩ := nextLog_eq hprevious hprevious' hnext
    have hrest := ih (fun q hq => hp q (List.mem_cons_of_mem _ hq)) hlogs
    refine ⟨by simpa using hrest.timestamps, ?_⟩
    exact List.isChain_cons_cons.mpr ⟨rfl, hrest.linked⟩

/-- The logarithms are read as they are kept, and anew where none go with the observations. -/
lemma readCumulativeLogs_tallied (hp : ∀ o ∈ observations, 0 < o.price ∧ o.price ≤ maxPrice)
    (hkept : ∀ logs, s.cumulativeLogs pair = some logs → Tallied observations logs)
    (h : readCumulativeLogs pair observations s = .ok (logs, t)) : Tallied observations logs := by
  simp only [readCumulativeLogs, Tx.read_bind] at h
  cases hstored : (s.cumulativeLogs pair).filter
      (fun logs => decide (logs.length = observations.length)) with
  | some stored =>
    rw [hstored] at h
    obtain ⟨rfl, -⟩ := Tx.pure_ok.mp h
    exact hkept _ (Option.filter_eq_some_iff.mp hstored).1
  | none =>
    rw [hstored] at h
    cases observations with
    | nil =>
      obtain ⟨rfl, -⟩ := Tx.pure_ok.mp h
      exact ⟨rfl, List.isChain_nil⟩
    | cons first rest =>
      obtain ⟨logs, u, hlogs, h⟩ := Tx.bind_ok.mp h
      obtain ⟨rfl, rfl⟩ := Tx.pure_ok.mp h
      exact rebuildLogs_tallied hp hlogs

/-- For some 2 * 10 ^ 9 years the logarithms can be rebuilt, and stay small. -/
lemma rebuildLogs_ok (hp : ∀ o ∈ previous :: rest, 0 < o.price ∧ o.price ≤ maxPrice)
    (hl : (previous :: rest).IsChain Follows) (he : ∀ o ∈ previous :: rest, o.timestamp < 2 ^ 56)
    (hc : 0 ≤ cumulative) (hb : cumulative ≤ logBound * previous.timestamp) :
    ∃ logs, rebuildLogs previous cumulative rest s = .ok (logs, s) ∧
      Logged (previous :: rest) (⟨previous.timestamp, cumulative⟩ :: logs) := by
  induction rest generalizing previous cumulative with
  | nil => exact ⟨[], rfl, rfl, by simpa using ⟨hc, hb⟩⟩
  | cons o rest ih =>
    obtain ⟨hprevious, hprevious'⟩ := hp previous List.mem_cons_self
    obtain ⟨hlink, hlinks⟩ := List.isChain_cons_cons.mp hl
    have hspaced : previous.timestamp ≤ o.timestamp := (Nat.le_add_right _ _).trans hlink.spaced
    obtain ⟨next, hnext, hsum, hbound⟩ := nextLog_of_early (s := s) hprevious hprevious' hc hb hspaced
      (he o (by simp))
    obtain ⟨logs, hlogs, hlogged⟩ := ih (fun q hq => hp q (List.mem_cons_of_mem _ hq)) hlinks
      (fun q hq => he q (List.mem_cons_of_mem _ hq)) hsum hbound
    refine ⟨⟨o.timestamp, next⟩ :: logs, ?_, ?_, ?_⟩
    · rw [rebuildLogs, Tx.reject_bind_ok, Tx.bind_of_ok hnext, Tx.bind_of_ok hlogs]
      exact ⟨not_lt.mpr hspaced, rfl⟩
    · simpa using hlogged.timestamps
    · exact List.forall_mem_cons.mpr ⟨⟨hc, hb⟩, hlogged.bounded⟩

lemma readCumulativeLogs_ok (pair : Pair) (s : State) (h : Recorded observations)
    (he : ∀ o ∈ observations, o.timestamp < 2 ^ 56) :
    ∃ logs, readCumulativeLogs pair observations s = .ok (logs, s) ∧
      ((∀ stored, s.cumulativeLogs pair = some stored → Logged observations stored) →
        Logged observations logs) := by
  simp only [readCumulativeLogs, Tx.read_bind]
  cases hstored : (s.cumulativeLogs pair).filter
      (fun logs => decide (logs.length = observations.length)) with
  | some stored => exact ⟨stored, rfl, fun hkept => hkept _ (Option.filter_eq_some_iff.mp hstored).1⟩
  | none =>
    cases observations with
    | nil => exact ⟨[], rfl, fun _ => ⟨rfl, by simp⟩⟩
    | cons first rest =>
      have hzero : (0 : ℤ) ≤ logBound * first.timestamp := by
        simp only [logBound, q64]
        omega
      obtain ⟨logs, hlogs, hlogged⟩ := rebuildLogs_ok (s := s) h.priced h.linked he le_rfl hzero
      exact ⟨_, Tx.bind_of_ok hlogs, fun _ => hlogged⟩

end Rebuilding

section Runs

/-- What is stored for a pair: its history, and any logarithms that go with it. -/
structure Bookkept (pair : Pair) (s : State) : Prop where
  recorded : Recorded (s.observations pair)
  tallied : ∀ logs, s.cumulativeLogs pair = some logs → Tallied (s.observations pair) logs

/-- Storage from before there were logarithms. -/
def State.withoutLogs (s : State) : State := { s with cumulativeLogs := fun _ => none }

lemma bookkept_start (pair : Pair) : Bookkept pair {} :=
  ⟨⟨Nat.zero_le _, by simp [State.observations], List.isChain_nil⟩, by simp⟩

lemma Bookkept.withoutLogs (h : Bookkept pair s) : Bookkept pair s.withoutLogs :=
  ⟨h.recorded, by simp [State.withoutLogs]⟩

lemma Bookkept.congr (h : Bookkept pair s) (ho : t.observations pair = s.observations pair)
    (hl : t.cumulativeLogs pair = s.cumulativeLogs pair) : Bookkept pair t := by
  refine ⟨?_, fun logs hlogs => ?_⟩
  · rw [ho]
    exact h.recorded
  · rw [hl] at hlogs
    rw [ho]
    exact h.tallied logs hlogs

/-- A call leaves a pair's history as it is, or takes an observation of the pair. -/
lemma step_history (call : Call) (pair : Pair) (s : State) :
    ((step call s).observations pair = s.observations pair ∧
        (step call s).cumulativeLogs pair = s.cumulativeLogs pair) ∨
      ∃ price timestamp logs n, Admissible s call.env price timestamp ∧
        readCumulativeLogs pair (s.observations pair) s = .ok (logs, s) ∧
          Observed pair price timestamp s logs n (step call s) := by
  obtain ⟨env, op⟩ := call
  rcases step_cases ⟨env, op⟩ s with he | ⟨a, hok⟩
  · rw [he]
    exact .inl ⟨rfl, rfl⟩
  · by_cases hop : ∀ pair price timestamp, op ≠ .observe pair price timestamp
    · have hu := op.invoke_unrecorded env hop _ _ _ hok
      exact .inl ⟨hu.observations, by rw [hu.cumulativeLogs]⟩
    · push Not at hop
      obtain ⟨observed, price, timestamp, rfl⟩ := hop
      obtain ⟨n, hok, -⟩ := answering_ok.mp hok
      obtain ⟨ha, logs, hlogs, ho⟩ := observe_ok hok
      by_cases hpair : pair = observed
      · subst hpair
        exact .inr ⟨price, timestamp, logs, n, ha, hlogs, ho⟩
      · generalize step ⟨env, .observe observed price timestamp⟩ s = t at ho
        refine .inl ?_
        cases ho with
        | first => exact ⟨observations_record_ne _ _ hpair, by simp [State.record, hpair]⟩
        | tripped => exact ⟨rfl, rfl⟩
        | appended => exact ⟨observations_record_ne _ _ hpair, by simp [State.record, hpair]⟩

lemma bookkept_record (hr : Recorded (prune (State.isFull observations) observations))
    (ht : Tallied observations logs) : Bookkept pair (s.record pair observations logs) := by
  refine ⟨by rwa [observations_record], fun stored hstored => ?_⟩
  simp only [State.record, Function.update_self, Option.some.injEq] at hstored
  subst hstored
  rw [observations_record]
  exact ht.pruned _

lemma Observed.bookkept (ha : Admissible s env price timestamp) (h : Bookkept pair s)
    (hlogs : readCumulativeLogs pair (s.observations pair) s = .ok (logs, s))
    (ho : Observed pair price timestamp s logs n t) : Bookkept pair t := by
  have htallied := readCumulativeLogs_tallied h.recorded.priced h.tallied hlogs
  cases ho with
  | first empty =>
    rw [empty] at htallied
    obtain rfl := List.length_eq_zero_iff.mp htallied.length_eq
    refine bookkept_record ⟨?_, by simp [ha.positive, ha.bounded, prune, State.isFull, maxObservations], ?_⟩
      ⟨rfl, List.isChain_singleton _⟩
    · simp [prune, State.isFull, maxObservations]
    · simp [prune, State.isFull, maxObservations]
  | tripped previous last later beyond => exact ⟨h.recorded, h.tallied⟩
  | appended previous last later within log next =>
    obtain ⟨hp, hm⟩ := h.recorded.priced previous (List.mem_of_getLast? last)
    obtain ⟨rfl, -⟩ := nextLog_eq hp hm next
    exact bookkept_record
      (h.recorded.append last (follows_advance hp hm later) ha.positive ha.bounded)
      (htallied.append last rfl rfl)

lemma step_bookkept (call : Call) (h : Bookkept pair s) : Bookkept pair (step call s) := by
  rcases step_history call pair s with ⟨hobservations, hlogs⟩ | ⟨_, _, _, _, ha, hlogs, ho⟩
  · exact h.congr hobservations hlogs
  · exact ho.bookkept ha h hlogs

lemma run_bookkept (calls : List Call) (h : Bookkept pair s) : Bookkept pair (run step s calls) :=
  run_invariant (fun _ call hs _ => step_bookkept call hs) h
    (along_of_forall step (fun _ _ => trivial) _ calls)

/-- However observations and other calls follow one another, and wherever the logarithms were left
out until then, the history of a pair stays linked and its logarithms consistent with it. -/
theorem history_consistent (pair : Pair) (old : List Call) (upgraded : Bool) (calls : List Call) :
    let s := if upgraded then (after old).withoutLogs else after old
    let t := run step s calls
    Recorded (t.observations pair) ∧
      (∀ o ∈ t.observations pair, log2Q64 o.price t = .ok (log2Value o.price, t)) ∧
      (∀ logs, t.cumulativeLogs pair = some logs → Consistent (t.observations pair) logs) ∧
      (∀ logs u, readCumulativeLogs pair (t.observations pair) t = .ok (logs, u) →
        Consistent (t.observations pair) logs) ∧
      ((∀ o ∈ t.observations pair, o.timestamp < 2 ^ 56) →
        ∃ logs, readCumulativeLogs pair (t.observations pair) t = .ok (logs, t)) := by
  intro s t
  have hold : Bookkept pair (after old) := run_bookkept old (bookkept_start pair)
  have hs : Bookkept pair s := by
    cases upgraded with
    | false => exact hold
    | true => exact hold.withoutLogs
  have ht : Bookkept pair t := run_bookkept calls hs
  refine ⟨ht.recorded, fun o ho => ?_, fun logs hlogs => (ht.tallied logs hlogs).consistent,
    fun logs u hlogs => ?_, fun he => ?_⟩
  · obtain ⟨hp, hm⟩ := ht.recorded.priced o ho
    exact log2Q64_eq hp (hm.trans maxPrice_le)
  · exact (readCumulativeLogs_tallied ht.recorded.priced ht.tallied hlogs).consistent
  · obtain ⟨logs, hlogs, -⟩ := readCumulativeLogs_ok pair t ht.recorded he
    exact ⟨logs, hlogs⟩

end Runs

end StellarTags.Oracle
