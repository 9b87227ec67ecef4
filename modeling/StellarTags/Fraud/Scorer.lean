import StellarTags.Library.RecencyMaps
import StellarTags.Library.Runs
import Mathlib.Data.List.Induction

/-! The scorer of payments: what it remembers of amounts and senders, and what a score is made of. -/

namespace StellarTags.Fraud

open Library.RecencyMaps Library.Runs

section Model

/-- A payment of the stream; an amount is whatever stands there. -/
structure Payment (A : Type) where
  sender : Option String
  recipient : Option String
  amount : A
  eventId : Option String
  transactionHash : Option String

/-- Scores are computed with floating-point numbers: `magnitude` reads an amount, and `signal` weighs it
against the amounts that are kept and the number of the sender's payments. -/
structure Numbers (A N S : Type) where
  magnitude : A → N
  signal : List N → N → ℕ → S × String

structure Settings where
  windowSize : ℕ := 100
  maxTrackedSenders : ℕ := 10000

def BURST_WINDOW_MS : ℤ := 60000

structure Scorer (N : Type) where
  amounts : List N
  recentSenders : RecencyMap String

def createFraudScorer {N : Type} : Scorer N := ⟨[], RecencyMap.empty⟩

variable {A N S : Type} (numbers : Numbers A N S) (settings : Settings)

def Payment.source (payment : Payment A) : String :=
  match payment.sender with
  | none | some "" => "unknown"
  | some sender => sender

/-- The scorer after a payment, and its score with the reason. -/
def Scorer.score (payment : Payment A) (now : ℤ) (s : Scorer N) : Scorer N × S × String :=
  let amount := numbers.magnitude payment.amount
  let recent := s.recentSenders.recent BURST_WINDOW_MS now payment.source ++ [now]
  let recentSenders :=
    s.recentSenders.use settings.maxTrackedSenders BURST_WINDOW_MS payment.source now
  let amounts := s.amounts ++ [amount]
  let amounts := if settings.windowSize < amounts.length then amounts.tail else amounts
  (⟨amounts, recentSenders⟩, numbers.signal amounts amount recent.length)

def step (scored : Payment A × ℤ) (s : Scorer N) : Scorer N :=
  (s.score numbers settings scored.1 scored.2).1

/-- The last of a list. -/
def lastOf {α : Type} (n : ℕ) (l : List α) : List α := l.drop (l.length - n)

/-- Who paid when. -/
def historyOf (scored : List (Payment A × ℤ)) : List (String × ℤ) :=
  scored.map fun p => (p.1.source, p.2)

def magnitudes (scored : List (Payment A × ℤ)) : List N :=
  scored.map fun p => numbers.magnitude p.1.amount

/-- How many payments its sender made in the minute that ends with this one. -/
def burst (scored : List (Payment A × ℤ)) (payment : Payment A) (now : ℤ) : ℕ :=
  ((usesOf payment.source (historyOf scored)).filter (now - · < BURST_WINDOW_MS)).length + 1

end Model

section Memory

variable {A N S : Type} {numbers : Numbers A N S} {settings : Settings}
  {scored : List (Payment A × ℤ)} {s : Scorer N} {payment : Payment A} {now : ℤ}

lemma lastOf_append {α : Type} (n : ℕ) (l : List α) (a : α) :
    (if n < (lastOf n l ++ [a]).length then (lastOf n l ++ [a]).tail else lastOf n l ++ [a]) =
      lastOf n (l ++ [a]) := by
  have hdrop : lastOf n l ++ [a] = (l ++ [a]).drop (l.length - n) := by
    rw [List.drop_append_of_le_length (Nat.sub_le _ _)]
    rfl
  rw [hdrop, List.length_drop, List.length_append, List.length_singleton, lastOf, List.length_append,
    List.length_singleton]
  split_ifs with h
  · rw [List.tail_drop]
    congr 1
    omega
  · congr 1
    omega

structure Remembers (numbers : Numbers A N S) (settings : Settings) (scored : List (Payment A × ℤ))
    (s : Scorer N) : Prop where
  amounts : s.amounts = lastOf settings.windowSize (magnitudes numbers scored)
  senders : Tracks settings.maxTrackedSenders BURST_WINDOW_MS (historyOf scored) s.recentSenders

lemma Remembers.step (h : Remembers numbers settings scored s) (hnow : ∀ p ∈ scored, p.2 ≤ now) :
    Remembers numbers settings (scored ++ [(payment, now)])
      (s.score numbers settings payment now).1 := by
  refine ⟨?_, ?_⟩
  · change (if _ then _ else _) = _
    rw [magnitudes, List.map_append, ← magnitudes, h.amounts]
    exact lastOf_append ..
  · rw [historyOf, List.map_append]
    refine h.senders.use fun e he => ?_
    obtain ⟨p, hp, rfl⟩ := List.mem_map.mp he
    exact hnow p hp

lemma remembers_run (hclock : (scored.map Prod.snd).Pairwise (· ≤ ·)) :
    Remembers numbers settings scored (run (Fraud.step numbers settings) createFraudScorer scored) := by
  induction scored using List.reverseRecOn with
  | nil => exact ⟨List.drop_nil.symm, Tracks.empty⟩
  | append_singleton scored p ih =>
    rw [List.map_append, List.pairwise_append] at hclock
    obtain ⟨hbefore, -, hlast⟩ := hclock
    rw [run_append]
    exact (ih hbefore).step fun q hq => hlast q.2 (List.mem_map_of_mem hq) p.2 List.mem_cons_self

/-- While the clock does not run back: a score is made of the last amounts, this one among them, and of
the number of payments that the scorer still knows of the sender's last minute. That is never more than
there were, and all of them unless more senders paid within the minute than are tracked. -/
theorem scores_exact (numbers : Numbers A N S) (settings : Settings) (scored : List (Payment A × ℤ))
    (payment : Payment A) (now : ℤ)
    (hclock : ((scored ++ [(payment, now)]).map Prod.snd).Pairwise (· ≤ ·)) :
    let before := run (step numbers settings) createFraudScorer scored
    let after := (before.score numbers settings payment now).1
    after.recentSenders.size ≤ settings.maxTrackedSenders ∧
    after.amounts = lastOf settings.windowSize (magnitudes numbers (scored ++ [(payment, now)])) ∧
    ∃ velocity, (before.score numbers settings payment now).2 =
        numbers.signal after.amounts (numbers.magnitude payment.amount) velocity ∧
      1 ≤ velocity ∧ velocity ≤ burst scored payment now ∧
      (crowd (now - BURST_WINDOW_MS) (historyOf scored) ≤ settings.maxTrackedSenders →
        velocity = burst scored payment now) := by
  intro before after
  rw [List.map_append, List.pairwise_append] at hclock
  obtain ⟨hbefore, -, hlast⟩ := hclock
  have hnow : ∀ p ∈ scored, p.2 ≤ now := fun p hp =>
    hlast p.2 (List.mem_map_of_mem hp) now List.mem_cons_self
  have h : Remembers numbers settings scored before := remembers_run hbefore
  refine ⟨RecencyMap.size_use_le .., (h.step hnow).amounts, _, rfl, ?_, ?_, fun hcrowd => ?_⟩
  · rw [List.length_append]
    exact Nat.le_add_left ..
  · rw [List.length_append]
    exact Nat.add_le_add_right h.senders.recent_sublist.length_le 1
  · have htimes : ∀ e ∈ historyOf scored, e.2 ≤ now := by
      intro e he
      obtain ⟨p, hp, rfl⟩ := List.mem_map.mp he
      exact hnow p hp
    rw [List.length_append, h.senders.recent_eq htimes hcrowd]
    rfl

/-- Two payments of one sender, the second a second later. -/
theorem scores_exact_sample :
    let numbers : Numbers ℕ ℕ ℕ := ⟨id, fun _ _ velocity => (velocity, "")⟩
    let payment : Payment ℕ := ⟨some "a", some "b", 5, none, none⟩
    ((createFraudScorer.score numbers {} payment 0).1.score numbers {} payment 1000).2.1 = 2 := by
  intro numbers payment
  obtain ⟨-, -, velocity, hscore, -, -, hexact⟩ :=
    scores_exact numbers {} [(payment, 0)] payment 1000 (by decide)
  have hvelocity : velocity = 2 := hexact (by decide)
  exact (congrArg Prod.fst hscore).trans hvelocity

end Memory

end StellarTags.Fraud
