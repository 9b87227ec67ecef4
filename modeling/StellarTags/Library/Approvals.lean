import Mathlib.Algebra.BigOperators.Group.Finset.Basic
import Mathlib.Algebra.Order.BigOperators.Group.Finset
import Mathlib.Data.Finset.Card
import Mathlib.Tactic
import Mathlib.Tactic.Common

/-! Approved amounts that are spent piece by piece until they run out or their time is over. -/

namespace StellarTags.Library.Approvals

structure Approval where
  amount : ℤ
  expiry : ℕ
  deriving DecidableEq, Repr

inductive Entry : Type
  | approved (a : Approval)
  | spent (time : ℕ) (n : ℤ)
  deriving DecidableEq, Repr

/-- The approval in force, and what was spent of it. -/
structure Account where
  approval : Approval
  spent : ℤ
  deriving DecidableEq, Repr

namespace Account

def fresh : Account := ⟨⟨0, 0⟩, 0⟩

def enter (acc : Account) : Entry → Account
  | .approved a => ⟨a, 0⟩
  | .spent _ n => { acc with spent := acc.spent + n }

/-- Nothing negative, nothing beyond the approval and nothing after its time. -/
def Admits (acc : Account) : Entry → Prop
  | .approved a => 0 ≤ a.amount
  | .spent time n =>
    0 ≤ n ∧ acc.spent + n ≤ acc.approval.amount ∧ (0 < n → time ≤ acc.approval.expiry)

def remaining (acc : Account) : ℤ := acc.approval.amount - acc.spent

def available (acc : Account) (now : ℕ) : ℤ :=
  if acc.approval.expiry < now then 0 else acc.remaining

end Account

def account (log : List Entry) : Account := log.foldl Account.enter .fresh

/-- Every entry was admissible when it was made. -/
def Lawful (log : List Entry) : Prop :=
  ∀ before entry later, log = before ++ entry :: later → (account before).Admits entry

variable {log : List Entry} {entry : Entry}

@[simp] lemma account_append (log : List Entry) (entry : Entry) :
    account (log ++ [entry]) = (account log).enter entry := by
  simp [account]

lemma Lawful.nil : Lawful [] := by
  intro before entry later h
  simp at h

lemma Lawful.append (h : Lawful log) (he : (account log).Admits entry) : Lawful (log ++ [entry]) := by
  intro before e later heq
  induction later using List.reverseRecOn with
  | nil =>
    obtain ⟨rfl, hcons⟩ := List.append_inj' heq rfl
    obtain rfl : entry = e := by simpa using hcons
    exact he
  | append_singleton later x _ =>
    rw [← List.cons_append, ← List.append_assoc] at heq
    obtain ⟨hlog, -⟩ := List.append_inj' heq rfl
    exact h before e later hlog

lemma Lawful.of_append {later : List Entry} (h : Lawful (log ++ later)) : Lawful log := by
  intro before entry rest heq
  refine h before entry (rest ++ later) ?_
  rw [heq]
  simp

lemma Lawful.spent_le (h : Lawful log) :
    0 ≤ (account log).spent ∧ (account log).spent ≤ (account log).approval.amount := by
  induction log using List.reverseRecOn with
  | nil => exact ⟨le_rfl, le_rfl⟩
  | append_singleton log entry ih =>
    obtain ⟨hl, -⟩ := ih h.of_append
    have hentry := h log entry [] rfl
    rw [account_append]
    cases entry with
    | approved a => exact ⟨le_rfl, hentry⟩
    | spent time n => exact ⟨add_nonneg hl hentry.1, hentry.2.1⟩

end StellarTags.Library.Approvals

/-! Approvals cast for an item, withdrawn by their caster or cleared for everyone. -/

namespace StellarTags.Library.Ballots

variable {A X : Type}

inductive Ballot (A X : Type) : Type
  | cast (voter : A) (item : X)
  | withdraw (voter : A) (item : X)
  | clear (item : X)
  deriving DecidableEq, Repr

/-- In a log with its newest entry first, `a`'s approval of `x` was neither withdrawn nor
cleared since it was last cast. -/
def Standing (log : List (Ballot A X)) (a : A) (x : X) : Prop :=
  ∃ newer older, log = newer ++ .cast a x :: older ∧
    .withdraw a x ∉ newer ∧ .clear x ∉ newer

@[simp] lemma standing_nil (a : A) (x : X) : ¬ Standing ([] : List (Ballot A X)) a x := by
  rintro ⟨newer, older, h, -⟩
  simp at h

lemma standing_cons (b : Ballot A X) (log : List (Ballot A X)) (a : A) (x : X) :
    Standing (b :: log) a x ↔
      b = .cast a x ∨ (b ≠ .withdraw a x ∧ b ≠ .clear x ∧ Standing log a x) := by
  constructor
  · rintro ⟨newer, older, h, hw, hc⟩
    cases newer with
    | nil => exact Or.inl (List.cons.inj h).1
    | cons c newer =>
      obtain ⟨rfl, rfl⟩ := List.cons.inj h
      simp only [List.mem_cons, not_or] at hw hc
      exact Or.inr ⟨fun he => hw.1 he.symm, fun he => hc.1 he.symm, newer, older, rfl, hw.2, hc.2⟩
  · rintro (rfl | ⟨hw, hc, newer, older, rfl, hw', hc'⟩)
    · exact ⟨[], log, rfl, by simp, by simp⟩
    · refine ⟨b :: newer, older, rfl, ?_, ?_⟩
      · simpa [hw'] using hw.symm
      · simpa [hc'] using hc.symm

@[simp] lemma standing_cast (b a : A) (y x : X) (log : List (Ballot A X)) :
    Standing (.cast b y :: log) a x ↔ (b = a ∧ y = x) ∨ Standing log a x := by
  simp [standing_cons]

@[simp] lemma standing_withdraw (b a : A) (y x : X) (log : List (Ballot A X)) :
    Standing (.withdraw b y :: log) a x ↔ ¬ (b = a ∧ y = x) ∧ Standing log a x := by
  simp [standing_cons]

@[simp] lemma standing_clear (a : A) (y x : X) (log : List (Ballot A X)) :
    Standing (.clear y :: log) a x ↔ y ≠ x ∧ Standing log a x := by
  simp [standing_cons]

/-- At least `threshold` distinct members support the decision. -/
def Quorum (members : List A) (threshold : ℕ) (support : A → Prop) : Prop :=
  ∃ voters : List A, voters.Nodup ∧ threshold ≤ voters.length ∧
    ∀ a ∈ voters, a ∈ members ∧ support a

/-- `stored` lists, without repetition, whoever's approval of `x` stands. -/
structure Records (stored : List A) (log : List (Ballot A X)) (x : X) : Prop where
  nodup : stored.Nodup
  mem_iff : ∀ a, a ∈ stored ↔ Standing log a x

namespace Records

variable {stored : List A} {log : List (Ballot A X)} {x y : X} {a : A}

lemma start : Records ([] : List A) ([] : List (Ballot A X)) x := ⟨by simp, by simp⟩

lemma cast (h : Records stored log x) (ha : a ∉ stored) :
    Records (stored ++ [a]) (.cast a x :: log) x := by
  refine ⟨?_, ?_⟩
  · rw [List.nodup_append]
    refine ⟨h.nodup, by simp, ?_⟩
    rintro b hb c hc rfl
    rw [List.mem_singleton] at hc
    exact ha (hc ▸ hb)
  · intro b
    simp [h.mem_iff, or_comm, eq_comm]

lemma cast_other (h : Records stored log x) (hy : y ≠ x) :
    Records stored (.cast a y :: log) x :=
  ⟨h.nodup, fun b => by simp [h.mem_iff, hy]⟩

lemma withdraw [DecidableEq A] (h : Records stored log x) :
    Records (stored.erase a) (.withdraw a x :: log) x := by
  refine ⟨h.nodup.erase a, fun b => ?_⟩
  rw [h.nodup.mem_erase_iff, h.mem_iff]
  simp [eq_comm]

lemma withdraw_other (h : Records stored log x) (hy : y ≠ x) :
    Records stored (.withdraw a y :: log) x :=
  ⟨h.nodup, fun b => by simp [h.mem_iff, hy]⟩

lemma clear : Records ([] : List A) (.clear x :: log) x := ⟨by simp, by simp⟩

lemma clear_other (h : Records stored log x) (hy : y ≠ x) :
    Records stored (.clear y :: log) x :=
  ⟨h.nodup, fun b => by simp [h.mem_iff, hy]⟩

lemma quorum [DecidableEq A] (h : Records stored log x) {members : List A} {threshold : ℕ}
    (ht : threshold ≤ (stored.filter (· ∈ members)).length) :
    Quorum members threshold (Standing log · x) := by
  refine ⟨stored.filter (· ∈ members), h.nodup.filter _, ht, ?_⟩
  intro a ha
  obtain ⟨hs, hm⟩ := List.mem_filter.mp ha
  exact ⟨by simpa using hm, (h.mem_iff a).mp hs⟩

end Records

end StellarTags.Library.Ballots

/-! Enough of the members: most of them, or signers of some weight. -/

namespace StellarTags.Library

variable {α : Type} {members : List α} {P Q : α → Prop}

def Majority (members : List α) (P : α → Prop) : Prop :=
  ∃ held : List α, held.Nodup ∧ held ⊆ members ∧ members.length / 2 + 1 ≤ held.length ∧ ∀ a ∈ held, P a

lemma Majority.mono (h : Majority members P) (hpq : ∀ a ∈ members, P a → Q a) : Majority members Q := by
  obtain ⟨held, hnodup, hsub, hmost, hheld⟩ := h
  exact ⟨held, hnodup, hsub, hmost, fun a ha => hpq a (hsub ha) (hheld a ha)⟩

/-- Two majorities have a member in common. -/
lemma Majority.exists_common [DecidableEq α] (h : Majority members P) (h' : Majority members Q) :
    ∃ a ∈ members, P a ∧ Q a := by
  obtain ⟨held, hnodup, hsub, hmost, hheld⟩ := h
  obtain ⟨other, hother, hothers, hmany, hholds⟩ := h'
  have hcards : members.toFinset.card < held.toFinset.card + other.toFinset.card := by
    rw [List.toFinset_card_of_nodup hnodup, List.toFinset_card_of_nodup hother]
    have hle := members.toFinset_card_le
    omega
  have hmem {l : List α} (hl : l ⊆ members) : l.toFinset ⊆ members.toFinset := fun a ha =>
    List.mem_toFinset.mpr (hl (List.mem_toFinset.mp ha))
  obtain ⟨a, ha⟩ := Finset.inter_nonempty_of_card_lt_card_add_card (hmem hsub) (hmem hothers) hcards
  obtain ⟨hfirst, hsecond⟩ := Finset.mem_inter.mp ha
  have hfirst := List.mem_toFinset.mp hfirst
  exact ⟨a, hsub hfirst, hheld a hfirst, hholds a (List.mem_toFinset.mp hsecond)⟩

end StellarTags.Library

namespace StellarTags.Library.WeightedApproval

variable {κ : Type*} {weight : κ → ℕ} {threshold : ℕ} {signed signed' : Set κ}

/-- Some of those who signed have the threshold's weight together. -/
def Approved (weight : κ → ℕ) (threshold : ℕ) (signed : Set κ) : Prop :=
  ∃ keys : Finset κ, (keys : Set κ) ⊆ signed ∧ threshold ≤ ∑ key ∈ keys, weight key

lemma approved_coe (keys : Finset κ) :
    Approved weight threshold keys ↔ threshold ≤ ∑ key ∈ keys, weight key := by
  constructor
  · rintro ⟨keys', hsub, hle⟩
    exact hle.trans (Finset.sum_le_sum_of_subset (Finset.coe_subset.mp hsub))
  · intro hle
    exact ⟨keys, subset_rfl, hle⟩

lemma approved_empty : Approved weight threshold ∅ ↔ threshold = 0 := by
  rw [← Finset.coe_empty, approved_coe, Finset.sum_empty, Nat.le_zero]

lemma approved_singleton (key : κ) : Approved weight threshold {key} ↔ threshold ≤ weight key := by
  rw [← Finset.coe_singleton, approved_coe, Finset.sum_singleton]

lemma Approved.of_eq_zero (h : threshold = 0) : Approved weight threshold signed :=
  ⟨∅, by simp, by simp [h]⟩

end StellarTags.Library.WeightedApproval
