import StellarTags.Library.Triples
import Mathlib.Tactic

/-! Fixed-width arithmetic that traps on overflow, and its saturating variants. -/

namespace StellarTags.Library.Integers

open Transactions

variable {σ ε : Type}

def maxU32 : ℕ := 2 ^ 32 - 1

def maxU64 : ℕ := 2 ^ 64 - 1

def minI128 : ℤ := -2 ^ 127

def maxI128 : ℤ := 2 ^ 127 - 1

abbrev FitsI128 (n : ℤ) : Prop := minI128 ≤ n ∧ n ≤ maxI128

abbrev I128 := {n : ℤ // FitsI128 n}

abbrev U32 := {n : ℕ // n ≤ maxU32}

def addU64 (a b : ℕ) : Tx σ ε ℕ := do
  Tx.demand (a + b ≤ maxU64)
  pure (a + b)

def subU64 (a b : ℕ) : Tx σ ε ℕ := do
  Tx.demand (b ≤ a)
  pure (a - b)

def checkedI128 (n : ℤ) : Tx σ ε ℤ := do
  Tx.demand (FitsI128 n)
  pure n

def saturateU64 (n : ℕ) : ℕ := min n maxU64

def saturateI128 (n : ℤ) : ℤ := max minI128 (min n maxI128)

variable {s t : σ} {a b m : ℕ} {n k : ℤ}

lemma fitsI128_zero : FitsI128 0 := by decide
lemma fitsI128_one : FitsI128 1 := by decide
lemma fitsI128_five : FitsI128 5 := by decide
lemma fitsI128_forty : FitsI128 40 := by decide
lemma fitsI128_thousand : FitsI128 1000 := by decide

@[simp] lemma addU64_ok : (addU64 a b : Tx σ ε ℕ) s = .ok (m, t) ↔
    a + b ≤ maxU64 ∧ m = a + b ∧ t = s := by
  simp [addU64]

section Bind

variable {β : Type} {r : β} {f : ℕ → Tx σ ε β} {g : ℤ → Tx σ ε β}

@[simp] lemma addU64_bind_ok : ((addU64 a b : Tx σ ε ℕ) >>= f) s = .ok (r, t) ↔
    a + b ≤ maxU64 ∧ f (a + b) s = .ok (r, t) := by
  simp [addU64]

@[simp] lemma subU64_bind_ok : ((subU64 a b : Tx σ ε ℕ) >>= f) s = .ok (r, t) ↔
    b ≤ a ∧ f (a - b) s = .ok (r, t) := by
  simp [subU64]

@[simp] lemma checkedI128_bind_ok : ((checkedI128 n : Tx σ ε ℤ) >>= g) s = .ok (r, t) ↔
    FitsI128 n ∧ g n s = .ok (r, t) := by
  simp [checkedI128]

end Bind

@[simp] lemma subU64_ok : (subU64 a b : Tx σ ε ℕ) s = .ok (m, t) ↔
    b ≤ a ∧ m = a - b ∧ t = s := by
  simp [subU64]

@[simp] lemma checkedI128_ok : (checkedI128 n : Tx σ ε ℤ) s = .ok (k, t) ↔
    FitsI128 n ∧ k = n ∧ t = s := by
  simp [checkedI128, and_assoc]

lemma checkedI128_ensures {α : Type} {P : σ → Prop} {Q : α → σ → Prop} {f : ℤ → Tx σ ε α}
    (h : Tx.Ensures P (f n) Q) : Tx.Ensures P (checkedI128 n >>= f) Q := by
  intro s a t hs hr
  exact h s a t hs (checkedI128_bind_ok.mp hr).2

end StellarTags.Library.Integers
