import Mathlib.Tactic

/-! Standard tokens: balances move exactly by the transferred amount. -/

namespace StellarTags.Library.Tokens

variable {T A : Type} [DecidableEq T] [DecidableEq A]

structure Ledger (T A : Type) where
  balance : T → A → ℤ
  allowance : T → A → A → ℤ

inductive TokenCall (T A : Type) : Type
  | transfer (token : T) (source target : A) (amount : ℤ)
  | transferFrom (token : T) (spender source target : A) (amount : ℤ)
  | approve (token : T) (owner spender : A) (amount : ℤ)
  | mint (token : T) (target : A) (amount : ℤ)
  | burn (token : T) (owner : A) (amount : ℤ)
  deriving DecidableEq, Repr

/-- The address whose authorisation the token contract asks for. Minting is the issuer's. -/
def TokenCall.principal : TokenCall T A → Option A
  | .transfer _ source _ _ => some source
  | .transferFrom _ spender _ _ _ => some spender
  | .approve _ owner _ _ => some owner
  | .mint _ _ _ => none
  | .burn _ owner _ => some owner

/-- Whose holdings the call gives away without an allowance. -/
def TokenCall.giver : TokenCall T A → Option A
  | .transfer _ source _ _ => some source
  | .approve _ owner _ _ => some owner
  | .burn _ owner _ => some owner
  | .transferFrom _ _ _ _ _ | .mint _ _ _ => none

def TokenCall.payer : TokenCall T A → Option A
  | .transfer _ source _ _ => some source
  | .transferFrom _ _ source _ _ => some source
  | .burn _ owner _ => some owner
  | .approve _ _ _ _ | .mint _ _ _ => none

def TokenCall.IsTransfer : TokenCall T A → Prop
  | .transfer _ _ _ _ | .transferFrom _ _ _ _ _ => True
  | .approve _ _ _ _ | .mint _ _ _ | .burn _ _ _ => False

def TokenCall.flow (t : T) (a : A) : TokenCall T A → ℤ
  | .transfer u source target n | .transferFrom u _ source target n =>
    (if t = u ∧ a = source then -n else 0) + if t = u ∧ a = target then n else 0
  | .approve _ _ _ _ => 0
  | .mint u target n => if t = u ∧ a = target then n else 0
  | .burn u owner n => if t = u ∧ a = owner then -n else 0

/-- What the call takes from an account, whatever it gives it besides. -/
def TokenCall.debit (t : T) (a : A) : TokenCall T A → ℤ
  | .transfer u source _ n | .transferFrom u _ source _ n | .burn u source n =>
    if t = u ∧ a = source then n else 0
  | .approve _ _ _ _ | .mint _ _ _ => 0

def TokenCall.outlay (a : A) : TokenCall T A → ℤ
  | .transfer _ source _ n | .transferFrom _ _ source _ n | .burn _ source n =>
    if a = source then n else 0
  | .approve _ _ _ _ | .mint _ _ _ => 0

omit [DecidableEq T] in
lemma TokenCall.outlay_of_payer_ne {a : A} {c : TokenCall T A} (hc : c.payer ≠ some a) :
    c.outlay a = 0 := by
  cases c <;> simp_all [TokenCall.payer, TokenCall.outlay, eq_comm]

omit [DecidableEq T] [DecidableEq A] in
lemma TokenCall.giver_ne {self : A} {c : TokenCall T A} (hc : c.principal ≠ some self) :
    c.giver ≠ some self := by
  cases c <;> simp_all [TokenCall.principal, TokenCall.giver]

namespace Ledger

def add (l : Ledger T A) (t : T) (a : A) (n : ℤ) : Ledger T A :=
  { l with balance := fun u x => l.balance u x + if u = t ∧ x = a then n else 0 }

def move (l : Ledger T A) (t : T) (source target : A) (n : ℤ) : Ledger T A :=
  (l.add t source (-n)).add t target n

def setAllowance (l : Ledger T A) (t : T) (owner spender : A) (n : ℤ) : Ledger T A :=
  { l with allowance := fun u x y =>
      if u = t ∧ x = owner ∧ y = spender then n else l.allowance u x y }

@[simp] lemma balance_add (l : Ledger T A) (t u : T) (a x : A) (n : ℤ) :
    (l.add t a n).balance u x = l.balance u x + if u = t ∧ x = a then n else 0 := rfl

lemma balance_move (l : Ledger T A) (t u : T) (source target x : A) (n : ℤ) :
    (l.move t source target n).balance u x =
      l.balance u x + (if u = t ∧ x = source then -n else 0) +
        (if u = t ∧ x = target then n else 0) := rfl

@[simp] lemma allowance_move (l : Ledger T A) (t : T) (source target : A) (n : ℤ) :
    (l.move t source target n).allowance = l.allowance := rfl

@[simp] lemma balance_setAllowance (l : Ledger T A) (t : T) (owner spender : A) (n : ℤ) :
    (l.setAllowance t owner spender n).balance = l.balance := rfl

/-- What the token contract does once the call is authorised; `none` when it refuses. -/
def apply (l : Ledger T A) : TokenCall T A → Option (Ledger T A)
  | .transfer t source target n =>
    if 0 ≤ n ∧ n ≤ l.balance t source then some (l.move t source target n) else none
  | .transferFrom t spender source target n =>
    if 0 ≤ n ∧ n ≤ l.allowance t source spender ∧ n ≤ l.balance t source then
      some ((l.move t source target n).setAllowance t source spender
        (l.allowance t source spender - n))
    else none
  | .approve t owner spender n => if 0 ≤ n then some (l.setAllowance t owner spender n) else none
  | .mint t target n => if 0 ≤ n then some (l.add t target n) else none
  | .burn t owner n => if 0 ≤ n ∧ n ≤ l.balance t owner then some (l.add t owner (-n)) else none

/-- Token calls made by others, in order; one that is refused changes nothing. -/
def others (self : A) (l : Ledger T A) (calls : List (TokenCall T A)) : Ledger T A :=
  calls.foldl (fun l c => if c.principal = some self then l else (l.apply c).getD l) l

/-- `self` has let nobody spend its balance. -/
def Unlent (self : A) (l : Ledger T A) : Prop := ∀ t x, l.allowance t self x ≤ 0

lemma move_to_gains {l : Ledger T A} {t : T} {source target x : A} {n : ℤ} (hn : 0 ≤ n)
    (hx : x ≠ source) (u : T) : l.balance u x ≤ (l.move t source target n).balance u x := by
  rw [balance_move]
  split_ifs <;> simp_all

variable {self : A} {l m : Ledger T A} {c : TokenCall T A}

lemma apply_unlent (hl : l.Unlent self) (hc : c.giver ≠ some self) (h : l.apply c = some m) :
    m.Unlent self := by
  intro t x
  cases c with
  | transfer u source target n =>
    simp only [apply, Option.ite_none_right_eq_some, Option.some.injEq] at h
    obtain ⟨-, rfl⟩ := h
    exact hl t x
  | transferFrom u spender source target n =>
    simp only [apply, Option.ite_none_right_eq_some, Option.some.injEq] at h
    obtain ⟨⟨hn, -, -⟩, rfl⟩ := h
    have ht := hl t x
    simp only [setAllowance, allowance_move]
    split_ifs with he
    · obtain ⟨rfl, rfl, rfl⟩ := he
      omega
    · exact ht
  | approve u owner spender n =>
    simp only [apply, Option.ite_none_right_eq_some, Option.some.injEq] at h
    obtain ⟨-, rfl⟩ := h
    have hne : self ≠ owner := fun he => hc (by simp [TokenCall.giver, he])
    simpa [setAllowance, hne] using hl t x
  | mint u target n =>
    simp only [apply, Option.ite_none_right_eq_some, Option.some.injEq] at h
    obtain ⟨-, rfl⟩ := h
    exact hl t x
  | burn u owner n =>
    simp only [apply, Option.ite_none_right_eq_some, Option.some.injEq] at h
    obtain ⟨-, rfl⟩ := h
    exact hl t x

lemma apply_transfer_unlent (hl : l.Unlent self) (hc : c.IsTransfer) (h : l.apply c = some m) :
    m.Unlent self := by
  cases c with
  | transfer u source target n =>
    simp only [apply, Option.ite_none_right_eq_some, Option.some.injEq] at h
    obtain ⟨-, rfl⟩ := h
    exact hl
  | transferFrom u spender source target n => exact apply_unlent hl (by simp [TokenCall.giver]) h
  | _ => exact hc.elim

lemma apply_payer {a : A} (hc : c.payer ≠ some a) (h : l.apply c = some m) (t : T) :
    l.balance t a ≤ m.balance t a := by
  cases c with
  | transfer u source target n =>
    simp only [apply, Option.ite_none_right_eq_some, Option.some.injEq] at h
    obtain ⟨⟨hn, -⟩, rfl⟩ := h
    exact move_to_gains hn (fun he => hc (by simp [TokenCall.payer, he])) t
  | transferFrom u spender source target n =>
    simp only [apply, Option.ite_none_right_eq_some, Option.some.injEq] at h
    obtain ⟨⟨hn, -⟩, rfl⟩ := h
    rw [balance_setAllowance]
    exact move_to_gains hn (fun he => hc (by simp [TokenCall.payer, he])) t
  | approve u owner spender n =>
    simp only [apply, Option.ite_none_right_eq_some, Option.some.injEq] at h
    obtain ⟨-, rfl⟩ := h
    rfl
  | mint u target n =>
    simp only [apply, Option.ite_none_right_eq_some, Option.some.injEq] at h
    obtain ⟨hn, rfl⟩ := h
    rw [balance_add]
    split_ifs <;> omega
  | burn u owner n =>
    simp only [apply, Option.ite_none_right_eq_some, Option.some.injEq] at h
    obtain ⟨-, rfl⟩ := h
    have hne : a ≠ owner := fun he => hc (by simp [TokenCall.payer, he])
    simp [hne]

lemma apply_balance (hl : l.Unlent self) (hc : c.giver ≠ some self) (h : l.apply c = some m)
    (t : T) : l.balance t self ≤ m.balance t self := by
  cases c with
  | transferFrom u spender source target n =>
    by_cases hs : source = self
    · subst hs
      simp only [apply, Option.ite_none_right_eq_some, Option.some.injEq] at h
      obtain ⟨⟨hn, ha, -⟩, rfl⟩ := h
      have hz := hl u spender
      obtain rfl : n = 0 := by omega
      simp [balance_move]
    · exact apply_payer (by simpa [TokenCall.payer] using hs) h t
  | _ => exact apply_payer (by simp_all [TokenCall.giver, TokenCall.payer]) h t

lemma apply_outlay (h : l.apply c = some m) (a : A) : 0 ≤ c.outlay a := by
  cases c with
  | transfer u source target n =>
    simp only [apply, Option.ite_none_right_eq_some] at h
    rw [TokenCall.outlay]
    split_ifs <;> omega
  | transferFrom u spender source target n =>
    simp only [apply, Option.ite_none_right_eq_some] at h
    rw [TokenCall.outlay]
    split_ifs <;> omega
  | burn u owner n =>
    simp only [apply, Option.ite_none_right_eq_some] at h
    rw [TokenCall.outlay]
    split_ifs <;> omega
  | _ => exact le_rfl

lemma apply_flow (h : l.apply c = some m) (t : T) (a : A) :
    m.balance t a = l.balance t a + c.flow t a := by
  cases c with
  | transfer u source target n =>
    simp only [apply, Option.ite_none_right_eq_some, Option.some.injEq] at h
    obtain ⟨-, rfl⟩ := h
    rw [balance_move, TokenCall.flow, add_assoc]
  | transferFrom u spender source target n =>
    simp only [apply, Option.ite_none_right_eq_some, Option.some.injEq] at h
    obtain ⟨-, rfl⟩ := h
    rw [balance_setAllowance, balance_move, TokenCall.flow, add_assoc]
  | approve u owner spender n =>
    simp only [apply, Option.ite_none_right_eq_some, Option.some.injEq] at h
    obtain ⟨-, rfl⟩ := h
    simp [TokenCall.flow]
  | mint u target n =>
    simp only [apply, Option.ite_none_right_eq_some, Option.some.injEq] at h
    obtain ⟨-, rfl⟩ := h
    rw [balance_add, TokenCall.flow]
  | burn u owner n =>
    simp only [apply, Option.ite_none_right_eq_some, Option.some.injEq] at h
    obtain ⟨-, rfl⟩ := h
    rw [balance_add, TokenCall.flow]

lemma others_custody (hl : l.Unlent self) (calls : List (TokenCall T A)) :
    (others self l calls).Unlent self ∧
      ∀ t, l.balance t self ≤ (others self l calls).balance t self := by
  induction calls generalizing l with
  | nil => exact ⟨hl, fun t => le_rfl⟩
  | cons c calls ih =>
    simp only [others, List.foldl_cons]
    split_ifs with hc
    · exact ih hl
    · cases h : l.apply c with
      | none => exact ih hl
      | some m =>
        have hg := TokenCall.giver_ne hc
        have hm := ih (apply_unlent hl hg h)
        exact ⟨hm.1, fun t => (apply_balance hl hg h t).trans (hm.2 t)⟩

lemma others_unlent (hl : l.Unlent self) (calls : List (TokenCall T A)) :
    (others self l calls).Unlent self := (others_custody hl calls).1

lemma others_balance (hl : l.Unlent self) (calls : List (TokenCall T A)) (t : T) :
    l.balance t self ≤ (others self l calls).balance t self := (others_custody hl calls).2 t

end Ledger

/-- The call leaves `self` with at least `gain` more of each token, and none of it lent. -/
def TokenCall.Gains (self : A) (gain : T → ℤ) (c : TokenCall T A) : Prop :=
  ∀ l m : Ledger T A, l.Unlent self → l.apply c = some m →
    m.Unlent self ∧ ∀ t, l.balance t self + gain t ≤ m.balance t self

namespace TokenCall

variable {self source target spender : A} {t : T} {n : ℤ}

lemma gains_zero {c : TokenCall T A} (hc : c.giver ≠ some self) : c.Gains self 0 := by
  intro l m hl h
  exact ⟨Ledger.apply_unlent hl hc h, fun t => by simpa using Ledger.apply_balance hl hc h t⟩

lemma gains_transfer_other (hs : source ≠ self) : (transfer t source target n).Gains self 0 :=
  gains_zero (by simpa [giver] using hs)

lemma gains_transferFrom : (transferFrom t spender source target n).Gains self 0 :=
  gains_zero (by simp [giver])

lemma gains_transfer_in (hs : source ≠ self) :
    (transfer t source self n).Gains self (Pi.single t n) := by
  intro l m hl h
  refine ⟨Ledger.apply_unlent hl (by simpa [giver] using hs) h, fun u => ?_⟩
  simp only [Ledger.apply, Option.ite_none_right_eq_some, Option.some.injEq] at h
  obtain ⟨-, rfl⟩ := h
  simp [Ledger.balance_move, Pi.single_apply, hs.symm]

/-- Nobody can take from `self` by an allowance, so what comes in by one comes from others. -/
lemma gains_transferFrom_in (hn : 0 < n) :
    (transferFrom t spender source self n).Gains self (Pi.single t n) := by
  intro l m hl h
  refine ⟨Ledger.apply_unlent hl (by simp [giver]) h, fun u => ?_⟩
  simp only [Ledger.apply, Option.ite_none_right_eq_some, Option.some.injEq] at h
  obtain ⟨⟨-, ha, -⟩, rfl⟩ := h
  have hs : self ≠ source := by
    rintro rfl
    have := hl t spender
    omega
  simp [Ledger.balance_move, Pi.single_apply, hs]

lemma gains_transfer_out : (transfer t self target n).Gains self (Pi.single t (-n)) := by
  intro l m hl h
  simp only [Ledger.apply, Option.ite_none_right_eq_some, Option.some.injEq] at h
  obtain ⟨⟨hn, -⟩, rfl⟩ := h
  refine ⟨fun u x => hl u x, fun u => ?_⟩
  rw [Ledger.balance_move, Pi.single_apply]
  split_ifs <;> simp_all

end TokenCall

end StellarTags.Library.Tokens
