import Mathlib.Order.RelClasses
import Mathlib.Tactic
import Mathlib.Tactic.Common

/-! Transactions: state-passing computations whose failure discards every change. -/

namespace StellarTags.Library.Transactions

/-- How a computation ends without a result: a returned error, or a trap of the host. -/
inductive Failure (ε : Type) : Type
  | err (e : ε)
  | trap
  deriving DecidableEq, Repr

def Tx (σ ε α : Type) : Type := σ → Except (Failure ε) (α × σ)

namespace Tx

variable {σ τ ε α β : Type}

instance : Monad (Tx σ ε) where
  pure a := fun s => .ok (a, s)
  bind m f := fun s => match m s with
    | .ok (a, t) => f a t
    | .error e => .error e

def fail (e : ε) : Tx σ ε α := fun _ => .error (.err e)

def trap : Tx σ ε α := fun _ => .error .trap

def read (f : σ → α) : Tx σ ε α := fun s => .ok (f s, s)

def update (f : σ → σ) : Tx σ ε Unit := fun s => .ok ((), f s)

def reject (c : Prop) [Decidable c] (e : ε) : Tx σ ε Unit :=
  if c then fail e else pure ()

def demand (c : Prop) [Decidable c] : Tx σ ε Unit :=
  if c then pure () else trap

def unwrap (o : Option α) (e : ε) : Tx σ ε α :=
  match o with
  | some a => pure a
  | none => fail e

def whenever (c : Prop) [Decidable c] (m : Tx σ ε Unit) : Tx σ ε Unit :=
  if c then m else pure ()

def forEach (body : α → Tx σ ε Unit) : List α → Tx σ ε Unit
  | [] => pure ()
  | a :: as => do
    body a
    forEach body as

def fold (body : β → α → Tx σ ε β) (b : β) : List α → Tx σ ε β
  | [] => pure b
  | a :: as => do
    let c ← body b a
    fold body c as

/-- Go on after a returned error, with what the failed part did undone; a trap goes through. -/
def attempt (m : Tx σ ε α) : Tx σ ε (Except ε α) := fun s =>
  match m s with
  | .ok (a, t) => .ok (.ok a, t)
  | .error (.err e) => .ok (.error e, s)
  | .error .trap => .error .trap

def void (m : Tx σ ε α) : Tx σ ε Unit := do
  let _ ← m
  pure ()

/-- Run a computation on one part of a larger state. -/
def zoom (get : σ → τ) (put : τ → σ → σ) (m : Tx τ ε α) : Tx σ ε α := fun s =>
  match m (get s) with
  | .ok (a, t) => .ok (a, put t s)
  | .error e => .error e

/-- The state an invocation leaves behind: a failure leaves the state it started from. -/
def commit (m : Tx σ ε α) (s : σ) : σ :=
  match m s with
  | .ok (_, t) => t
  | .error _ => s

def succeeds (m : Tx σ ε α) (s : σ) : Bool := (m s).toBool

section Success

variable {s t : σ} {a b : α} {e : ε} {c : Prop} [Decidable c]

@[simp] lemma pure_ok : (pure a : Tx σ ε α) s = .ok (b, t) ↔ b = a ∧ t = s := by
  change Except.ok (a, s) = .ok (b, t) ↔ _
  simp [eq_comm]

@[simp low] lemma bind_ok {m : Tx σ ε α} {f : α → Tx σ ε β} {b : β} :
    (m >>= f) s = .ok (b, t) ↔ ∃ a u, m s = .ok (a, u) ∧ f a u = .ok (b, t) := by
  change (match m s with | .ok (a, t) => f a t | .error e => .error e) = _ ↔ _
  cases h : m s with
  | ok r =>
    obtain ⟨a, u⟩ := r
    simp
  | error e => simp

@[simp 200] lemma bind_unit_ok {m : Tx σ ε Unit} {f : Unit → Tx σ ε β} {b : β} :
    (m >>= f) s = .ok (b, t) ↔ ∃ u, m s = .ok ((), u) ∧ f () u = .ok (b, t) := by
  rw [bind_ok]
  exact ⟨fun ⟨_, u, h⟩ => ⟨u, h⟩, fun ⟨u, h⟩ => ⟨(), u, h⟩⟩

@[simp] lemma fail_ok : ¬ (fail e : Tx σ ε α) s = .ok (a, t) := by
  simp [fail]

@[simp] lemma trap_ok : ¬ (trap : Tx σ ε α) s = .ok (a, t) := by
  simp [trap]

@[simp] lemma read_ok {f : σ → α} : (read f : Tx σ ε α) s = .ok (a, t) ↔ a = f s ∧ t = s := by
  simp [read, eq_comm]

@[simp] lemma update_ok {f : σ → σ} {u : Unit} :
    (update f : Tx σ ε Unit) s = .ok (u, t) ↔ t = f s := by
  simp [update, eq_comm]

@[simp] lemma reject_ok {u : Unit} :
    (reject c e : Tx σ ε Unit) s = .ok (u, t) ↔ ¬ c ∧ t = s := by
  by_cases hc : c <;> simp [reject, hc]

@[simp] lemma demand_ok {u : Unit} :
    (demand c : Tx σ ε Unit) s = .ok (u, t) ↔ c ∧ t = s := by
  by_cases hc : c <;> simp [demand, hc]

@[simp] lemma unwrap_ok {o : Option α} :
    (unwrap o e : Tx σ ε α) s = .ok (a, t) ↔ o = some a ∧ t = s := by
  cases o with
  | some b => simp [unwrap, eq_comm (a := a)]
  | none => simp [unwrap]

lemma bind_of_ok {m : Tx σ ε α} {f : α → Tx σ ε β} (h : m s = .ok (a, t)) :
    (m >>= f) s = f a t := by
  change (match m s with | .ok (a, t) => f a t | .error e => .error e) = _
  rw [h]

lemma bind_of_error {m : Tx σ ε α} {f : α → Tx σ ε β} {failure : Failure ε}
    (h : m s = .error failure) : (m >>= f) s = .error failure := by
  change (match m s with | .ok (a, t) => f a t | .error e => .error e) = _
  rw [h]

protected lemma bind_assoc {γ : Type} (m : Tx σ ε α) (f : α → Tx σ ε β) (g : β → Tx σ ε γ) :
    (m >>= f) >>= g = m >>= fun a => f a >>= g := by
  funext s
  change (match (match m s with | .ok (a, t) => f a t | .error e => .error e) with
    | .ok (b, t) => g b t | .error e => .error e) =
      match m s with | .ok (a, t) => (f a >>= g) t | .error e => .error e
  cases m s with
  | ok r => rfl
  | error e => rfl

/-- Going on from a computation that, once it passes its checks, has one outcome. -/
lemma bind_iff {m : Tx σ ε α} {f : α → Tx σ ε β} {b : β} {p : Prop} {x : α} {v : σ}
    (h : ∀ a t, m s = .ok (a, t) ↔ p ∧ a = x ∧ t = v) :
    (m >>= f) s = .ok (b, t) ↔ p ∧ f x v = .ok (b, t) := by
  rw [bind_ok]
  constructor
  · rintro ⟨a, u, hm, hf⟩
    obtain ⟨hp, rfl, rfl⟩ := (h a u).mp hm
    exact ⟨hp, hf⟩
  · rintro ⟨hp, hf⟩
    exact ⟨x, v, (h x v).mpr ⟨hp, rfl, rfl⟩, hf⟩

section Bind

variable {b : β} {k : α → Tx σ ε β} {k' : Unit → Tx σ ε β}

@[simp] lemma pure_bind : ((pure a : Tx σ ε α) >>= k) s = k a s := rfl

@[simp] lemma fail_bind : ((fail e : Tx σ ε α) >>= k) s = .error (.err e) := rfl

@[simp] lemma trap_bind : ((trap : Tx σ ε α) >>= k) s = .error .trap := rfl

@[simp] lemma read_bind {f : σ → α} : ((read f : Tx σ ε α) >>= k) s = k (f s) s := rfl

@[simp] lemma update_bind {f : σ → σ} : ((update f : Tx σ ε Unit) >>= k') s = k' () (f s) := rfl

lemma reject_bind : ((reject c e : Tx σ ε Unit) >>= k') s =
    if c then .error (.err e) else k' () s := by
  by_cases hc : c
  · rw [reject, if_pos hc, if_pos hc, fail_bind]
  · rw [reject, if_neg hc, if_neg hc, pure_bind]

lemma demand_bind : ((demand c : Tx σ ε Unit) >>= k') s = if c then k' () s else .error .trap := by
  by_cases hc : c
  · rw [demand, if_pos hc, if_pos hc, pure_bind]
  · rw [demand, if_neg hc, if_neg hc, trap_bind]

@[simp] lemma reject_bind_ok :
    ((reject c e : Tx σ ε Unit) >>= k') s = .ok (b, t) ↔ ¬ c ∧ k' () s = .ok (b, t) := by
  by_cases hc : c <;> simp [reject, hc]

@[simp] lemma demand_bind_ok :
    ((demand c : Tx σ ε Unit) >>= k') s = .ok (b, t) ↔ c ∧ k' () s = .ok (b, t) := by
  by_cases hc : c <;> simp [demand, hc]

@[simp] lemma unwrap_bind_ok {o : Option α} :
    ((unwrap o e : Tx σ ε α) >>= k) s = .ok (b, t) ↔ ∃ a, o = some a ∧ k a s = .ok (b, t) := by
  cases o <;> simp [unwrap]

end Bind

@[simp] lemma void_ok {m : Tx σ ε α} {u : Unit} :
    (void m) s = .ok (u, t) ↔ ∃ a, m s = .ok (a, t) := by
  simp [void]

lemma attempt_ok {m : Tx σ ε α} {r : Except ε α} :
    (attempt m) s = .ok (r, t) ↔
      (∃ a, r = .ok a ∧ m s = .ok (a, t)) ∨ ∃ e, r = .error e ∧ m s = .error (.err e) ∧ t = s := by
  unfold attempt
  cases h : m s with
  | ok p => simp [Prod.ext_iff, eq_comm (a := r)]
  | error f => cases f <;> simp [eq_comm (a := r), eq_comm (a := t)]

lemma whenever_ok {m : Tx σ ε Unit} {u : Unit} :
    (whenever c m) s = .ok (u, t) ↔ (c ∧ m s = .ok ((), t)) ∨ (¬ c ∧ t = s) := by
  by_cases hc : c <;> simp [whenever, hc]

@[simp] lemma forEach_nil {body : α → Tx σ ε Unit} {u : Unit} :
    (forEach body []) s = .ok (u, t) ↔ t = s := by
  simp [forEach]

@[simp] lemma forEach_cons {body : α → Tx σ ε Unit} {as : List α} {u : Unit} :
    (forEach body (a :: as)) s = .ok (u, t) ↔
      ∃ v, body a s = .ok ((), v) ∧ (forEach body as) v = .ok ((), t) := by
  rw [forEach, bind_ok]
  exact ⟨fun ⟨_, v, h⟩ => ⟨v, h⟩, fun ⟨v, h⟩ => ⟨(), v, h⟩⟩

@[simp] lemma fold_nil {body : β → α → Tx σ ε β} {b c : β} :
    (fold body b []) s = .ok (c, t) ↔ c = b ∧ t = s := by
  simp [fold]

@[simp] lemma fold_cons {body : β → α → Tx σ ε β} {as : List α} {b c : β} :
    (fold body b (a :: as)) s = .ok (c, t) ↔
      ∃ d v, body b a s = .ok (d, v) ∧ (fold body d as) v = .ok (c, t) := by
  simp [fold]

lemma zoom_ok {get : σ → τ} {put : τ → σ → σ} {m : Tx τ ε α} :
    (zoom get put m) s = .ok (a, t) ↔ ∃ u, m (get s) = .ok (a, u) ∧ t = put u s := by
  unfold zoom
  cases h : m (get s) with
  | ok r =>
    obtain ⟨b, u⟩ := r
    simp [eq_comm, and_assoc]
  | error e => simp

lemma commit_ok {m : Tx σ ε α} (h : m s = .ok (a, t)) : commit m s = t := by
  simp [commit, h]

lemma succeeds_of_ok {m : Tx σ ε α} (h : m s = .ok (a, t)) : succeeds m s = true := by
  simp [succeeds, h, Except.toBool]

lemma commit_of_fails {m : Tx σ ε α} (h : succeeds m s = false) : commit m s = s := by
  unfold succeeds at h
  unfold commit
  cases hm : m s with
  | ok r => simp [hm, Except.toBool] at h
  | error e => rfl

lemma succeeds_iff {m : Tx σ ε α} : succeeds m s = true ↔ ∃ a, m s = .ok (a, commit m s) := by
  unfold succeeds commit
  cases h : m s with
  | ok r => simp [Except.toBool, Prod.ext_iff]
  | error e => simp [Except.toBool]

lemma succeeds_unit {m : Tx σ ε Unit} : succeeds m s = true ↔ ∃ t, m s = .ok ((), t) := by
  refine succeeds_iff.trans ⟨fun ⟨_, h⟩ => ⟨_, h⟩, ?_⟩
  rintro ⟨t, h⟩
  exact ⟨(), by rw [commit_ok h, h]⟩

lemma commit_cases (m : Tx σ ε α) (s : σ) :
    commit m s = s ∨ ∃ a, m s = .ok (a, commit m s) := by
  unfold commit
  cases h : m s with
  | ok r => exact Or.inr ⟨r.1, rfl⟩
  | error e => exact Or.inl rfl

end Success

/-- Every success moves the state along `R`. -/
def Respects (R : σ → σ → Prop) (m : Tx σ ε α) : Prop :=
  ∀ s a t, m s = .ok (a, t) → R s t

namespace Respects

variable {R : σ → σ → Prop}

lemma fail (e : ε) : Respects R (Tx.fail e : Tx σ ε α) := by
  intro s a t h
  simp at h

lemma trap : Respects R (Tx.trap : Tx σ ε α) := by
  intro s a t h
  simp at h

lemma update {f : σ → σ} (h : ∀ s, R s (f s)) : Respects R (Tx.update f : Tx σ ε Unit) := by
  rintro s a t ht
  rw [update_ok] at ht
  exact ht ▸ h s

variable [IsPreorder σ R]

lemma pure (a : α) : Respects R (Pure.pure a : Tx σ ε α) := by
  intro s b t h
  obtain ⟨rfl, rfl⟩ := pure_ok.mp h
  exact refl_of R _

lemma read (f : σ → α) : Respects R (Tx.read f : Tx σ ε α) := by
  intro s b t h
  obtain ⟨rfl, rfl⟩ := read_ok.mp h
  exact refl_of R _

lemma reject (c : Prop) [Decidable c] (e : ε) : Respects R (Tx.reject c e : Tx σ ε Unit) := by
  intro s b t h
  obtain ⟨-, rfl⟩ := reject_ok.mp h
  exact refl_of R _

lemma demand (c : Prop) [Decidable c] : Respects R (Tx.demand c : Tx σ ε Unit) := by
  intro s b t h
  obtain ⟨-, rfl⟩ := demand_ok.mp h
  exact refl_of R _

lemma unwrap (o : Option α) (e : ε) : Respects R (Tx.unwrap o e : Tx σ ε α) := by
  intro s b t h
  obtain ⟨-, rfl⟩ := unwrap_ok.mp h
  exact refl_of R _

lemma bind {m : Tx σ ε α} {f : α → Tx σ ε β} (hm : Respects R m)
    (hf : ∀ a, Respects R (f a)) : Respects R (m >>= f) := by
  intro s b t h
  obtain ⟨a, u, hu, ht⟩ := bind_ok.mp h
  exact trans_of R (hm s a u hu) (hf a u b t ht)

lemma void {m : Tx σ ε α} (hm : Respects R m) : Respects R (Tx.void m) :=
  hm.bind fun _ => .pure ()

lemma whenever {c : Prop} [Decidable c] {m : Tx σ ε Unit} (hm : c → Respects R m) :
    Respects R (Tx.whenever c m) := by
  intro s u t h
  rcases whenever_ok.mp h with ⟨hc, h⟩ | ⟨-, rfl⟩
  · exact hm hc s () t h
  · exact refl_of R _

lemma forEach {body : α → Tx σ ε Unit} {as : List α} (h : ∀ a ∈ as, Respects R (body a)) :
    Respects R (Tx.forEach body as) := by
  induction as with
  | nil => exact .pure ()
  | cons a as ih =>
    exact .bind (h a (by simp)) fun _ => ih fun b hb => h b (by simp [hb])

lemma fold {body : β → α → Tx σ ε β} {b : β} {as : List α}
    (h : ∀ b, ∀ a ∈ as, Respects R (body b a)) : Respects R (Tx.fold body b as) := by
  induction as generalizing b with
  | nil => exact .pure b
  | cons a as ih =>
    exact .bind (h b a (by simp)) fun _ => ih fun c d hd => h c d (by simp [hd])

end Respects

/-- The computation may fail, but not with the error. -/
def Spares (e : ε) (m : Tx σ ε α) (s : σ) : Prop := m s ≠ .error (.err e)

namespace Spares

variable {s : σ} {e e' : ε}

lemma of_ok {m : Tx σ ε α} {r : α × σ} (h : m s = .ok r) : Spares e m s := by
  rw [Spares, h]
  exact fun hfail => nomatch hfail

lemma demand (c : Prop) [Decidable c] : Spares e (Tx.demand c : Tx σ ε Unit) s := by
  by_cases hc : c
  · exact of_ok (r := ((), s)) (demand_ok.mpr ⟨hc, rfl⟩)
  · simp [Spares, Tx.demand, hc, Tx.trap]

lemma reject {c : Prop} [Decidable c] (h : c → e' ≠ e) :
    Spares e (Tx.reject c e' : Tx σ ε Unit) s := by
  by_cases hc : c
  · simpa [Spares, Tx.reject, hc, Tx.fail] using h hc
  · exact of_ok (r := ((), s)) (reject_ok.mpr ⟨hc, rfl⟩)

lemma unwrap {o : Option α} (h : e' ≠ e) : Spares e (Tx.unwrap o e' : Tx σ ε α) s := by
  cases o with
  | some a => exact of_ok (r := (a, s)) rfl
  | none => simpa [Spares, Tx.unwrap, Tx.fail] using h

lemma bind {m : Tx σ ε α} {f : α → Tx σ ε β} (hm : Spares e m s)
    (hf : ∀ a t, m s = .ok (a, t) → Spares e (f a) t) : Spares e (m >>= f) s := by
  cases h : m s with
  | ok r =>
    obtain ⟨a, t⟩ := r
    rw [Spares, bind_of_ok h]
    exact hf a t h
  | error failure =>
    rw [Spares, h] at hm
    rw [Spares, bind_of_error h]
    exact fun hfail => hm (by rw [Except.error.inj hfail])

end Spares

end Tx

end StellarTags.Library.Transactions

/-! Meters: what a computation is charged, and the limit it stays within when it is charged. -/

namespace StellarTags.Library.Transactions.Tx

variable {σ ε α β : Type} (used : σ → ℕ) (limit : ℕ)

def Unmetered (s t : σ) : Prop := used t = used s

instance : IsPreorder σ (Unmetered used) where
  refl _ := rfl
  trans _ _ _ hst htv := htv.trans hst

/-- Every success of `m` is charged `n`, and leaves the meter within its limit if `n` is not `0`. -/
def Charges (n : ℕ) (m : Tx σ ε α) : Prop :=
  ∀ s a t, m s = .ok (a, t) → used t = used s + n ∧ (n = 0 ∨ used t ≤ limit)

namespace Charges

variable {used limit} {m : Tx σ ε α} {f : α → Tx σ ε β} {n k : ℕ}

lemma free (hm : Respects (Unmetered used) m) : Charges used limit 0 m :=
  fun s a t hr => ⟨hm s a t hr, Or.inl rfl⟩

lemma bind (hm : Charges used limit n m) (hf : ∀ a, Charges used limit k (f a)) :
    Charges used limit (n + k) (m >>= f) := by
  intro s b t hr
  obtain ⟨a, u, hu, ht⟩ := bind_ok.mp hr
  obtain ⟨hn, hnl⟩ := hm s a u hu
  obtain ⟨hk, hkl⟩ := hf a u b t ht
  refine ⟨by omega, ?_⟩
  rcases hkl with hk0 | hkl
  · rcases hnl with hn0 | hnl
    · left
      omega
    · right
      omega
  · exact Or.inr hkl

lemma free_then (hm : Respects (Unmetered used) m)
    (hf : ∀ a, Charges used limit n (f a)) : Charges used limit n (m >>= f) := by
  have h := (free hm : Charges used limit 0 m).bind hf
  rwa [Nat.zero_add] at h

lemma then_free (hm : Charges used limit n m)
    (hf : ∀ a, Respects (Unmetered used) (f a)) : Charges used limit n (m >>= f) :=
  hm.bind fun a => free (hf a)

lemma void (hm : Charges used limit n m) : Charges used limit n (Tx.void m) := by
  intro s u t hr
  obtain ⟨a, hr⟩ := void_ok.mp hr
  exact hm s a t hr

lemma fold {body : β → α → Tx σ ε β} {as : List α} {b : β} {counts : α → Bool}
    (h : ∀ b a, Charges used limit (if counts a then 1 else 0) (body b a)) :
    Charges used limit (as.countP counts) (Tx.fold body b as) := by
  induction as generalizing b with
  | nil =>
    intro s c t hr
    obtain ⟨-, rfl⟩ := fold_nil.mp hr
    exact ⟨rfl, Or.inl rfl⟩
  | cons a as ih =>
    rw [List.countP_cons, Nat.add_comm]
    exact (h b a).bind fun c => ih

end Charges

end StellarTags.Library.Transactions.Tx
