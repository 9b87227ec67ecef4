import StellarTags.Library.Transactions

/-! Preconditions and postconditions of transactions that succeed. -/

namespace StellarTags.Library.Transactions.Tx

variable {σ ε α β : Type}

/-- From a state in `P`, every success of `m` ends in `Q`. -/
def Ensures (P : σ → Prop) (m : Tx σ ε α) (Q : α → σ → Prop) : Prop :=
  ∀ s a t, P s → m s = .ok (a, t) → Q a t

namespace Ensures

variable {P P' R : σ → Prop} {Q Q' : α → σ → Prop} {S : β → σ → Prop} {m : Tx σ ε α}
  {c : Prop} [Decidable c] {e : ε}

lemma mono (h : Ensures P m Q) (hp : ∀ s, P' s → P s) (hq : ∀ a s, Q a s → Q' a s) :
    Ensures P' m Q' := fun s a t hs hr => hq a t (h s a t (hp s hs) hr)

lemma pure {a : α} (h : ∀ s, P s → Q a s) : Ensures P (Pure.pure a : Tx σ ε α) Q := by
  intro s b t hs hr
  obtain ⟨rfl, rfl⟩ := pure_ok.mp hr
  exact h _ hs

lemma fail : Ensures P (Tx.fail e : Tx σ ε α) Q := by
  intro s a t _ hr
  simp at hr

lemma trap : Ensures P (Tx.trap : Tx σ ε α) Q := by
  intro s a t _ hr
  simp at hr

lemma given {φ : Prop} (h : φ → Ensures P m Q) : Ensures (fun s => P s ∧ φ) m Q :=
  fun s a t hs hr => h hs.2 s a t hs.1 hr

lemma fix {ι : Type} {P : ι → σ → Prop} (h : ∀ i, Ensures (P i) m Q) :
    Ensures (fun s => ∃ i, P i s) m Q := fun s a t ⟨i, hs⟩ hr => h i s a t hs hr

lemma bind {f : α → Tx σ ε β} (hm : Ensures P m Q) (hf : ∀ a, Ensures (Q a) (f a) S) :
    Ensures P (m >>= f) S := by
  intro s b t hs hr
  obtain ⟨a, u, hu, ht⟩ := bind_ok.mp hr
  exact hf a u b t (hm s a u hs hu) ht

lemma of_respects {R : σ → σ → Prop} (hm : Respects R m) (hp : ∀ s t, R s t → P s → P t) :
    Ensures P m fun _ => P := fun s a t hs hr => hp s t (hm s a t hr) hs

lemma pass {R : σ → σ → Prop} {f : α → Tx σ ε β} (hp : ∀ s t, R s t → P s → P t)
    (hm : Respects R m) (hf : ∀ a, Ensures P (f a) S) : Ensures P (m >>= f) S :=
  (of_respects hm hp).bind hf

lemma skip {f : α → Tx σ ε β} (hf : ∀ a, Ensures (fun _ => True) (f a) S) :
    Ensures P (m >>= f) S := by
  intro s b t _ hr
  obtain ⟨a, u, -, ht⟩ := bind_ok.mp hr
  exact hf a u b t trivial ht

lemma inspect {f : α → Tx σ ε β} (hm : Respects Eq m) (hf : ∀ a, Ensures P (f a) S) :
    Ensures P (m >>= f) S :=
  .pass (R := Eq) (fun _ _ he hs => he ▸ hs) hm hf

lemma update {f : σ → σ} {Q : Unit → σ → Prop} (h : ∀ s, P s → Q () (f s)) :
    Ensures P (Tx.update f : Tx σ ε Unit) Q := by
  intro s u t hs hr
  rw [update_ok] at hr
  exact hr ▸ h s hs

lemma read {f : σ → α} {k : α → Tx σ ε β} (h : ∀ a, Ensures (fun s => P s ∧ f s = a) (k a) S) :
    Ensures P (Tx.read f >>= k) S :=
  fun s b t hs hr => h (f s) s b t ⟨hs, rfl⟩ hr

lemma of_reject {Q : Unit → σ → Prop} (h : ¬ c → ∀ s, P s → Q () s) :
    Ensures P (Tx.reject c e : Tx σ ε Unit) Q := by
  intro s u t hs hr
  obtain ⟨hc, rfl⟩ := reject_ok.mp hr
  exact h hc _ hs

lemma of_demand {Q : Unit → σ → Prop} (h : c → ∀ s, P s → Q () s) :
    Ensures P (Tx.demand c : Tx σ ε Unit) Q := by
  intro s u t hs hr
  obtain ⟨hc, rfl⟩ := demand_ok.mp hr
  exact h hc _ hs

lemma reject {k : Unit → Tx σ ε β} (h : ¬ c → Ensures P (k ()) S) :
    Ensures P ((Tx.reject c e : Tx σ ε Unit) >>= k) S := by
  intro s b t hs hr
  obtain ⟨hc, hr⟩ := reject_bind_ok.mp hr
  exact h hc s b t hs hr

lemma demand {k : Unit → Tx σ ε β} (h : c → Ensures P (k ()) S) :
    Ensures P ((Tx.demand c : Tx σ ε Unit) >>= k) S := by
  intro s b t hs hr
  obtain ⟨hc, hr⟩ := demand_bind_ok.mp hr
  exact h hc s b t hs hr

lemma unwrap {o : Option α} {k : α → Tx σ ε β} (h : ∀ a, o = some a → Ensures P (k a) S) :
    Ensures P ((Tx.unwrap o e : Tx σ ε α) >>= k) S := by
  intro s b t hs hr
  obtain ⟨a, ha, hr⟩ := unwrap_bind_ok.mp hr
  exact h a ha s b t hs hr

lemma whenever {m : Tx σ ε Unit} {Q : Unit → σ → Prop} (hm : c → Ensures P m Q)
    (hn : ¬ c → ∀ s, P s → Q () s) : Ensures P (Tx.whenever c m) Q := by
  intro s u t hs hr
  rcases whenever_ok.mp hr with ⟨hc, hr⟩ | ⟨hc, rfl⟩
  · exact hm hc s () t hs hr
  · exact hn hc _ hs

lemma void (h : Ensures P m fun _ => R) : Ensures P (Tx.void m) fun _ => R := by
  intro s u t hs hr
  obtain ⟨a, hr⟩ := void_ok.mp hr
  exact h s a t hs hr

lemma forEach {body : α → Tx σ ε Unit} {as : List α}
    (h : ∀ a ∈ as, Ensures P (body a) fun _ => P) : Ensures P (Tx.forEach body as) fun _ => P := by
  induction as with
  | nil => exact .pure fun _ hs => hs
  | cons a as ih => exact .bind (h a (by simp)) fun _ => ih fun b hb => h b (by simp [hb])

lemma fold {I : β → σ → Prop} {body : β → α → Tx σ ε β} {b : β} {as : List α}
    (h : ∀ b, ∀ a ∈ as, Ensures (I b) (body b a) I) : Ensures (I b) (Tx.fold body b as) I := by
  induction as generalizing b with
  | nil => exact .pure fun _ hs => hs
  | cons a as ih =>
    exact .bind (h b a (by simp)) fun _ => ih fun c d hd => h c d (by simp [hd])

/-- A fold that learns `φ` of each item has learnt it of all of them. -/
lemma fold_all {I : β → σ → Prop} {φ : α → Prop} {body : β → α → Tx σ ε β} {b : β} {as : List α}
    (h : ∀ b, ∀ a ∈ as, Ensures (I b) (body b a) fun c s => I c s ∧ φ a) :
    Ensures (I b) (Tx.fold body b as) fun c s => I c s ∧ ∀ a ∈ as, φ a := by
  induction as generalizing b with
  | nil => exact .pure fun _ hs => ⟨hs, by simp⟩
  | cons a as ih =>
    refine .bind (h b a (by simp)) fun c => .given fun ha => ?_
    refine (ih fun d x hx => h d x (by simp [hx])).mono (fun _ hs => hs) fun d s hs => ?_
    exact ⟨hs.1, by simpa [ha] using hs.2⟩

end Ensures

/-- A success of `m` shows `φ`. -/
def Shows (m : Tx σ ε α) (φ : Prop) : Prop := ∀ s a t, m s = .ok (a, t) → φ

namespace Shows

variable {m : Tx σ ε α} {f : α → Tx σ ε β} {k : Unit → Tx σ ε β} {φ : Prop}
  {c : Prop} [Decidable c] {e : ε}

lemma known (h : φ) : Shows m φ := fun _ _ _ _ => h

lemma first (h : Shows m φ) : Shows (m >>= f) φ := by
  intro s b t hr
  obtain ⟨a, u, hu, -⟩ := bind_ok.mp hr
  exact h s a u hu

lemma next (h : ∀ a, Shows (f a) φ) : Shows (m >>= f) φ := by
  intro s b t hr
  obtain ⟨a, u, -, ht⟩ := bind_ok.mp hr
  exact h a u b t ht

lemma first_then {p : α → Prop} (hm : ∀ s a t, m s = .ok (a, t) → p a)
    (hf : ∀ a, p a → Shows (f a) φ) : Shows (m >>= f) φ := by
  intro s b t hr
  obtain ⟨a, u, hu, ht⟩ := bind_ok.mp hr
  exact hf a (hm s a u hu) u b t ht

lemma reject (h : ¬ c → Shows (k ()) φ) : Shows ((Tx.reject c e : Tx σ ε Unit) >>= k) φ := by
  intro s b t hr
  obtain ⟨hc, hr⟩ := reject_bind_ok.mp hr
  exact h hc s b t hr

lemma of_reject (h : ¬ c → φ) : Shows (Tx.reject c e : Tx σ ε Unit) φ :=
  fun _ _ _ hr => h (reject_ok.mp hr).1

lemma demand (h : c → Shows (k ()) φ) : Shows ((Tx.demand c : Tx σ ε Unit) >>= k) φ := by
  intro s b t hr
  obtain ⟨hc, hr⟩ := demand_bind_ok.mp hr
  exact h hc s b t hr

lemma void (h : Shows m φ) : Shows (Tx.void m) φ := by
  intro s u t hr
  obtain ⟨a, hr⟩ := void_ok.mp hr
  exact h s a t hr

lemma fold {body : β → α → Tx σ ε β} {as : List α} {b : β} {p : α → Prop}
    (h : ∀ b a, Shows (body b a) (p a)) : Shows (Tx.fold body b as) (∀ a ∈ as, p a) := by
  induction as generalizing b with
  | nil => exact known (by simp)
  | cons a as ih =>
    intro s c t hr
    obtain ⟨d, v, hv, hr⟩ := fold_cons.mp hr
    have ha := h b a s d v hv
    have has := ih v c t hr
    simpa using ⟨ha, has⟩

end Shows

end StellarTags.Library.Transactions.Tx
