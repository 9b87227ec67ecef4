import StellarTags.Library.Runs
import StellarTags.Library.Transactions

/-! Two runs side by side: transactions that agree on related states, and runs that differ only in
inputs of no concern. -/

namespace StellarTags.Library.Transactions.Tx

variable {σ τ ε α β : Type}

/-- From related states `m` and `n` fail in the same way, or have the same result and keep them
related. -/
def Twin (R : σ → τ → Prop) (m : Tx σ ε α) (n : Tx τ ε α) : Prop :=
  ∀ s t, R s t → (∃ e, m s = .error e ∧ n t = .error e) ∨
    ∃ a s' t', m s = .ok (a, s') ∧ n t = .ok (a, t') ∧ R s' t'

namespace Twin

variable {R : σ → τ → Prop} {m : Tx σ ε α} {n : Tx τ ε α} {s : σ} {t : τ} {c : Prop}
  [Decidable c] {e : ε}

lemma result (h : Twin R m n) (hs : R s t) : (m s).map Prod.fst = (n t).map Prod.fst := by
  rcases h s t hs with ⟨e, hm, ht⟩ | ⟨a, s', t', hm, ht, -⟩
  · rw [hm, ht]
    rfl
  · simp [hm, ht, Except.map]

lemma commit (h : Twin R m n) (hs : R s t) : R (Tx.commit m s) (Tx.commit n t) := by
  rcases h s t hs with ⟨e, hm, ht⟩ | ⟨a, s', t', hm, ht, hr⟩
  · simpa [Tx.commit, hm, ht] using hs
  · simpa [Tx.commit, hm, ht] using hr

lemma pure (a : α) : Twin R (Pure.pure a : Tx σ ε α) (Pure.pure a : Tx τ ε α) :=
  fun s t hs => .inr ⟨a, s, t, rfl, rfl, hs⟩

lemma fail : Twin R (Tx.fail e : Tx σ ε α) (Tx.fail e : Tx τ ε α) :=
  fun _ _ _ => .inl ⟨.err e, rfl, rfl⟩

lemma trap : Twin R (Tx.trap : Tx σ ε α) (Tx.trap : Tx τ ε α) :=
  fun _ _ _ => .inl ⟨.trap, rfl, rfl⟩

lemma read {f : σ → α} {g : τ → α} (h : ∀ s t, R s t → f s = g t) :
    Twin R (Tx.read f : Tx σ ε α) (Tx.read g : Tx τ ε α) :=
  fun s t hs => .inr ⟨f s, s, t, rfl, by rw [h s t hs]; rfl, hs⟩

lemma update {f : σ → σ} {g : τ → τ} (h : ∀ s t, R s t → R (f s) (g t)) :
    Twin R (Tx.update f : Tx σ ε Unit) (Tx.update g : Tx τ ε Unit) :=
  fun s t hs => .inr ⟨(), f s, g t, rfl, rfl, h s t hs⟩

lemma reject : Twin R (Tx.reject c e : Tx σ ε Unit) (Tx.reject c e : Tx τ ε Unit) := by
  by_cases hc : c
  · simpa [Tx.reject, hc] using fail
  · simpa [Tx.reject, hc] using pure ()

lemma demand : Twin R (Tx.demand c : Tx σ ε Unit) (Tx.demand c : Tx τ ε Unit) := by
  by_cases hc : c
  · simpa [Tx.demand, hc] using pure ()
  · simpa [Tx.demand, hc] using trap

/-- What passes a check may rely on it. -/
lemma reject_then {f : Unit → Tx σ ε β} {g : Unit → Tx τ ε β}
    (h : ¬ c → Twin R (f ()) (g ())) : Twin R (Tx.reject c e >>= f) (Tx.reject c e >>= g) := by
  intro s t hs
  by_cases hc : c
  · exact .inl ⟨.err e, by simp [Tx.reject, hc], by simp [Tx.reject, hc]⟩
  · simpa [Tx.reject, hc] using h hc s t hs

lemma unwrap (o : Option α) :
    Twin R (Tx.unwrap o e : Tx σ ε α) (Tx.unwrap o e : Tx τ ε α) := by
  cases o with
  | none => exact fail
  | some a => exact pure a

lemma whenever {m : Tx σ ε Unit} {n : Tx τ ε Unit} (h : Twin R m n) :
    Twin R (Tx.whenever c m) (Tx.whenever c n) := by
  by_cases hc : c
  · simpa [Tx.whenever, hc] using h
  · simpa [Tx.whenever, hc] using pure ()

lemma bind {f : α → Tx σ ε β} {g : α → Tx τ ε β} (hm : Twin R m n)
    (hf : ∀ a, Twin R (f a) (g a)) : Twin R (m >>= f) (n >>= g) := by
  intro s t hs
  rcases hm s t hs with ⟨e, hms, hnt⟩ | ⟨a, s', t', hms, hnt, hr⟩
  · exact .inl ⟨e, by simp [Bind.bind, hms], by simp [Bind.bind, hnt]⟩
  · rw [bind_of_ok hms, bind_of_ok hnt]
    exact hf a s' t' hr

lemma fold {body : β → α → Tx σ ε β} {body' : β → α → Tx τ ε β}
    (h : ∀ b a, Twin R (body b a) (body' b a)) (b : β) (as : List α) :
    Twin R (Tx.fold body b as) (Tx.fold body' b as) := by
  induction as generalizing b with
  | nil => exact pure b
  | cons a as ih => exact bind (h b a) ih

end Twin

end StellarTags.Library.Transactions.Tx

namespace StellarTags.Library.Runs

variable {σ ι ε : Type} {step : ι → σ → σ} {emit : σ → ι → List ε} {concerns : ι → Bool}
  {R : σ → σ → Prop} {P : σ → ι → Prop}

/-- Inputs of no concern can be left out, as far as `R` and what is emitted tell. -/
lemma trace_purge (hboth : ∀ i s t, R s t → concerns i = true →
      emit s i = emit t i ∧ R (step i s) (step i t))
    (hskip : ∀ i s t, R s t → concerns i = false → P s i → emit s i = [] ∧ R (step i s) t)
    {s t : σ} {is : List ι} (hs : R s t) (hp : Along step P s is) :
    trace step emit s is = trace step emit t (is.filter concerns) ∧
      R (run step s is) (run step t (is.filter concerns)) := by
  induction is generalizing s t with
  | nil => exact ⟨rfl, hs⟩
  | cons i is ih =>
    cases hc : concerns i with
    | true =>
      obtain ⟨he, hr⟩ := hboth i s t hs hc
      obtain ⟨ht, hrun⟩ := ih hr hp.2
      have hf : (i :: is).filter concerns = i :: is.filter concerns := by simp [hc]
      rw [hf, trace, trace, he, ht, run_cons, run_cons]
      exact ⟨rfl, hrun⟩
    | false =>
      obtain ⟨he, hr⟩ := hskip i s t hs hc hp.1
      obtain ⟨ht, hrun⟩ := ih hr hp.2
      have hf : (i :: is).filter concerns = is.filter concerns := by simp [hc]
      rw [hf, trace, he, run_cons]
      exact ⟨ht, hrun⟩

end StellarTags.Library.Runs
