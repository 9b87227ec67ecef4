import Mathlib.Order.RelClasses
import Mathlib.Tactic.Common

/-! Runs of a system that takes one input after another. -/

namespace StellarTags.Library.Runs

variable {σ ι : Type} (step : ι → σ → σ)

def run (s : σ) (is : List ι) : σ := is.foldl (fun s i => step i s) s

/-- Every input satisfies `P` in the state it meets. -/
def Along (P : σ → ι → Prop) : σ → List ι → Prop
  | _, [] => True
  | s, i :: is => P s i ∧ Along P (step i s) is

def trace {ε : Type} (emit : σ → ι → List ε) : σ → List ι → List ε
  | _, [] => []
  | s, i :: is => emit s i ++ trace emit (step i s) is

def Reachable (init s : σ) : Prop := ∃ is, run step init is = s

@[simp] lemma run_nil (s : σ) : run step s [] = s := rfl

@[simp] lemma run_cons (s : σ) (i : ι) (is : List ι) :
    run step s (i :: is) = run step (step i s) is := rfl

@[simp] lemma along_nil (P : σ → ι → Prop) (s : σ) : Along step P s [] := trivial

@[simp] lemma along_cons (P : σ → ι → Prop) (s : σ) (i : ι) (is : List ι) :
    Along step P s (i :: is) ↔ P s i ∧ Along step P (step i s) is := Iff.rfl

instance decidableAlong (P : σ → ι → Prop) [∀ s i, Decidable (P s i)] :
    ∀ s is, Decidable (Along step P s is)
  | _, [] => .isTrue trivial
  | s, i :: is =>
    have := decidableAlong P (step i s) is
    inferInstanceAs (Decidable (P s i ∧ Along step P (step i s) is))

lemma along_append (P : σ → ι → Prop) (s : σ) (is js : List ι) :
    Along step P s (is ++ js) ↔ Along step P s is ∧ Along step P (run step s is) js := by
  induction is generalizing s with
  | nil => simp
  | cons i is ih => simp [ih, and_assoc]

lemma along_of_forall {P : σ → ι → Prop} (h : ∀ s i, P s i) (s : σ) (is : List ι) :
    Along step P s is := by
  induction is generalizing s with
  | nil => trivial
  | cons i is ih => exact ⟨h s i, ih _⟩

lemma along_of_mem {P : ι → Prop} {is : List ι} (h : ∀ i ∈ is, P i) (s : σ) :
    Along step (fun _ i => P i) s is := by
  induction is generalizing s with
  | nil => trivial
  | cons i is ih => exact ⟨h i (by simp), ih (fun j hj => h j (by simp [hj])) _⟩

lemma along_and (P Q : σ → ι → Prop) (s : σ) (is : List ι) :
    Along step (fun s i => P s i ∧ Q s i) s is ↔ Along step P s is ∧ Along step Q s is := by
  induction is generalizing s with
  | nil => simp
  | cons i is ih => simp [ih, and_and_and_comm]

lemma run_append (s : σ) (is js : List ι) :
    run step s (is ++ js) = run step (run step s is) js := List.foldl_append

lemma trace_append {ε : Type} (emit : σ → ι → List ε) (s : σ) (is js : List ι) :
    trace step emit s (is ++ js) = trace step emit s is ++ trace step emit (run step s is) js := by
  induction is generalizing s with
  | nil => rfl
  | cons i is ih =>
    rw [List.cons_append, trace, trace, ih, List.append_assoc]
    rfl

variable {step}

lemma along_mono {P Q : σ → ι → Prop} (h : ∀ s i, P s i → Q s i) {s : σ} {is : List ι}
    (hp : Along step P s is) : Along step Q s is := by
  induction is generalizing s with
  | nil => trivial
  | cons i is ih => exact ⟨h _ _ hp.1, ih hp.2⟩

lemma run_invariant {I : σ → Prop} {P : σ → ι → Prop}
    (hstep : ∀ s i, I s → P s i → I (step i s)) {s : σ} {is : List ι}
    (hs : I s) (hp : Along step P s is) : I (run step s is) := by
  induction is generalizing s with
  | nil => exact hs
  | cons i is ih => exact ih (hstep s i hs hp.1) hp.2

lemma along_invariant {I : σ → Prop} {P Q : σ → ι → Prop}
    (hstep : ∀ s i, I s → P s i → I (step i s)) (hq : ∀ s i, I s → P s i → Q s i)
    {s : σ} {is : List ι} (hs : I s) (hp : Along step P s is) : Along step Q s is := by
  induction is generalizing s with
  | nil => trivial
  | cons i is ih => exact ⟨hq s i hs hp.1, ih (hstep s i hs hp.1) hp.2⟩

/-- A run that ends well met `P` all along, if what fails it can never be made good. -/
lemma along_of_not_bad {I B : σ → Prop} {P : σ → ι → Prop} (hI : ∀ s i, I s → I (step i s))
    (hb : ∀ s i, B s → B (step i s)) (hp : ∀ s i, I s → ¬ P s i → B (step i s))
    {s : σ} {is : List ι} (hs : I s) (h : ¬ B (run step s is)) : Along step P s is := by
  induction is generalizing s with
  | nil => trivial
  | cons i is ih =>
    have hnext : ¬ B (step i s) := by
      intro hfirst
      have hlast : B (run step (step i s) is) :=
        run_invariant (P := fun _ _ => True) (fun s i hs _ => hb s i hs) hfirst
          (along_of_forall step (fun _ _ => trivial) _ is)
      exact h hlast
    exact ⟨by_contra fun hfails => hnext (hp s i hs hfails), ih (hI s i hs) h⟩

/-- What `P` gives in the states that can be reached it gives along a run. -/
lemma along_reachable {init : σ} {P Q : σ → ι → Prop}
    (hpq : ∀ s i, Reachable step init s → P s i → Q s i) {is : List ι} (hp : Along step P init is) :
    Along step Q init is := by
  have hnext (s : σ) (i : ι) (hs : Reachable step init s) (_ : P s i) :
      Reachable step init (step i s) := by
    obtain ⟨before, rfl⟩ := hs
    exact ⟨before ++ [i], by simp [run]⟩
  exact along_invariant hnext hpq ⟨[], rfl⟩ hp

/-- What every step preserves of a log and the state, where the inputs satisfy `P`, holds of the trace
and the state reached. -/
lemma trace_invariant_along {ε : Type} {emit : σ → ι → List ε} {I : List ε → σ → Prop}
    {P : σ → ι → Prop} (hstep : ∀ log s i, I log s → P s i → I (log ++ emit s i) (step i s))
    {log : List ε} {s : σ} {is : List ι} (hs : I log s) (hp : Along step P s is) :
    I (log ++ trace step emit s is) (run step s is) := by
  induction is generalizing log s with
  | nil => simpa [trace] using hs
  | cons i is ih =>
    have h := ih (hstep log s i hs hp.1) hp.2
    rwa [List.append_assoc] at h

lemma trace_invariant {ε : Type} {emit : σ → ι → List ε} {I : List ε → σ → Prop}
    (hstep : ∀ log s i, I log s → I (log ++ emit s i) (step i s)) {log : List ε} {s : σ}
    (hs : I log s) (is : List ι) : I (log ++ trace step emit s is) (run step s is) :=
  trace_invariant_along (fun log s i h _ => hstep log s i h) hs
    (along_of_forall step (fun _ _ => trivial) s is)

/-- Likewise where inputs come in the order of their times, and each satisfies `P`; the last time
is kept with the log. -/
lemma trace_invariant_timed {ε τ : Type} [LE τ] {emit : σ → ι → List ε} {time : ι → τ}
    {I : τ → List ε → σ → Prop} {P : σ → ι → Prop}
    (hstep : ∀ now log s i, I now log s → now ≤ time i → P s i →
      I (time i) (log ++ emit s i) (step i s))
    {now : τ} {log : List ε} {s : σ} {is : List ι} (hs : I now log s)
    (ht : (now :: is.map time).Pairwise (· ≤ ·)) (hp : Along step P s is) :
    ∃ later, I later (log ++ trace step emit s is) (run step s is) := by
  induction is generalizing now log s with
  | nil => exact ⟨now, by simpa [trace] using hs⟩
  | cons i is ih =>
    obtain ⟨hnow, hrest⟩ := List.pairwise_cons.mp ht
    have hi := hstep now log s i hs (hnow _ (by simp)) hp.1
    obtain ⟨later, hl⟩ := ih hi hrest hp.2
    rw [List.append_assoc] at hl
    exact ⟨later, hl⟩

/-- Two systems emit the same where what relates them is kept from input to input. -/
lemma trace_eq {ε σ' τ : Type} [LE τ] {step' : ι → σ' → σ'} {emit : σ → ι → List ε}
    {emit' : σ' → ι → List ε} {time : ι → τ} {R : τ → σ → σ' → Prop} {P : ι → Prop}
    (hstep : ∀ now s t i, R now s t → now ≤ time i → P i →
      emit s i = emit' t i ∧ R (time i) (step i s) (step' i t))
    {now : τ} {s : σ} {t : σ'} {is : List ι} (hst : R now s t)
    (ht : (now :: is.map time).Pairwise (· ≤ ·)) (hp : ∀ i ∈ is, P i) :
    trace step emit s is = trace step' emit' t is := by
  induction is generalizing now s t with
  | nil => rfl
  | cons i is ih =>
    obtain ⟨hnow, hrest⟩ := List.pairwise_cons.mp ht
    obtain ⟨hemit, hnext⟩ := hstep now s t i hst (hnow _ (by simp)) (hp i (by simp))
    rw [trace, trace, hemit, ih hnext hrest fun j hj => hp j (by simp [hj])]

/-- Parties that each take a step of their own, one after another: `B` is what holds of each before its
step, `A` what holds after, and `C` throughout. -/
lemma run_each {κ : Type} {f : κ → ι} {C : σ → Prop} {B A : κ → σ → Prop} {ks : List κ}
    (hstep : ∀ s, ∀ k ∈ ks, C s → B k s → C (step (f k) s) ∧ A k (step (f k) s))
    (hframe : ∀ s, ∀ j ∈ ks, ∀ k ∈ ks, j ≠ k → C s → B k s →
      (B j s → B j (step (f k) s)) ∧ (A j s → A j (step (f k) s)))
    (hks : ks.Nodup) {s : σ} (hs : C s) (hbefore : ∀ k ∈ ks, B k s) :
    C (run step s (ks.map f)) ∧ ∀ k ∈ ks, A k (run step s (ks.map f)) := by
  suffices h : ∀ todo done, ks = done ++ todo → ∀ s, C s → (∀ k ∈ todo, B k s) →
      (∀ k ∈ done, A k s) →
        C (run step s (todo.map f)) ∧ ∀ k ∈ ks, A k (run step s (todo.map f)) by
    exact h ks [] rfl s hs hbefore fun k hk => absurd hk List.not_mem_nil
  intro todo
  induction todo with
  | nil =>
    rintro done rfl s hs - hdone
    rw [List.append_nil]
    exact ⟨hs, hdone⟩
  | cons k todo ih =>
    rintro done rfl s hs htodo hdone
    obtain ⟨-, hnodup, hapart⟩ := List.nodup_append.mp hks
    have hk : k ∈ done ++ k :: todo := List.mem_append_right _ List.mem_cons_self
    have hbeforek := htodo k List.mem_cons_self
    obtain ⟨hnext, hafter⟩ := hstep s k hk hs hbeforek
    refine ih (done ++ [k]) (List.append_cons ..) _ hnext (fun j hj => ?_) fun j hj => ?_
    · have hne : j ≠ k := by
        rintro rfl
        exact (List.nodup_cons.mp hnodup).1 hj
      have hmem : j ∈ done ++ k :: todo := List.mem_append_right _ (List.mem_cons_of_mem k hj)
      exact (hframe s j hmem k hk hne hs hbeforek).1 (htodo j (List.mem_cons_of_mem k hj))
    · obtain hj | hj := List.mem_append.mp hj
      · have hne : j ≠ k := hapart j hj k List.mem_cons_self
        exact (hframe s j (List.mem_append_left _ hj) k hk hne hs hbeforek).2 (hdone j hj)
      · obtain rfl := List.mem_singleton.mp hj
        exact hafter

lemma reachable_invariant {I : σ → Prop} (hstep : ∀ s i, I s → I (step i s)) {init s : σ}
    (hinit : I init) (h : Reachable step init s) : I s := by
  obtain ⟨is, rfl⟩ := h
  exact run_invariant (fun s i hs _ => hstep s i hs) hinit
    (along_of_forall step (fun _ _ => trivial) init is)

end StellarTags.Library.Runs
