import Mathlib.Data.List.Infix
import Mathlib.Tactic.Common

/-! Codes none of whose words begins another: what is read off one after the other, and side by
side. -/

namespace StellarTags.Library.PrefixCodes

variable {α β σ : Type} {f : α → List σ} {g : β → List σ} {a b : α} {r r' : List σ}

def PrefixFree (f : α → List σ) : Prop := ∀ a b, f a <+: f b → a = b

namespace PrefixFree

lemma injective (hf : PrefixFree f) : Function.Injective f := by
  intro a b h
  exact hf a b (h ▸ List.prefix_refl _)

lemma append_inj (hf : PrefixFree f) (h : f a ++ r = f b ++ r') : a = b ∧ r = r' := by
  have hword : a = b := by
    have ha : f a <+: f b ++ r' := h ▸ List.prefix_append _ _
    rcases List.prefix_or_prefix_of_prefix ha (List.prefix_append _ _) with hab | hba
    · exact hf a b hab
    · exact (hf b a hba).symm
  subst hword
  exact ⟨rfl, List.append_cancel_left h⟩

lemma of_length (hf : Function.Injective f) (hlength : ∀ a b, (f a).length = (f b).length) :
    PrefixFree f := by
  intro a b h
  exact hf (h.eq_of_length (hlength a b))

lemma comap {i : β → α} (hf : PrefixFree f) (hi : Function.Injective i) :
    PrefixFree fun b => f (i b) := by
  intro a b h
  exact hi (hf _ _ h)

lemma append (hf : PrefixFree f) (hg : PrefixFree g) :
    PrefixFree fun p : α × β => f p.1 ++ g p.2 := by
  rintro ⟨a, b⟩ ⟨a', b'⟩ ⟨r, h⟩
  rw [List.append_assoc] at h
  obtain ⟨rfl, hrest⟩ := hf.append_inj h
  obtain rfl := hg b b' ⟨r, hrest⟩
  rfl

lemma labelled (label : List σ) (hf : PrefixFree f) : PrefixFree fun a => label ++ f a := by
  intro a b h
  exact hf a b ((List.prefix_append_right_inj label).mp h)

lemma delimited {head body : α → List σ} (hhead : ∀ a b, (head a).length = (head b).length)
    (hbody : ∀ a b, head a = head b → (body a).length = (body b).length)
    (hinj : ∀ a b, head a = head b → body a = body b → a = b) :
    PrefixFree fun a => head a ++ body a := by
  rintro a b ⟨r, h⟩
  rw [List.append_assoc] at h
  obtain ⟨hheads, hrest⟩ := List.append_inj h (hhead a b)
  have hbodies : body a <+: body b := ⟨r, hrest⟩
  exact hinj a b hheads (hbodies.eq_of_length (hbody a b hheads))

lemma unary {x y : σ} (hxy : x ≠ y) : PrefixFree fun n : ℕ => List.replicate n x ++ [y] := by
  intro n m h
  change List.replicate n x ++ [y] <+: List.replicate m x ++ [y] at h
  induction n generalizing m with
  | zero =>
    cases m with
    | zero => rfl
    | succ m =>
      rw [List.replicate_succ, List.cons_append, List.replicate_zero, List.nil_append,
        List.cons_prefix_cons] at h
      exact absurd h.1.symm hxy
  | succ n ih =>
    cases m with
    | zero =>
      rw [List.replicate_succ, List.cons_append, List.replicate_zero, List.nil_append,
        List.cons_prefix_cons] at h
      exact absurd h.1 hxy
    | succ m =>
      rw [List.replicate_succ, List.replicate_succ, List.cons_append, List.cons_append,
        List.prefix_cons_inj] at h
      rw [ih m h]

end PrefixFree

end StellarTags.Library.PrefixCodes
