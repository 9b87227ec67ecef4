import Mathlib.Data.List.Forall2
import Mathlib.Tactic.Common

/-! Records of fields as text: fields between separators, quoted where they must be, and a terminator
at the end of each record. -/

namespace StellarTags.Library.DelimitedText

/-- The marks of a format, and which characters a field is quoted for. -/
structure Format (U : Type) where
  quote : U
  separator : U
  /-- The terminator is this, and what follows it. -/
  ending : U
  tail : List U
  special : U → Bool
  quote_ne_separator : quote ≠ separator
  quote_ne_ending : quote ≠ ending
  separator_ne_ending : separator ≠ ending
  special_quote : special quote = true
  special_separator : special separator = true
  special_ending : special ending = true

variable {U : Type} [DecidableEq U] (f : Format U)

namespace Format

/-- The field with its quotes doubled. -/
def doubled : List U → List U
  | [] => []
  | u :: field => if u = f.quote then u :: u :: doubled field else u :: doubled field

def quoted (field : List U) : List U := f.quote :: (f.doubled field ++ [f.quote])

/-- A field that is quoted at least where it must be. -/
def Writes (field text : List U) : Prop :=
  text = f.quoted field ∨ (text = field ∧ ∀ u ∈ field, f.special u = false)

/-- The text of a record of some fields. -/
def line (texts : List (List U)) : List U := [f.separator].intercalate texts ++ f.ending :: f.tail

/-- What a quoted field says, after its first quote. -/
def readQuoted : List U → Option (List U × List U)
  | [] => none
  | [u] => if u = f.quote then some ([], []) else none
  | u :: v :: text =>
    if u = f.quote then
      if v = f.quote then (readQuoted text).map fun r => (u :: r.1, r.2) else some ([], v :: text)
    else (readQuoted (v :: text)).map fun r => (u :: r.1, r.2)

def readField (text : List U) : Option (List U × List U) :=
  if text.head? = some f.quote then f.readQuoted text.tail
  else
    let bare := text.takeWhile fun u => u ≠ f.separator ∧ u ≠ f.ending
    some (bare, text.drop bare.length)

/-- The fields of a record, and what comes after it. -/
def readRecord : ℕ → List U → Option (List (List U) × List U)
  | 0, _ => none
  | fuel + 1, text =>
    match f.readField text with
    | none => none
    | some (field, rest) =>
      match rest with
      | [] => none
      | u :: rest =>
        if u = f.separator then (readRecord fuel rest).map fun r => (field :: r.1, r.2)
        else if u = f.ending ∧ f.tail <+: rest then some ([field], rest.drop f.tail.length)
        else none

def readRecords : ℕ → List U → Option (List (List (List U)))
  | 0, _ => none
  | fuel + 1, text =>
    if text = [] then some []
    else
      match f.readRecord text.length text with
      | none => none
      | some (fields, rest) => (readRecords fuel rest).map (fields :: ·)

def read (text : List U) : Option (List (List (List U))) := f.readRecords (text.length + 1) text

end Format

variable {f} {field rest text : List U} {u : U}

lemma doubled_plain (h : ∀ u ∈ field, u ≠ f.quote) : f.doubled field = field := by
  induction field with
  | nil => rfl
  | cons u field ih =>
    rw [Format.doubled, if_neg (h u List.mem_cons_self), ih fun v hv => h v (List.mem_cons_of_mem _ hv)]

lemma readQuoted_cons_of_ne (hu : u ≠ f.quote) (text : List U) :
    f.readQuoted (u :: text) = (f.readQuoted text).map fun r => (u :: r.1, r.2) := by
  cases text with
  | nil => exact if_neg hu
  | cons v text => exact if_neg hu

lemma readQuoted_doubled (hrest : rest.head? ≠ some f.quote) :
    f.readQuoted (f.doubled field ++ f.quote :: rest) = some (field, rest) := by
  induction field with
  | nil =>
    cases rest with
    | nil => exact if_pos rfl
    | cons v rest =>
      have hv : v ≠ f.quote := fun h => hrest (congrArg some h)
      exact (if_pos rfl).trans (if_neg hv)
  | cons u field ih =>
    rw [Format.doubled]
    by_cases hu : u = f.quote
    · rw [if_pos hu, List.cons_append, List.cons_append, Format.readQuoted, if_pos hu, if_pos hu, ih,
        Option.map_some]
    · rw [if_neg hu, List.cons_append, readQuoted_cons_of_ne hu, ih, Option.map_some]

/-- What follows a field begins with a mark that ends one. -/
def Ends (f : Format U) (rest : List U) : Prop :=
  ∃ text, rest = f.separator :: text ∨ rest = f.ending :: text

lemma readField_text (htext : f.Writes field text) (hrest : Ends f rest) :
    f.readField (text ++ rest) = some (field, rest) := by
  have hhead : rest.head? ≠ some f.quote := by
    obtain ⟨tail, rfl | rfl⟩ := hrest
    · exact fun h => f.quote_ne_separator (Option.some.inj h).symm
    · exact fun h => f.quote_ne_ending (Option.some.inj h).symm
  obtain rfl | ⟨rfl, hplain⟩ := htext
  · rw [Format.readField, Format.quoted, List.cons_append, List.head?_cons, if_pos rfl, List.tail_cons,
      List.append_assoc, List.singleton_append, readQuoted_doubled hhead]
  · have hstart : (text ++ rest).head? ≠ some f.quote := by
      cases text with
      | nil => exact hhead
      | cons u text =>
        intro h
        have hu := hplain u List.mem_cons_self
        rw [Option.some.inj h, f.special_quote] at hu
        cases hu
    have hbare : (text ++ rest).takeWhile (fun u => u ≠ f.separator ∧ u ≠ f.ending) = text := by
      rw [List.takeWhile_append_of_pos]
      · obtain ⟨tail, rfl | rfl⟩ := hrest
        · simp
        · simp
      · intro u hu
        have hspecial := hplain u hu
        refine decide_eq_true ⟨?_, ?_⟩
        · rintro rfl
          rw [f.special_separator] at hspecial
          cases hspecial
        · rintro rfl
          rw [f.special_ending] at hspecial
          cases hspecial
    rw [Format.readField, if_neg hstart]
    simp only [hbare, List.drop_left]

section Records

variable {fields texts : List (List U)} {records lines : List (List (List U))} {fuel : ℕ}

omit [DecidableEq U] in
lemma line_singleton (text : List U) : f.line [text] = text ++ f.ending :: f.tail := by
  rw [Format.line, List.intercalate_singleton]

omit [DecidableEq U] in
lemma line_cons (text next : List U) (texts : List (List U)) :
    f.line (text :: next :: texts) = text ++ f.separator :: f.line (next :: texts) := by
  rw [Format.line, Format.line, List.intercalate_cons_cons, List.append_assoc, List.append_assoc]
  rfl

omit [DecidableEq U] in
lemma length_le_line (h : texts ≠ []) : texts.length ≤ (f.line texts).length := by
  induction texts with
  | nil => exact absurd rfl h
  | cons text texts ih =>
    cases texts with
    | nil =>
      rw [line_singleton, List.length_append]
      exact Nat.le_add_left_of_le (Nat.succ_le_succ (Nat.zero_le _))
    | cons next texts =>
      have hlater := ih (List.cons_ne_nil _ _)
      rw [line_cons, List.length_append, List.length_cons (a := text), List.length_cons (a := f.separator)]
      omega

lemma readRecord_line (h : List.Forall₂ f.Writes fields texts) (hne : fields ≠ [])
    (hfuel : fields.length ≤ fuel) (rest : List U) :
    f.readRecord fuel (f.line texts ++ rest) = some (fields, rest) := by
  induction h generalizing fuel with
  | nil => exact absurd rfl hne
  | @cons field text fields texts htext hlater ih =>
    obtain ⟨fuel, rfl⟩ : ∃ n, fuel = n + 1 := Nat.exists_eq_succ_of_ne_zero (by
      rw [List.length_cons] at hfuel
      omega)
    rw [List.length_cons, Nat.succ_le_succ_iff] at hfuel
    cases hlater with
    | nil =>
      rw [line_singleton, List.append_assoc, List.cons_append, Format.readRecord,
        readField_text htext ⟨_, .inr rfl⟩]
      simp only
      rw [if_neg f.separator_ne_ending.symm, if_pos ⟨trivial, List.prefix_append _ _⟩, List.drop_left]
    | cons hnext hlater =>
      rw [line_cons, List.append_assoc, List.cons_append, Format.readRecord,
        readField_text htext ⟨_, .inl rfl⟩]
      simp only
      rw [if_pos trivial, ih (List.cons_ne_nil _ _) hfuel, Option.map_some]

/-- Records that are written line by line are read back as they were. -/
theorem read_lines (h : List.Forall₂ (List.Forall₂ f.Writes) records lines)
    (hne : ∀ fields ∈ records, fields ≠ []) : f.read (lines.flatMap f.line) = some records := by
  have hreads {fuel : ℕ} (hfuel : (lines.flatMap f.line).length < fuel) :
      f.readRecords fuel (lines.flatMap f.line) = some records := by
    induction h generalizing fuel with
    | nil =>
      obtain ⟨fuel, rfl⟩ := Nat.exists_eq_succ_of_ne_zero (Nat.ne_zero_of_lt hfuel)
      exact if_pos rfl
    | @cons fields texts records lines hfields _ ih =>
      obtain ⟨fuel, rfl⟩ := Nat.exists_eq_succ_of_ne_zero (Nat.ne_zero_of_lt hfuel)
      have hfirst := hne fields List.mem_cons_self
      have hlength := hfields.length_eq
      have hfilled := List.length_pos_iff.mpr hfirst
      have hlong : texts.length ≤ (f.line texts).length := by
        refine length_le_line (List.length_pos_iff.mp ?_)
        omega
      rw [List.flatMap_cons, List.length_append] at hfuel
      rw [List.flatMap_cons, Format.readRecords, if_neg, readRecord_line hfields hfirst]
      · simp only
        rw [ih (fun fields h => hne fields (List.mem_cons_of_mem _ h)) (by omega), Option.map_some]
      · rw [List.length_append]
        omega
      · refine List.append_ne_nil_of_left_ne_nil (List.ne_nil_of_length_pos ?_) _
        omega
  exact hreads (Nat.lt_succ_self _)

end Records

end StellarTags.Library.DelimitedText
