import Mathlib.Tactic

/-! An amount divided in proportion to parts: every share is rounded down, and the first ones get
what rounding leaves over, one unit each. -/

namespace StellarTags.Library.Apportionment

def floors (amount whole : ℤ) (parts : List ℤ) : List ℤ :=
  parts.map fun part => (amount * part).tdiv whole

def topped (remainder : ℤ) (shares : List ℤ) (first : ℕ) : List ℤ :=
  (shares.zipIdx first).map fun share => if (share.2 : ℤ) < remainder then share.1 + 1 else share.1

def apportioned (amount : ℤ) (parts : List ℤ) : List ℤ :=
  topped (amount - (floors amount parts.sum parts).sum) (floors amount parts.sum parts) 0

/-- What rounding cuts off the shares, in parts of the whole. -/
def cuts (amount whole : ℤ) (parts : List ℤ) : List ℤ :=
  parts.map fun part => (amount * part).tmod whole

variable {amount whole : ℤ} {parts : List ℤ}

@[simp] lemma length_floors : (floors amount whole parts).length = parts.length :=
  List.length_map _

lemma floors_nonneg (ha : 0 ≤ amount) (hw : 0 ≤ whole) (hparts : ∀ part ∈ parts, 0 ≤ part) :
    ∀ share ∈ floors amount whole parts, 0 ≤ share := by
  intro share hshare
  obtain ⟨part, hpart, rfl⟩ := List.mem_map.mp hshare
  exact Int.tdiv_nonneg (mul_nonneg ha (hparts part hpart)) hw

lemma sum_floors_cuts (amount whole : ℤ) (parts : List ℤ) :
    (floors amount whole parts).sum * whole + (cuts amount whole parts).sum = amount * parts.sum := by
  induction parts with
  | nil => simp [floors, cuts]
  | cons part parts ih =>
    have hpart := Int.mul_tdiv_add_tmod (amount * part) whole
    rw [floors, cuts] at ih ⊢
    simp only [List.map_cons, List.sum_cons]
    linarith

lemma abs_sum_le {bound : ℤ} {shares : List ℤ} (h : ∀ share ∈ shares, |share| ≤ bound) :
    |shares.sum| ≤ shares.length * bound := by
  induction shares with
  | nil => simp
  | cons share shares ih =>
    obtain ⟨hshare, hrest⟩ := List.forall_mem_cons.mp h
    have hsum := abs_add_le share shares.sum
    have htail := ih hrest
    rw [List.sum_cons, List.length_cons]
    push_cast
    linarith

lemma abs_sum_cuts_le (amount : ℤ) (parts : List ℤ) (hw : 0 < whole) :
    |(cuts amount whole parts).sum| ≤ parts.length * whole := by
  have hbound : ∀ cut ∈ cuts amount whole parts, |cut| ≤ whole := by
    intro cut hcut
    obtain ⟨part, -, rfl⟩ := List.mem_map.mp hcut
    exact abs_le.mpr ⟨(Int.lt_tmod_of_pos _ hw).le, (Int.tmod_lt_of_pos _ hw).le⟩
  have hsum := abs_sum_le hbound
  rwa [cuts, List.length_map] at hsum

lemma sum_floors (ha : 0 ≤ amount) (hw : 0 < whole) (hparts : ∀ part ∈ parts, 0 ≤ part) :
    (floors amount whole parts).sum * whole ≤ amount * parts.sum ∧
      amount * parts.sum ≤ ((floors amount whole parts).sum + parts.length) * whole := by
  have hsum := sum_floors_cuts amount whole parts
  have hleast : 0 ≤ (cuts amount whole parts).sum := by
    apply List.sum_nonneg
    intro cut hcut
    obtain ⟨part, hpart, rfl⟩ := List.mem_map.mp hcut
    exact Int.tmod_nonneg _ (mul_nonneg ha (hparts part hpart))
  obtain ⟨-, hmost⟩ := abs_le.mp (abs_sum_cuts_le amount parts hw)
  rw [add_mul]
  constructor <;> linarith

lemma sum_topped (remainder : ℤ) (shares : List ℤ) (first : ℕ) :
    (topped remainder shares first).sum =
      shares.sum + max 0 (min (remainder - first) shares.length) := by
  induction shares generalizing first with
  | nil =>
    rw [topped]
    simp
  | cons share shares ih =>
    have hrest := ih (first + 1)
    rw [topped] at hrest ⊢
    rw [List.zipIdx_cons, List.map_cons, List.sum_cons, hrest, List.sum_cons, List.length_cons]
    push_cast
    split_ifs <;> omega

lemma le_topped {remainder : ℤ} {shares : List ℤ} {first : ℕ} (h : ∀ share ∈ shares, 0 ≤ share) :
    ∀ share ∈ topped remainder shares first, 0 ≤ share := by
  intro share hshare
  obtain ⟨⟨s, i⟩, hmem, rfl⟩ := List.mem_map.mp hshare
  have hs := h s (List.fst_mem_of_mem_zipIdx hmem)
  dsimp only
  split_ifs <;> omega

lemma sum_apportioned (ha : 0 ≤ amount) (hw : 0 < parts.sum) (hparts : ∀ part ∈ parts, 0 ≤ part) :
    (apportioned amount parts).sum = amount := by
  obtain ⟨hlow, hhigh⟩ := sum_floors ha hw hparts
  have hle := le_of_mul_le_mul_right hlow hw
  have hge := le_of_mul_le_mul_right hhigh hw
  rw [apportioned, sum_topped, length_floors]
  push_cast
  omega

lemma apportioned_nonneg (ha : 0 ≤ amount) (hparts : ∀ part ∈ parts, 0 ≤ part) :
    ∀ share ∈ apportioned amount parts, 0 ≤ share :=
  le_topped (floors_nonneg ha (List.sum_nonneg hparts) hparts)

section Cuts

variable {remainder share part : ℤ} {shares : List ℤ} {i : ℕ}

@[simp] lemma length_topped (remainder : ℤ) (shares : List ℤ) (first : ℕ) :
    (topped remainder shares first).length = shares.length := by
  simp [topped]

lemma length_apportioned (amount : ℤ) (parts : List ℤ) :
    (apportioned amount parts).length = parts.length := by
  rw [apportioned, length_topped, length_floors]

lemma floors_self (parts : List ℤ) (ha : amount ≠ 0) : floors amount amount parts = parts := by
  rw [floors]
  conv_rhs => rw [← List.map_id parts]
  exact List.map_congr_left fun part _ => Int.mul_tdiv_cancel_left part ha

lemma remainder_mul (amount : ℤ) (parts : List ℤ) :
    (amount - (floors amount parts.sum parts).sum) * parts.sum =
      (cuts amount parts.sum parts).sum := by
  have hsum := sum_floors_cuts amount parts.sum parts
  linarith

lemma lt_remainder (amount : ℤ) (hw : 0 < parts.sum) : (i : ℤ) < amount -
      (floors amount parts.sum parts).sum ↔ i * parts.sum < (cuts amount parts.sum parts).sum := by
  rw [← remainder_mul amount parts, mul_lt_mul_iff_left₀ hw]

lemma topped_zero (shares : List ℤ) (first : ℕ) : topped 0 shares first = shares := by
  induction shares generalizing first with
  | nil => rfl
  | cons share shares ih =>
    have hrest := ih (first + 1)
    have hfirst : ¬ (first : ℤ) < 0 := not_lt.mpr (Int.natCast_nonneg first)
    rw [topped] at hrest ⊢
    rw [List.zipIdx_cons, List.map_cons, hrest, if_neg hfirst]

lemma getElem?_topped (remainder : ℤ) (shares : List ℤ) (i : ℕ) : (topped remainder shares 0)[i]? =
    shares[i]?.map fun share => if (i : ℤ) < remainder then share + 1 else share := by
  simp [topped, List.getElem?_zipIdx, Option.map_map, Function.comp_def]

lemma getElem?_apportioned (amount : ℤ) (i : ℕ) (hw : 0 < parts.sum) :
    (apportioned amount parts)[i]? = parts[i]?.map fun part =>
      (amount * part).tdiv parts.sum +
        if i * parts.sum < (cuts amount parts.sum parts).sum then 1 else 0 := by
  have hfloors : (floors amount parts.sum parts)[i]? =
      parts[i]?.map fun part => (amount * part).tdiv parts.sum := List.getElem?_map
  rw [apportioned, getElem?_topped, hfloors, Option.map_map]
  congr 1
  funext part
  simp only [Function.comp_apply, lt_remainder amount hw]
  split_ifs <;> simp

/-- Nothing is lost, whatever the parts, unless more is cut off the negative shares than off the
others. -/
lemma sum_apportioned_iff (amount : ℤ) (hw : 0 < parts.sum) :
    amount ≤ (apportioned amount parts).sum ∧
      ((apportioned amount parts).sum = amount ↔ 0 ≤ (cuts amount parts.sum parts).sum) := by
  have hremainder := remainder_mul amount parts
  have hle := (abs_le.mp (abs_sum_cuts_le amount parts hw)).2
  rw [← hremainder, mul_le_mul_iff_left₀ hw] at hle
  rw [apportioned, sum_topped, length_floors, ← hremainder, mul_nonneg_iff_of_pos_right hw]
  push_cast
  constructor <;> omega

end Cuts

section Asks

variable {shares : List ℤ}

lemma sum_filter_pos (shares : List ℤ) : shares.sum ≤ (shares.filter (0 < ·)).sum ∧
    ((shares.filter (0 < ·)).sum = shares.sum ↔ ∀ share ∈ shares, 0 ≤ share) := by
  induction shares with
  | nil => simp
  | cons share shares ih =>
    obtain ⟨hle, heq⟩ := ih
    rw [List.forall_mem_cons, List.sum_cons]
    by_cases hpos : 0 < share
    · rw [List.filter_cons_of_pos (by simpa using hpos), List.sum_cons, ← heq]
      constructor
      · linarith
      · constructor
        · intro h
          exact ⟨hpos.le, by linarith⟩
        · rintro ⟨-, h⟩
          linarith
    · rw [List.filter_cons_of_neg (by simpa using hpos), ← heq]
      constructor
      · linarith
      · constructor
        · intro h
          constructor <;> linarith
        · rintro ⟨h, h'⟩
          linarith

/-- Nothing is asked of a part that is not positive: what rounding leaves of it and the unit it may
get of the remainder are nothing together. -/
def Unasked (amount whole cut : ℤ) (i : ℕ) (part : ℤ) : Prop :=
  cut ≤ i * whole ∧ -whole < amount * part ∨
    i * whole < cut ∧ amount * part ≤ -whole ∧ -(2 * whole) < amount * part

lemma unasked_iff {amount whole cut part : ℤ} (i : ℕ) (hw : 0 < whole) (hpart : amount * part ≤ 0) :
    (amount * part).tdiv whole + (if i * whole < cut then 1 else 0) = 0 ↔
      Unasked amount whole cut i part := by
  obtain ⟨n, hn⟩ := Int.exists_eq_neg_ofNat hpart
  have hfloor : (amount * part).tdiv whole = -((n : ℤ) / whole) := by
    rw [hn, Int.neg_tdiv, Int.tdiv_eq_ediv_of_nonneg (Int.natCast_nonneg n)]
  have hlow := Int.ediv_mul_le (n : ℤ) hw.ne'
  have hhigh := Int.lt_ediv_add_one_mul_self (n : ℤ) hw
  rw [hfloor, Unasked, hn]
  generalize (n : ℤ) / whole = q at *
  have hq : 0 ≤ q := by
    by_contra h
    nlinarith [Int.natCast_nonneg n]
  constructor
  · intro h
    split_ifs at h with hi
    · right
      obtain rfl : q = 1 := by omega
      constructor
      · exact hi
      · constructor <;> linarith
    · left
      obtain rfl : q = 0 := by omega
      constructor <;> linarith
  · rintro (⟨hi, hn⟩ | ⟨hi, hn, hn'⟩)
    · rw [if_neg hi.not_gt]
      have hlt : q < 1 := by nlinarith
      omega
    · rw [if_pos hi]
      have hlt : q < 2 := by nlinarith
      have hgt : 0 < q := by nlinarith
      omega

/-- A positive part is worth every share of it: where it is asked for all it has there is nothing
left over to ask for. -/
lemma share_le {amount part : ℤ} {parts : List ℤ} (i : ℕ) (ha : 0 < amount) (hle : amount ≤ parts.sum)
    (hpart : 0 < part) : (amount * part).tdiv parts.sum +
      (if i * parts.sum < (cuts amount parts.sum parts).sum then 1 else 0) ≤ part := by
  have hw : 0 < parts.sum := ha.trans_le hle
  have hproduct : 0 ≤ amount * part := by positivity
  have hfloor : amount * part / parts.sum * parts.sum ≤ amount * part := Int.ediv_mul_le _ hw.ne'
  rw [Int.tdiv_eq_ediv_of_nonneg hproduct]
  rcases hle.eq_or_lt with heq | hlt
  · have hcuts : (cuts amount parts.sum parts).sum = 0 := by
      rw [← remainder_mul, ← heq, floors_self parts ha.ne', ← heq, sub_self, zero_mul]
    have hi : ¬ i * parts.sum < (cuts amount parts.sum parts).sum := by
      rw [hcuts, not_lt]
      positivity
    rw [if_neg hi, ← heq, Int.mul_ediv_cancel_left part ha.ne', add_zero]
  · have hbelow : amount * part / parts.sum < part := by
      by_contra h
      nlinarith
    split_ifs <;> omega

/-- A part can pay what is asked of it, and all that is asked is the amount. -/
structure Affordable (amount : ℤ) (parts : List ℤ) : Prop where
  sum : ((apportioned amount parts).filter (0 < ·)).sum = amount
  within : ∀ (i : ℕ) (part share : ℤ), parts[i]? = some part → (apportioned amount parts)[i]? = some share →
    0 < share → share ≤ part

/-- When an amount that the parts are worth can be asked of them: nothing is asked of those that are
not positive. -/
lemma affordable_iff {amount : ℤ} {parts : List ℤ} (ha : 0 < amount) (hle : amount ≤ parts.sum) :
    Affordable amount parts ↔ 0 ≤ (cuts amount parts.sum parts).sum ∧
      ∀ (i : ℕ) (part : ℤ), parts[i]? = some part → part ≤ 0 →
        Unasked amount parts.sum (cuts amount parts.sum parts).sum i part := by
  have hw : 0 < parts.sum := ha.trans_le hle
  obtain ⟨hmore, hexact⟩ := sum_apportioned_iff amount hw
  obtain ⟨hfilter, hnonneg⟩ := sum_filter_pos (apportioned amount parts)
  have hshare (i : ℕ) (part : ℤ) (hpart : parts[i]? = some part) : (apportioned amount parts)[i]? =
      some ((amount * part).tdiv parts.sum +
        if i * parts.sum < (cuts amount parts.sum parts).sum then 1 else 0) := by
    rw [getElem?_apportioned amount i hw, hpart, Option.map_some]
  constructor
  · intro h
    have hsum := h.sum
    have hall := hnonneg.mp (by linarith)
    refine ⟨hexact.mp (by linarith), fun i part hpart hneg => ?_⟩
    rw [← unasked_iff i hw (mul_nonpos_of_nonneg_of_nonpos ha.le hneg)]
    have hlow := hall _ (List.mem_of_getElem? (hshare i part hpart))
    by_contra hne
    have hhigh := h.within i part _ hpart (hshare i part hpart) (by omega)
    omega
  · rintro ⟨hcut, hidle⟩
    have hzero (i : ℕ) (part : ℤ) (hpart : parts[i]? = some part) (hneg : part ≤ 0) :=
      (unasked_iff i hw (mul_nonpos_of_nonneg_of_nonpos ha.le hneg)).mpr (hidle i part hpart hneg)
    have hall : ∀ share ∈ apportioned amount parts, 0 ≤ share := by
      intro share hmem
      obtain ⟨i, hi⟩ := List.mem_iff_getElem?.mp hmem
      rw [getElem?_apportioned amount i hw] at hi
      obtain ⟨part, hpart, rfl⟩ := Option.map_eq_some_iff.mp hi
      rcases le_or_gt part 0 with hneg | hpos
      · rw [hzero i part hpart hneg]
      · have hfloor : 0 ≤ (amount * part).tdiv parts.sum :=
          Int.tdiv_nonneg (mul_pos ha hpos).le hw.le
        split_ifs <;> omega
    refine ⟨by rw [hnonneg.mpr hall, hexact.mpr hcut], fun i part share hpart hi hpos => ?_⟩
    rw [hshare i part hpart] at hi
    obtain rfl := Option.some.inj hi
    rcases le_or_gt part 0 with hneg | hpart
    · rw [hzero i part hpart hneg] at hpos
      exact absurd hpos (lt_irrefl 0)
    · exact share_le i ha hle hpart

end Asks

end StellarTags.Library.Apportionment

/-! An amount divided by weights: every share is rounded down, and the last takes what is left. -/

namespace StellarTags.Library.Shares

/-- The shares of what is left of `amount` after `handed`, where `scale` stands for all of it. -/
def shares (amount scale handed : ℤ) : List ℕ → List ℤ
  | [] => []
  | [_] => [amount - handed]
  | weight :: next :: weights =>
    let share := (amount * weight).tdiv scale
    share :: shares amount scale (handed + share) (next :: weights)

variable {amount scale handed : ℤ} {weights : List ℕ}

lemma sum_shares (hw : weights ≠ []) : (shares amount scale handed weights).sum = amount - handed := by
  induction weights generalizing handed with
  | nil => exact absurd rfl hw
  | cons weight weights ih =>
    cases weights with
    | nil => simp [shares]
    | cons next rest =>
      rw [shares, List.sum_cons, ih (by simp)]
      ring

/-- No share is less than its weight's part: what rounding leaves over goes to the last one. -/
lemma shares_fair (ha : 0 ≤ amount) (hs : 0 < scale)
    (hh : handed * scale ≤ amount * (scale - weights.sum)) :
    List.Forall₂ (fun (weight : ℕ) share => (amount * weight).tdiv scale ≤ share) weights
      (shares amount scale handed weights) := by
  induction weights generalizing handed with
  | nil => exact .nil
  | cons weight weights ih =>
    have hpart : (amount * weight).tdiv scale = amount * weight / scale :=
      Int.tdiv_eq_ediv_of_nonneg (by positivity)
    cases weights with
    | nil =>
      refine .cons ?_ .nil
      have hleft : amount * weight ≤ (amount - handed) * scale := by
        simp only [List.sum_cons, List.sum_nil] at hh
        push_cast at hh
        linarith
      rw [hpart]
      exact Int.ediv_le_of_le_mul hs hleft
    | cons next rest =>
      refine .cons le_rfl (ih ?_)
      have hfloor : amount * weight / scale * scale ≤ amount * weight :=
        Int.ediv_mul_le _ hs.ne'
      rw [hpart]
      simp only [List.sum_cons] at hh ⊢
      push_cast at hh ⊢
      linarith

end StellarTags.Library.Shares
