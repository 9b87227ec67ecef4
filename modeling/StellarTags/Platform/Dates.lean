import StellarTags.Platform.Unicode

/-! Times in milliseconds, as `toISOString` writes them and `Date.parse` reads them. -/

namespace StellarTags.Platform

section Calendar

structure CivilDate where
  year : ℤ
  month : ℤ
  day : ℤ
  deriving DecidableEq, Repr

/-- The year of an era of 400 years, and the day of the year, both counted from March on. -/
def yearOfEra (day : ℤ) : ℤ × ℤ :=
  let century := min (day / 36524) 3
  let ofCentury := day - century * 36524
  let year := min (ofCentury % 1461 / 365) 3
  (century * 100 + ofCentury / 1461 * 4 + year, ofCentury % 1461 - year * 365)

/-- The date in a month that is counted from March on. -/
def ofYearMonth (year month day : ℤ) : CivilDate :=
  if month < 10 then ⟨year, month + 3, day⟩ else ⟨year + 1, month - 9, day⟩

def ofYearDay (year day : ℤ) : CivilDate :=
  let month := (5 * day + 2) / 153
  ofYearMonth year month (day - (153 * month + 2) / 5 + 1)

/-- The date of a day, counted from the first of January 1970. -/
def ofDays (days : ℤ) : CivilDate :=
  let (year, day) := yearOfEra ((days + 719468) % 146097)
  ofYearDay ((days + 719468) / 146097 * 400 + year) day

def toDays (date : CivilDate) : ℤ :=
  let year := if date.month ≤ 2 then date.year - 1 else date.year
  let month := if date.month ≤ 2 then date.month + 9 else date.month - 3
  year * 365 + year / 4 - year / 100 + year / 400 + (153 * month + 2) / 5 + date.day - 1 - 719468

variable {era year month day days : ℤ}

lemma yearOfEra_bounds (h0 : 0 ≤ day) (h1 : day < 146097) :
    0 ≤ (yearOfEra day).1 ∧ (yearOfEra day).1 < 400 ∧ 0 ≤ (yearOfEra day).2 ∧
      (yearOfEra day).2 ≤ 365 ∧
      (yearOfEra day).1 * 365 + (yearOfEra day).1 / 4 - (yearOfEra day).1 / 100 +
        (yearOfEra day).2 = day := by
  simp only [yearOfEra]
  have hcentury : 0 ≤ day / 36524 := Int.ediv_nonneg h0 (by decide)
  generalize hc : min (day / 36524) 3 = c
  have hc0 : 0 ≤ c := by omega
  have hc3 : c ≤ 3 := by omega
  have hr0 : 0 ≤ day - c * 36524 := by omega
  have hr1 : day - c * 36524 ≤ 36524 := by omega
  generalize hr : day - c * 36524 = r at *
  have hq : r / 1461 ≤ 24 := by omega
  generalize hy : min (r % 1461 / 365) 3 = y
  have hy0 : 0 ≤ y := by omega
  have hy3 : y ≤ 3 := by omega
  have hd : 0 ≤ r % 1461 - y * 365 := by omega
  have hd' : r % 1461 - y * 365 ≤ 365 := by omega
  generalize hq' : r / 1461 = q at *
  have hsplit : r % 1461 = r - q * 1461 := by omega
  have h4 : (c * 100 + q * 4 + y) / 4 = c * 25 + q := by omega
  have h100 : (c * 100 + q * 4 + y) / 100 = c := by omega
  refine ⟨by omega, by omega, hd, hd', ?_⟩
  rw [h4, h100]
  omega

lemma toDays_ofYearMonth (h0 : 0 ≤ month) (h1 : month ≤ 11) :
    toDays (ofYearMonth year month day) =
      year * 365 + year / 4 - year / 100 + year / 400 + (153 * month + 2) / 5 + day - 1 - 719468 := by
  rw [ofYearMonth]
  split
  · have hlate : ¬ month + 3 ≤ 2 := by omega
    simp only [toDays, if_neg hlate]
    rw [show month + 3 - 3 = month by ring]
  · have hearly : month - 9 ≤ 2 := by omega
    simp only [toDays, if_pos hearly]
    rw [show year + 1 - 1 = year by ring, show month - 9 + 9 = month by ring]

lemma toDays_ofDays (days : ℤ) : toDays (ofDays days) = days := by
  have h0 : 0 ≤ (days + 719468) % 146097 := Int.emod_nonneg _ (by decide)
  have h1 : (days + 719468) % 146097 < 146097 := Int.emod_lt_of_pos _ (by decide)
  obtain ⟨hy0, hy1, hd0, hd1, hsum⟩ := yearOfEra_bounds h0 h1
  simp only [ofDays, ofYearDay]
  generalize (yearOfEra ((days + 719468) % 146097)).1 = y at *
  generalize (yearOfEra ((days + 719468) % 146097)).2 = d at *
  rw [toDays_ofYearMonth (by omega) (by omega)]
  have h4 : ((days + 719468) / 146097 * 400 + y) / 4 = (days + 719468) / 146097 * 100 + y / 4 := by
    omega
  have h100 : ((days + 719468) / 146097 * 400 + y) / 100 =
      (days + 719468) / 146097 * 4 + y / 100 := by omega
  have h400 : ((days + 719468) / 146097 * 400 + y) / 400 = (days + 719468) / 146097 := by omega
  rw [h4, h100, h400]
  omega

lemma ofDays_bounds (days : ℤ) : 1 ≤ (ofDays days).month ∧ (ofDays days).month ≤ 12 ∧
    1 ≤ (ofDays days).day ∧ (ofDays days).day ≤ 31 := by
  have h0 : 0 ≤ (days + 719468) % 146097 := Int.emod_nonneg _ (by decide)
  have h1 : (days + 719468) % 146097 < 146097 := Int.emod_lt_of_pos _ (by decide)
  obtain ⟨-, -, hd0, hd1, -⟩ := yearOfEra_bounds h0 h1
  simp only [ofDays, ofYearDay, ofYearMonth]
  generalize (yearOfEra ((days + 719468) % 146097)).2 = d at *
  split
  · refine ⟨?_, ?_, ?_, ?_⟩ <;> dsimp only <;> omega
  · refine ⟨?_, ?_, ?_, ?_⟩ <;> dsimp only <;> omega

/-- The years of the times that a date can have go from -271821 to 275760. -/
lemma year_bound (h : -10 ^ 8 ≤ days) (h' : days ≤ 10 ^ 8) :
    -10 ^ 6 < (ofDays days).year ∧ (ofDays days).year < 10 ^ 6 := by
  have hdays := toDays_ofDays days
  obtain ⟨hm1, hm12, hd1, hd31⟩ := ofDays_bounds days
  simp only [toDays] at hdays
  split at hdays
  · omega
  · omega

end Calendar

section Iso

/-- A time value lies within a hundred million days of 1970. -/
def maxTime : ℤ := 8640000000000000

def dayMillis : ℤ := 86400000

def digitChar (n : ℕ) : Char := Char.ofNat (48 + n % 10)

def decimal : ℕ → ℕ → List Char
  | 0, _ => []
  | width + 1, n => decimal width (n / 10) ++ [digitChar n]

def decimalValue (digits : List Char) : ℕ := digits.foldl (fun n c => 10 * n + (c.toNat - 48)) 0

def isoYear (year : ℤ) : List Char :=
  if 0 ≤ year ∧ year ≤ 9999 then decimal 4 year.toNat
  else (if year < 0 then '-' else '+') :: decimal 6 year.natAbs

/-- The rest of the date, and the time of the day in milliseconds. -/
def isoRest (month day time : ℕ) : List Char :=
  '-' :: decimal 2 month ++ '-' :: decimal 2 day ++ 'T' :: decimal 2 (time / 3600000) ++
    ':' :: decimal 2 (time / 60000 % 60) ++ ':' :: decimal 2 (time / 1000 % 60) ++
      '.' :: decimal 3 (time % 1000) ++ ['Z']

def toISOString (ms : ℤ) : String :=
  let date := ofDays (ms / dayMillis)
  .ofList (isoYear date.year ++ isoRest date.month.toNat date.day.toNat (ms % dayMillis).toNat)

def readYear (text : List Char) : ℤ × List Char :=
  match text with
  | [] => (0, [])
  | sign :: rest =>
    if sign = '+' then (decimalValue (rest.take 6), rest.drop 6)
    else if sign = '-' then (-decimalValue (rest.take 6), rest.drop 6)
    else (decimalValue (text.take 4), text.drop 4)

def readTime (text : List Char) : ℤ :=
  let (year, rest) := readYear text
  let field (place : ℕ) : ℤ := decimalValue ((rest.drop place).take 2)
  toDays ⟨year, field 1, field 4⟩ * dayMillis + field 7 * 3600000 + field 10 * 60000 +
    field 13 * 1000 + decimalValue ((rest.drop 16).take 3)

/-- A text that is no `toISOString` of a time is left to the host: what it makes of one depends on
the implementation and the time zone. -/
def dateParse (otherDates : JsString → Option ℤ) (s : JsString) : Option ℤ :=
  let ms := readTime (wellFormed s)
  if |ms| ≤ maxTime ∧ units (toISOString ms) = s then some ms else otherDates s

variable {n k : ℕ} {ms : ℤ}

lemma toNat_digitChar (n : ℕ) : (digitChar n).toNat - 48 = n % 10 := by
  have hall : ∀ d < 10, (Char.ofNat (48 + d)).toNat - 48 = d := by decide
  exact hall (n % 10) (Nat.mod_lt n (by decide))

lemma decimalValue_decimal (h : n < 10 ^ k) : decimalValue (decimal k n) = n := by
  induction k generalizing n with
  | zero =>
    rw [pow_zero, Nat.lt_one_iff] at h
    rw [h]
    rfl
  | succ k ih =>
    have hrest := ih (n := n / 10) (by rw [pow_succ] at h; omega)
    rw [decimalValue] at hrest
    rw [decimal, decimalValue, List.foldl_append, hrest, List.foldl_cons, List.foldl_nil,
      toNat_digitChar]
    omega

@[simp] lemma length_decimal (k n : ℕ) : (decimal k n).length = k := by
  induction k generalizing n with
  | zero => rfl
  | succ k ih => simp [decimal, ih]

lemma digitChar_ne (n : ℕ) : digitChar n ≠ '+' ∧ digitChar n ≠ '-' := by
  have hall : ∀ d < 10, Char.ofNat (48 + d) ≠ '+' ∧ Char.ofNat (48 + d) ≠ '-' := by decide
  exact hall (n % 10) (Nat.mod_lt n (by decide))

lemma readYear_isoYear {year : ℤ} (h : -10 ^ 6 < year) (h' : year < 10 ^ 6) (rest : List Char) :
    readYear (isoYear year ++ rest) = (year, rest) := by
  rw [isoYear]
  split
  · have hvalue := decimalValue_decimal (n := year.toNat) (k := 4) (by omega)
    obtain ⟨hplus, hminus⟩ := digitChar_ne (year.toNat / 10 / 10 / 10)
    have htake : (decimal 4 year.toNat ++ rest).take 4 = decimal 4 year.toNat :=
      List.take_left' (length_decimal 4 _)
    have hdrop : (decimal 4 year.toNat ++ rest).drop 4 = rest := List.drop_left' (length_decimal 4 _)
    have hread : readYear (decimal 4 year.toNat ++ rest) =
        (((decimalValue ((decimal 4 year.toNat ++ rest).take 4) : ℕ) : ℤ),
          (decimal 4 year.toNat ++ rest).drop 4) :=
      (if_neg hplus).trans (if_neg hminus)
    rw [hread, htake, hdrop, hvalue, Int.toNat_of_nonneg (by omega)]
  · have hvalue := decimalValue_decimal (n := year.natAbs) (k := 6) (by omega)
    have htake : (decimal 6 year.natAbs ++ rest).take 6 = decimal 6 year.natAbs :=
      List.take_left' (length_decimal 6 _)
    have hdrop : (decimal 6 year.natAbs ++ rest).drop 6 = rest := List.drop_left' (length_decimal 6 _)
    rw [List.cons_append, readYear]
    split
    · rw [if_neg (by decide), if_pos rfl, htake, hdrop, hvalue]
      refine Prod.ext ?_ rfl
      dsimp only
      omega
    · rw [if_pos rfl, htake, hdrop, hvalue]
      refine Prod.ext ?_ rfl
      dsimp only
      omega

/-- The places of the fields in a text. -/
lemma isoRest_fields (month day time : ℕ) :
    ((isoRest month day time).drop 1).take 2 = decimal 2 month ∧
      ((isoRest month day time).drop 4).take 2 = decimal 2 day ∧
      ((isoRest month day time).drop 7).take 2 = decimal 2 (time / 3600000) ∧
      ((isoRest month day time).drop 10).take 2 = decimal 2 (time / 60000 % 60) ∧
      ((isoRest month day time).drop 13).take 2 = decimal 2 (time / 1000 % 60) ∧
      ((isoRest month day time).drop 16).take 3 = decimal 3 (time % 1000) :=
  ⟨rfl, rfl, rfl, rfl, rfl, rfl⟩

lemma readTime_toISOString (h : |ms| ≤ maxTime) : readTime (toISOString ms).toList = ms := by
  have hdays : -10 ^ 8 ≤ ms / dayMillis ∧ ms / dayMillis ≤ 10 ^ 8 := by
    simp only [maxTime, abs_le] at h
    simp only [dayMillis]
    omega
  obtain ⟨hy, hy'⟩ := year_bound hdays.1 hdays.2
  obtain ⟨hm1, hm12, hd1, hd31⟩ := ofDays_bounds (ms / dayMillis)
  have hdate := toDays_ofDays (ms / dayMillis)
  have hsplit := Int.mul_ediv_add_emod ms dayMillis
  have hnonneg : 0 ≤ ms % dayMillis := Int.emod_nonneg _ (by decide)
  have hlt : ms % dayMillis < dayMillis := Int.emod_lt_of_pos _ (by decide)
  rw [toISOString, String.toList_ofList, readTime, readYear_isoYear hy hy']
  generalize ofDays (ms / dayMillis) = date at *
  obtain ⟨t, ht⟩ := Int.eq_ofNat_of_zero_le hnonneg
  rw [ht] at hsplit hlt ⊢
  rw [Int.toNat_natCast]
  simp only [dayMillis] at hlt hsplit
  have hmonth := decimalValue_decimal (n := date.month.toNat) (k := 2) (by omega)
  have hday := decimalValue_decimal (n := date.day.toNat) (k := 2) (by omega)
  have hhour := decimalValue_decimal (n := t / 3600000) (k := 2) (by omega)
  have hminute := decimalValue_decimal (n := t / 60000 % 60) (k := 2) (by omega)
  have hsecond := decimalValue_decimal (n := t / 1000 % 60) (k := 2) (by omega)
  have hmilli := decimalValue_decimal (n := t % 1000) (k := 3) (by omega)
  obtain ⟨h1, h4, h7, h10, h13, h16⟩ := isoRest_fields date.month.toNat date.day.toNat t
  simp only [h1, h4, h7, h10, h13, h16, hmonth, hday, hhour, hminute, hsecond, hmilli]
  have hfields : (⟨date.year, (date.month.toNat : ℤ), (date.day.toNat : ℤ)⟩ : CivilDate) = date := by
    rw [Int.toNat_of_nonneg (by omega), Int.toNat_of_nonneg (by omega)]
  rw [hfields, hdate, dayMillis]
  omega

lemma dateParse_toISOString (otherDates : JsString → Option ℤ) (h : |ms| ≤ maxTime) :
    dateParse otherDates (units (toISOString ms)) = some ms := by
  simp only [dateParse, wellFormed_units, readTime_toISOString h, h, true_and, if_true]

end Iso

end StellarTags.Platform
