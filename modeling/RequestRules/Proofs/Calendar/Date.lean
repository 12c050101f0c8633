import Mathlib.Algebra.BigOperators.Intervals
import RequestRules.Calendar.Date
import RequestRules.Proofs.Number.Numeral

/-!
# Days

`Calendar.ordinal` counts the days one by one (`Calendar.ordinal_eq_daysTo`), so it has a different value on each day that
exists (`Date.eq_of_ordinal_eq`).  `Date.Valid` are the days that exist, the ones that `Date.make` makes.
-/

namespace RequestRules

namespace Calendar

def daysInYear (year : Nat) : Nat := if isLeap year then 366 else 365

/-- The days from 1 January of year 1 to a date, counted year by year and month by month. -/
def daysTo (year month day : Nat) : Nat :=
  ∑ y ∈ Finset.Ico 1 year, daysInYear y + ∑ m ∈ Finset.Ico 1 month, daysInMonth year m + day

variable {year month : Nat}

/-! ## The closed form counts days -/

theorem daysInYear_eq (year : Nat) : daysInYear year + (if year % 100 = 0 then 1 else 0) =
    365 + (if year % 4 = 0 then 1 else 0) + (if year % 400 = 0 then 1 else 0) := by
  -- of the three divisors each is a multiple of the one before
  have h100 : year % 100 = 0 → year % 4 = 0 := by omega
  have h400 : year % 400 = 0 → year % 100 = 0 := by omega
  unfold daysInYear isLeap
  by_cases h4 : year % 4 = 0
  · by_cases h : year % 100 = 0
    · by_cases h' : year % 400 = 0 <;> simp [h4, h, h']
    · simp [h4, h, mt h400 h]
  · have hne : ¬ year % 100 = 0 := fun h => h4 (h100 h)
    simp [h4, hne, mt h400 hne]

theorem daysBeforeYear_succ (h : 1 ≤ year) : daysBeforeYear (year + 1) = daysBeforeYear year + daysInYear year := by
  obtain ⟨k, rfl⟩ := Nat.exists_eq_add_one.2 h
  have hdays := daysInYear_eq (k + 1)
  have hstep : ∀ n, (k + 1) / n = k / n + if (k + 1) % n = 0 then 1 else 0 := by
    intro n
    simp only [Nat.succ_div, Nat.dvd_iff_mod_eq_zero]
  have hle : k / 100 ≤ k / 4 := Nat.div_le_div_left (by decide) (by decide)
  have hle' : (k + 1) / 100 ≤ (k + 1) / 4 := Nat.div_le_div_left (by decide) (by decide)
  have h4 := hstep 4
  have h100 := hstep 100
  have h400 := hstep 400
  unfold daysBeforeYear
  dsimp only
  rw [Nat.add_sub_cancel, Nat.add_sub_cancel]
  generalize (if (k + 1) % 4 = 0 then 1 else 0) = a at *
  generalize (if (k + 1) % 100 = 0 then 1 else 0) = b at *
  generalize (if (k + 1) % 400 = 0 then 1 else 0) = c at *
  omega

theorem daysBeforeMonth_succ (year : Nat) (h : 1 ≤ month) :
    daysBeforeMonth year (month + 1) = daysBeforeMonth year month + daysInMonth year month := by
  have hmonths : (List.range (month + 1)).drop 1 = (List.range month).drop 1 ++ [month] := by
    rw [List.range_succ, List.drop_append_of_le_length (by simpa using h)]
  unfold daysBeforeMonth
  rw [hmonths, List.foldl_append]
  rfl

theorem daysBeforeYear_eq (h : 1 ≤ year) : daysBeforeYear year = ∑ y ∈ Finset.Ico 1 year, daysInYear y := by
  induction year, h using Nat.le_induction with
  | base => rfl
  | succ year h ih => rw [daysBeforeYear_succ h, Finset.sum_Ico_succ_top h, ih]

theorem daysBeforeMonth_eq (year : Nat) (h : 1 ≤ month) :
    daysBeforeMonth year month = ∑ m ∈ Finset.Ico 1 month, daysInMonth year m := by
  induction month, h using Nat.le_induction with
  | base => rfl
  | succ month h ih => rw [daysBeforeMonth_succ year h, Finset.sum_Ico_succ_top h, ih]

/-- **The day count counts days.** -/
theorem ordinal_eq_daysTo (hyear : 1 ≤ year) (hmonth : 1 ≤ month) (day : Nat) :
    ordinal year month day = daysTo year month day := by
  rw [ordinal, daysTo, daysBeforeYear_eq hyear, daysBeforeMonth_eq year hmonth]

/-! ## Different days have different counts -/

theorem monotone_daysBeforeYear : Monotone daysBeforeYear := by
  refine monotone_nat_of_le_succ fun year => ?_
  rcases Nat.eq_zero_or_pos year with rfl | h
  · decide
  · rw [daysBeforeYear_succ h]
    omega

theorem monotone_daysBeforeMonth (year : Nat) : Monotone (daysBeforeMonth year) := by
  refine monotone_nat_of_le_succ fun month => ?_
  rcases Nat.eq_zero_or_pos month with rfl | h
  · exact Nat.le_refl _
  · rw [daysBeforeMonth_succ year h]
    omega

theorem daysBeforeMonth_thirteen (year : Nat) : daysBeforeMonth year 13 = daysInYear year := by
  unfold daysInYear
  cases h : isLeap year <;> simp [daysBeforeMonth, List.range_succ, daysInMonth, h]

/-- A number lies between one pair of neighbouring values of a monotone function at most. -/
theorem eq_of_between {f : Nat → Nat} (hf : Monotone f) {a b n : Nat} (ha : f a < n) (ha' : n ≤ f (a + 1)) (hb : f b < n)
    (hb' : n ≤ f (b + 1)) : a = b := by
  rcases Nat.lt_trichotomy a b with hlt | heq | hgt
  · have hle : f (a + 1) ≤ f b := hf hlt
    omega
  · exact heq
  · have hle : f (b + 1) ≤ f a := hf hgt
    omega

end Calendar

namespace Date

/-- The day exists, in a year of four digits. -/
structure Valid (d : Date) : Prop where
  year_pos : 1 ≤ d.year
  year_le : d.year ≤ 9999
  month_pos : 1 ≤ d.month
  month_le : d.month ≤ 12
  day_pos : 1 ≤ d.day
  day_le : d.day ≤ Calendar.daysInMonth d.year d.month

variable {d d' : Date} {year month day : Nat}

theorem make_eq_ok : make year month day = .ok d ↔ d = ⟨year, month, day⟩ ∧ d.Valid := by
  have hmin : Calendar.minYear = 1 := rfl
  have hmax : Calendar.maxYear = 9999 := rfl
  unfold make
  rw [hmin, hmax]
  constructor
  · intro h
    split_ifs at h with hyear hmonth hday
    cases h
    simp only [not_or, Nat.not_lt] at hyear hmonth hday
    exact ⟨rfl, hyear.1, hyear.2, hmonth.1, hmonth.2, hday.1, hday.2⟩
  · rintro ⟨rfl, h1, h2, h3, h4, h5, h6⟩
    rw [if_neg (not_or.2 ⟨Nat.not_lt.2 h1, Nat.not_lt.2 h2⟩), if_neg (not_or.2 ⟨Nat.not_lt.2 h3, Nat.not_lt.2 h4⟩),
      if_neg (not_or.2 ⟨Nat.not_lt.2 h5, Nat.not_lt.2 h6⟩)]

theorem Valid.day_lt (h : d.Valid) : d.day < 100 := by
  have hle : Calendar.daysInMonth d.year d.month ≤ 31 := by
    unfold Calendar.daysInMonth
    split_ifs <;> omega
  have := h.day_le
  omega

/-- The days before the month, and then the day, stay within the year. -/
theorem Valid.dayOfYear_le (h : d.Valid) :
    Calendar.daysBeforeMonth d.year d.month + d.day ≤ Calendar.daysInYear d.year := by
  have hmonth := Calendar.daysBeforeMonth_succ d.year h.month_pos
  have hlast : d.month + 1 ≤ 13 := Nat.succ_le_succ h.month_le
  have hend := Calendar.monotone_daysBeforeMonth d.year hlast
  rw [Calendar.daysBeforeMonth_thirteen] at hend
  have := h.day_le
  omega

/-- **Different days have different counts.** -/
theorem eq_of_ordinal_eq (h : d.Valid) (h' : d'.Valid) (heq : d.ordinal = d'.ordinal) : d = d' := by
  obtain ⟨year, month, day⟩ := d
  obtain ⟨year', month', day'⟩ := d'
  have hsum : Calendar.daysBeforeYear year + Calendar.daysBeforeMonth year month + day =
    Calendar.daysBeforeYear year' + Calendar.daysBeforeMonth year' month' + day' := heq
  have hdays := h.dayOfYear_le
  have hdays' := h'.dayOfYear_le
  obtain ⟨h1, h2, h3, h4, h5, h6⟩ := h
  obtain ⟨h1', h2', h3', h4', h5', h6'⟩ := h'
  dsimp only at *
  obtain rfl : year = year' := by
    have hnext := Calendar.daysBeforeYear_succ h1
    have hnext' := Calendar.daysBeforeYear_succ h1'
    refine Calendar.eq_of_between Calendar.monotone_daysBeforeYear
      (n := Calendar.daysBeforeYear year + Calendar.daysBeforeMonth year month + day) ?_ ?_ ?_ ?_ <;> omega
  obtain rfl : month = month' := by
    have hnext := Calendar.daysBeforeMonth_succ year h3
    have hnext' := Calendar.daysBeforeMonth_succ year h3'
    refine Calendar.eq_of_between (Calendar.monotone_daysBeforeMonth year)
      (n := Calendar.daysBeforeMonth year month + day) ?_ ?_ ?_ ?_ <;> omega
  obtain rfl : day = day' := by omega
  rfl

end Date

end RequestRules
