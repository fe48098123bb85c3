import Pivotal.Js.Date

/-! Months of the proleptic Gregorian calendar, and what `Date.UTC` makes of fields past their
ends. -/
namespace Js

def IsLeapYear (year : ℤ) : Prop := year % 4 = 0 ∧ (year % 100 ≠ 0 ∨ year % 400 = 0)

instance (year : ℤ) : Decidable (IsLeapYear year) := inferInstanceAs (Decidable (_ ∧ _))

def monthLength (year month : ℤ) : ℤ :=
  if month = 2 then if IsLeapYear year then 29 else 28
  else if month = 4 ∨ month = 6 ∨ month = 9 ∨ month = 11 then 30
  else 31

/-- A day that the calendar has. -/
structure CivilDate.IsDay (c : CivilDate) : Prop where
  month_bounds : 1 ≤ c.month ∧ c.month ≤ 12
  day_bounds : 1 ≤ c.day ∧ c.day ≤ monthLength c.year c.month

theorem monthLength_bounds (year month : ℤ) :
    28 ≤ monthLength year month ∧ monthLength year month ≤ 31 := by
  unfold monthLength
  split_ifs <;> omega

theorem days_eq_add (year month day : ℤ) :
    (CivilDate.mk year month day).days = (CivilDate.mk year month 1).days + (day - 1) := by
  simp only [CivilDate.days]
  omega

/-- After a month comes the first day of the next. -/
theorem days_nextMonth (year : ℤ) {month : ℤ} (hm : 1 ≤ month ∧ month ≤ 12) :
    (CivilDate.mk (year + month / 12) (month % 12 + 1) 1).days =
      (CivilDate.mk year month 1).days + monthLength year month := by
  obtain ⟨hlow, hup⟩ := hm
  simp only [CivilDate.days, monthLength, IsLeapYear]
  interval_cases month <;> norm_num <;> (try split_ifs) <;> omega

theorem days_year_lt {year year' : ℤ} (h : year < year') (month : ℤ) :
    (CivilDate.mk year month 1).days + 365 ≤ (CivilDate.mk year' month 1).days := by
  simp only [CivilDate.days]
  split_ifs <;> omega

/-- The last day of a year that begins in March is the leap day. -/
theorem isLeapYear_of_dayOfYear {n : ℤ} (h₀ : 0 ≤ n) (h₁ : n < 146097) (h : dayOfYear n = 365) :
    IsLeapYear (yearOfEra n + 1) := by
  have hc := centuryOf_bounds h₀ h₁
  have hg := groupOf_bounds h₀ h₁
  have hy := yearOfGroup_bounds h₀ h₁
  have hcentury : centuryOf n = n / 36524 ∨ centuryOf n = 3 := by
    unfold centuryOf
    omega
  have hyear : yearOfGroup n = 3 := by
    unfold dayOfYear yearOfGroup at *
    omega
  unfold dayOfYear dayOfGroup at *
  unfold IsLeapYear yearOfEra
  omega

theorem leapDays_mono {year year' : ℤ} (h : year ≤ year') :
    year / 4 - year / 100 ≤ year' / 4 - year' / 100 := by
  have hyear : year / 100 = year / 4 / 25 := by omega
  have hyear' : year' / 100 = year' / 4 / 25 := by omega
  have hquarter : year / 4 ≤ year' / 4 := by omega
  rw [hyear, hyear']
  omega

/-- A day of an era tells its year and its day of the year. -/
theorem yearOfEra_eq {year day : ℤ} (hyear : 0 ≤ year ∧ year < 400) (hday : 0 ≤ day ∧ day ≤ 365)
    (hleap : day = 365 → IsLeapYear (year + 1)) :
    yearOfEra (365 * year + year / 4 - year / 100 + day) = year ∧
      dayOfYear (365 * year + year / 4 - year / 100 + day) = day := by
  unfold IsLeapYear at hleap
  have h₀ : 0 ≤ 365 * year + year / 4 - year / 100 + day := by omega
  have h₁ : 365 * year + year / 4 - year / 100 + day < 146097 := by omega
  have heq := dayOfEra_eq h₀ h₁
  have hbounds := yearOfEra_bounds h₀ h₁
  have hdays := (yearOfGroup_bounds h₀ h₁).2.2
  have hleap' := isLeapYear_of_dayOfYear h₀ h₁
  unfold IsLeapYear at hleap'
  generalize yearOfEra (365 * year + year / 4 - year / 100 + day) = year' at *
  generalize dayOfYear (365 * year + year / 4 - year / 100 + day) = day' at *
  have hsame : year' = year := by
    have hnext : ∀ n : ℤ, n / 4 - n / 100 ≤ (n + 1) / 4 - (n + 1) / 100 := fun n =>
      leapDays_mono (by omega)
    rcases lt_trichotomy year' year with hlt | hsame | hlt
    · have hmono := leapDays_mono (Int.add_one_le_of_lt hlt)
      have hone := hnext year'
      omega
    · exact hsame
    · have hmono := leapDays_mono (Int.add_one_le_of_lt hlt)
      have hone := hnext year
      omega
  subst hsame
  omega

/-- A day that the calendar has is the date of the day it is. -/
theorem civilOfDays_days {c : CivilDate} (h : c.IsDay) : civilOfDays c.days = c := by
  obtain ⟨year, month, day⟩ := c
  obtain ⟨⟨hlow, hup⟩, hday⟩ := h
  simp only at hlow hup hday
  -- The year that begins in March, and the months and the days in it.
  obtain ⟨marchYear, hmarchYear⟩ : ∃ y, y = if month < 3 then year - 1 else year := ⟨_, rfl⟩
  obtain ⟨marchMonth, hmarchMonth⟩ : ∃ m, m = if month < 3 then month + 9 else month - 3 := ⟨_, rfl⟩
  obtain ⟨dayOfMarch, hdayOfMarch⟩ : ∃ d, d = (153 * marchMonth + 2) / 5 + day - 1 := ⟨_, rfl⟩
  have hdays : (CivilDate.mk year month day).days + 719468 = 146097 * (marchYear / 400) +
      (365 * (marchYear % 400) + marchYear % 400 / 4 - marchYear % 400 / 100 + dayOfMarch) := by
    simp only [CivilDate.days, hmarchYear, hmarchMonth, hdayOfMarch]
    omega
  have hmonth : 0 ≤ dayOfMarch ∧ dayOfMarch ≤ 365 ∧
      (dayOfMarch = 365 → IsLeapYear (marchYear % 400 + 1)) ∧
      (5 * dayOfMarch + 2) / 153 = marchMonth := by
    simp only [monthLength, IsLeapYear] at hday ⊢
    interval_cases month <;> simp at hmarchYear hmarchMonth <;> subst hmarchYear hmarchMonth <;>
      simp at hday <;> omega
  obtain ⟨hfirst, hlast, hleap, hindex⟩ := hmonth
  have hyears : 0 ≤ marchYear % 400 ∧ marchYear % 400 < 400 := by omega
  obtain ⟨hyear, hdayOfYear⟩ := yearOfEra_eq hyears ⟨hfirst, hlast⟩ hleap
  have hinEra : 0 ≤ 365 * (marchYear % 400) + marchYear % 400 / 4 - marchYear % 400 / 100 +
        dayOfMarch ∧
      365 * (marchYear % 400) + marchYear % 400 / 4 - marchYear % 400 / 100 + dayOfMarch <
        146097 := by
    unfold IsLeapYear at hleap
    omega
  generalize 365 * (marchYear % 400) + marchYear % 400 / 4 - marchYear % 400 / 100 + dayOfMarch =
    dayOfEra at *
  have hera : ((CivilDate.mk year month day).days + 719468) / 146097 = marchYear / 400 := by omega
  have hdayOfEra : ((CivilDate.mk year month day).days + 719468) % 146097 = dayOfEra := by omega
  simp only [civilOfDays, hera, hdayOfEra, hyear, hdayOfYear, hindex, CivilDate.mk.injEq]
  split_ifs at * <;> omega

/-- `Date.UTC(year, month, day, hour, minute, second)`: years of two digits are of the twentieth
century, months are counted from 0, and fields past their ends carry over. -/
def dateUTC (year month day hour minute second : ℤ) : Option Date :=
  let fullYear := if 0 ≤ year ∧ year ≤ 99 then 1900 + year else year
  let days := (CivilDate.mk (fullYear + month / 12) (month % 12 + 1) 1).days + (day - 1)
  timeClip ((days * 86400 + hour * 3600 + minute * 60 + second) * 1000)

/-- `date.getUTCDate()`. -/
def getUTCDate (date : Date) : ℤ := (civilOfDays (date / 86400000)).day

end Js
