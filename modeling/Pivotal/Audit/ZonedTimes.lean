import Pivotal.Audit.ReportParams
import Pivotal.Js.Calendar
import Pivotal.Numeric.Offsets

/-! Calendar arithmetic in a time zone, by which the dashboard limits the range that is asked for. -/
namespace Audit
open Js Numeric.Offsets

/-- A time zone: minutes that its clocks are ahead, fifteen hours at most, changed no more often than
every two days. -/
structure Zone where
  offset : Js.Date → ℤ
  spaced : Spaced (fun date => offset date * 60000) (15 * 3600000) (48 * 3600000)

namespace Zone

def localTime (zone : Zone) (date : Js.Date) : ℤ := date + zone.offset date * 60000

theorem offset_bounds (zone : Zone) (date : Js.Date) :
    -900 ≤ zone.offset date ∧ zone.offset date ≤ 900 := by
  have hbounds := zone.spaced.bounded date
  omega

end Zone

namespace DashboardAuditController

/-- The `timeZoneName` of `shortOffset`. -/
def shortOffset (offset : ℤ) : List Char :=
  let hours := offset.natAbs / 60
  let minutes := offset.natAbs % 60
  let sign := if offset < 0 then '-' else '+'
  let rest := if minutes = 0 then [] else ':' :: fixedDigits 2 minutes
  if offset = 0 then ['G', 'M', 'T']
  else ['G', 'M', 'T', sign] ++ Nat.toDigits 10 hours ++ rest

/-- `(?::?(\d{2}))?` -/
def matchMinutes (cs : List Char) : ℤ :=
  let digits := match cs with
    | ':' :: rest => rest
    | cs => cs
  match digits with
  | c :: d :: _ => if isDigit c && isDigit d then digitsValue [c, d] else 0
  | _ => 0

/-- `(\d{1,2})(?::?(\d{2}))?` -/
def matchHours (cs : List Char) : Option ℤ :=
  match cs with
  | [] => none
  | c :: rest =>
    if isDigit c then
      match rest with
      | d :: rest' =>
        if isDigit d then some ((digitsValue [c, d] : ℤ) * 60 + matchMinutes rest')
        else some ((digitValue c : ℤ) * 60 + matchMinutes rest)
      | [] => some ((digitValue c : ℤ) * 60)
    else none

/-- What the expression matches where the engine writes it. -/
def offsetOfText (text : List Char) : ℤ :=
  match stripPrefix ['G', 'M', 'T'] text with
  | some ('+' :: rest) => (matchHours rest).getD 0
  | some ('-' :: rest) => -(matchHours rest).getD 0
  | _ => 0

/-- An instant that is no date is formatted by none. -/
inductive RangeError where
  | invalidTime
  deriving DecidableEq

variable (zone : Zone)

def offsetMinutesForTimeZone (date : Option Js.Date) : Except RangeError ℤ :=
  match date with
  | none => .error .invalidTime
  | some date => .ok (offsetOfText (shortOffset (zone.offset date)))

structure DateTimeParts where
  year : ℤ
  month : ℤ
  day : ℤ
  hour : ℤ
  minute : ℤ
  second : ℤ
  deriving DecidableEq

/-- The parts have no era: a year before the year 1 is counted back from it. -/
def zonedDateTimeParts (date : Js.Date) : DateTimeParts :=
  let localTime := zone.localTime date
  let civil := civilOfDays (localTime / 86400000)
  { year := if 1 ≤ civil.year then civil.year else 1 - civil.year
    month := civil.month
    day := civil.day
    hour := localTime % 86400000 / 3600000
    minute := localTime % 3600000 / 60000
    second := localTime % 60000 / 1000 }

def zonedLocalToUtc (year month day hour minute second : ℤ) :
    Except RangeError (Option Js.Date) := do
  let utcGuess := dateUTC year (month - 1) day hour minute second
  let offset ← offsetMinutesForTimeZone zone utcGuess
  let first := utcGuess.bind fun guess => timeClip (guess - offset * 60000)
  let offset ← offsetMinutesForTimeZone zone first
  return utcGuess.bind fun guess => timeClip (guess - offset * 60000)

/-- Where the target month's last day is no date, nor is what is made of it. -/
def addMonthsInTimeZone (date : Js.Date) (months : ℤ) : Except RangeError (Option Js.Date) :=
  let parts := zonedDateTimeParts zone date
  let totalMonths := parts.year * 12 + (parts.month - 1) + months
  let year := totalMonths / 12
  let month := totalMonths.tmod 12 + 1
  match (dateUTC year month 0 0 0 0).map getUTCDate with
  | none => .error .invalidTime
  | some lastDay =>
    zonedLocalToUtc zone year month (min parts.day lastDay) parts.hour parts.minute parts.second

def maxRangeMonths : ℤ := 4

inductive RangeFailure where
  | badRequest (e : BadRequest)
  | rangeError
  deriving DecidableEq

def parseRange (texts : TextValues) (fromValue toValue : Option String) :
    Except RangeFailure (Option (Js.Date × Js.Date)) := do
  let start ← (QueryParamsUtil.toOptionalDate texts fromValue "from").mapError .badRequest
  let stop ← (QueryParamsUtil.toOptionalDate texts toValue "to").mapError .badRequest
  match start, stop with
  | none, none => return none
  | some start, some stop =>
    if stop ≤ start then
      throw (.badRequest ⟨none, "from must be before to."⟩)
    let limit ← (addMonthsInTimeZone zone start maxRangeMonths).mapError fun _ => .rangeError
    -- Nothing is later than a limit that is no date.
    if limit.any fun limit => limit < stop then
      throw (.badRequest ⟨none, "Custom range cannot exceed 4 months."⟩)
    return some (start, stop)
  | _, _ => throw (.badRequest ⟨none, "from and to must be provided together."⟩)

theorem matchMinutes_fixedDigits {minutes : ℕ} (h : minutes < 60) :
    matchMinutes (':' :: fixedDigits 2 minutes) = minutes := by
  revert minutes
  decide

/-- Hours of one digit or two end at the colon or at the end. -/
theorem matchHours_toDigits {hours : ℕ} (h : hours < 16) (rest : List Char) :
    matchHours (Nat.toDigits 10 hours) = some ((hours : ℤ) * 60) ∧
      matchHours (Nat.toDigits 10 hours ++ ':' :: rest) =
        some ((hours : ℤ) * 60 + matchMinutes (':' :: rest)) := by
  interval_cases hours <;> exact ⟨rfl, rfl⟩

/-- What is written of an offset is read back. -/
theorem offsetOfText_shortOffset {offset : ℤ} (h : -900 ≤ offset ∧ offset ≤ 900) :
    offsetOfText (shortOffset offset) = offset := by
  have hhours : offset.natAbs / 60 < 16 := by omega
  have hminutes : offset.natAbs % 60 < 60 := by omega
  obtain ⟨hwhole, hpart⟩ := matchHours_toDigits hhours (fixedDigits 2 (offset.natAbs % 60))
  rw [matchMinutes_fixedDigits hminutes] at hpart
  have hplus : ∀ rest, offsetOfText (['G', 'M', 'T', '+'] ++ rest) = (matchHours rest).getD 0 :=
    fun _ => rfl
  have hminus : ∀ rest, offsetOfText (['G', 'M', 'T', '-'] ++ rest) = -(matchHours rest).getD 0 :=
    fun _ => rfl
  have hvalue : (matchHours (Nat.toDigits 10 (offset.natAbs / 60) ++
      if offset.natAbs % 60 = 0 then [] else ':' :: fixedDigits 2 (offset.natAbs % 60))).getD 0 =
      offset.natAbs := by
    split_ifs with hnone
    · rw [List.append_nil, hwhole, Option.getD_some]
      omega
    · rw [hpart, Option.getD_some]
      omega
  unfold shortOffset
  by_cases hzero : offset = 0
  · rw [hzero]
    rfl
  · by_cases hneg : offset < 0
    · simp only [if_neg hzero, if_pos hneg, List.append_assoc]
      rw [hminus, hvalue]
      omega
    · simp only [if_neg hzero, if_neg hneg, List.append_assoc]
      rw [hplus, hvalue]
      omega

/-- What a `Date` can hold. -/
def IsTime (time : ℤ) : Prop := -maxTime ≤ time ∧ time ≤ maxTime

instance (time : ℤ) : Decidable (IsTime time) := inferInstanceAs (Decidable (_ ∧ _))

theorem timeClip_eq_some {time date : ℤ} :
    timeClip time = some date ↔ IsTime time ∧ time = date := by
  unfold timeClip IsTime
  split_ifs with h
  · simp [h]
  · simp [h]

/-- A local date and time to the second. -/
structure LocalTime where
  date : CivilDate
  hour : ℤ
  minute : ℤ
  second : ℤ
  isDay : date.IsDay
  hour_bounds : 0 ≤ hour ∧ hour < 24
  minute_bounds : 0 ≤ minute ∧ minute < 60
  second_bounds : 0 ≤ second ∧ second < 60

/-- The instant that has the local time in UTC. -/
def LocalTime.time (l : LocalTime) : ℤ :=
  (l.date.days * 86400 + l.hour * 3600 + l.minute * 60 + l.second) * 1000

/-- Milliseconds that the zone's clocks are ahead. -/
def offsetMs (date : Js.Date) : ℤ := zone.offset date * 60000

theorem offsetMs_bounds (date : Js.Date) :
    -54000000 ≤ offsetMs zone date ∧ offsetMs zone date ≤ 54000000 := by
  have hbounds := zone.offset_bounds date
  unfold offsetMs
  omega

theorem zonedLocalToUtc_of_guess {year month day hour minute second : ℤ} {guess : ℤ}
    (h : dateUTC year (month - 1) day hour minute second = some guess) :
    zonedLocalToUtc zone year month day hour minute second =
      match timeClip (guess - offsetMs zone guess) with
      | none => .error .invalidTime
      | some first => .ok (timeClip (guess - offsetMs zone first)) := by
  have hoffset : ∀ date, offsetMinutesForTimeZone zone (some date) = .ok (zone.offset date) :=
    fun date => congrArg Except.ok (offsetOfText_shortOffset (zone.offset_bounds date))
  unfold zonedLocalToUtc
  simp only [h, hoffset, Option.bind_some, bind, Except.bind, offsetMs]
  cases timeClip (guess - zone.offset guess * 60000) with
  | none => rfl
  | some first =>
    simp only [hoffset]
    rfl

theorem zonedLocalToUtc_of_none {year month day hour minute second : ℤ}
    (h : dateUTC year (month - 1) day hour minute second = none) :
    zonedLocalToUtc zone year month day hour minute second = .error .invalidTime := by
  unfold zonedLocalToUtc
  rw [h]
  rfl

/-- What is found is near the guess, and both steps are dates. -/
theorem near_of_zonedLocalToUtc {year month day hour minute second : ℤ} {x : ℤ}
    (h : zonedLocalToUtc zone year month day hour minute second = .ok (some x)) :
    ∃ guess : ℤ, dateUTC year (month - 1) day hour minute second = some guess ∧
      IsTime (guess - offsetMs zone guess) ∧ x ≤ guess + 54000000 ∧ guess ≤ x + 54000000 := by
  cases hguess : dateUTC year (month - 1) day hour minute second with
  | none =>
    rw [zonedLocalToUtc_of_none zone hguess] at h
    cases h
  | some guess =>
    rw [zonedLocalToUtc_of_guess zone hguess] at h
    cases hfirst : timeClip (guess - offsetMs zone guess) with
    | none =>
      rw [hfirst] at h
      cases h
    | some first =>
      rw [hfirst] at h
      obtain ⟨-, hx⟩ := timeClip_eq_some.mp (Except.ok.inj h)
      have hbounds := offsetMs_bounds zone first
      exact ⟨guess, rfl, (timeClip_eq_some.mp hfirst).1, by omega, by omega⟩

/-- The guess for a year that is not read as one of the twentieth century. -/
theorem dateUTC_of_fullYear (l : LocalTime) (h : ¬ (0 ≤ l.date.year ∧ l.date.year ≤ 99)) :
    dateUTC l.date.year (l.date.month - 1) l.date.day l.hour l.minute l.second =
      timeClip l.time := by
  obtain ⟨hlow, hup⟩ := l.isDay.month_bounds
  have hdiv : (l.date.month - 1) / 12 = 0 := by omega
  have hmod : (l.date.month - 1) % 12 + 1 = l.date.month := by omega
  have hdays := days_eq_add l.date.year l.date.month l.date.day
  unfold dateUTC LocalTime.time
  simp only [if_neg h, hdiv, hmod, add_zero]
  rw [← hdays]

/-- What is found for a later year of the same month is not the instant of a local time. -/
theorem zonedLocalToUtc_ne_of_later (l : LocalTime) {year day : ℤ}
    (hyear : l.date.year < if 0 ≤ year ∧ year ≤ 99 then 1900 + year else year) (hday : 1 ≤ day)
    {x : ℤ} (hx : x + offsetMs zone x = l.time) :
    zonedLocalToUtc zone year l.date.month day l.hour l.minute l.second ≠ .ok (some x) := by
  intro h
  obtain ⟨guess, hguess, -, hnear⟩ := near_of_zonedLocalToUtc zone h
  obtain ⟨hlow, hup⟩ := l.isDay.month_bounds
  have hlength := monthLength_bounds l.date.year l.date.month
  have hlast := l.isDay.day_bounds
  have hdiv : (l.date.month - 1) / 12 = 0 := by omega
  have hmod : (l.date.month - 1) % 12 + 1 = l.date.month := by omega
  have hdays : l.date.days = (CivilDate.mk l.date.year l.date.month 1).days + (l.date.day - 1) :=
    days_eq_add l.date.year l.date.month l.date.day
  have hlater := days_year_lt hyear l.date.month
  simp only [dateUTC, hdiv, hmod, add_zero] at hguess
  obtain ⟨-, htime⟩ := timeClip_eq_some.mp hguess
  have hbounds := offsetMs_bounds zone x
  unfold LocalTime.time at hx
  omega

/-- Within the dates, the one instant of a local time is found unless the year is taken for another. -/
theorem zonedLocalToUtc_eq_iff (l : LocalTime) {x : ℤ} (hx : IsTime x)
    (honly : OnlyAt (offsetMs zone) l.time x) :
    zonedLocalToUtc zone l.date.year l.date.month l.date.day l.hour l.minute l.second =
        .ok (some x) ↔
      ¬ (0 ≤ l.date.year ∧ l.date.year ≤ 99) ∧ IsTime l.time ∧
        IsTime (l.time - offsetMs zone l.time) := by
  constructor
  · intro h
    obtain ⟨guess, hguess, hfirst, hnear⟩ := near_of_zonedLocalToUtc zone h
    have hyear : ¬ (0 ≤ l.date.year ∧ l.date.year ≤ 99) := by
      intro htwo
      refine zonedLocalToUtc_ne_of_later zone l ?_ l.isDay.day_bounds.1 honly.1 h
      rw [if_pos htwo]
      omega
    rw [dateUTC_of_fullYear l hyear] at hguess
    obtain ⟨htime, rfl⟩ := timeClip_eq_some.mp hguess
    exact ⟨hyear, htime, hfirst⟩
  · rintro ⟨hyear, htime, hfirst⟩
    have hguess := (dateUTC_of_fullYear l hyear).trans (timeClip_eq_some.mpr ⟨htime, rfl⟩)
    rw [zonedLocalToUtc_of_guess zone hguess, timeClip_eq_some.mpr ⟨hfirst, rfl⟩]
    have hstep : l.time - offsetMs zone (l.time - offsetMs zone l.time) = x :=
      zone.spaced.twoSteps honly
    simp only [hstep, timeClip_eq_some.mpr ⟨hx, rfl⟩]

/-- The local date of an instant, in the calendar's own years. -/
def localDate (date : Js.Date) : CivilDate := civilOfDays (zone.localTime date / 86400000)

/-- So many months after a month, counted from the year 0. -/
def monthsFrom (c : CivilDate) (months : ℤ) : ℤ := c.year * 12 + (c.month - 1) + months

/-- The local time of day that many calendar months later, on the last day of a month that is too
short for the day. -/
def monthsLater (date : Js.Date) (months : ℕ) : LocalTime where
  date :=
    let total := monthsFrom (localDate zone date) months
    ⟨total / 12, total % 12 + 1,
      min (localDate zone date).day (monthLength (total / 12) (total % 12 + 1))⟩
  hour := zone.localTime date % 86400000 / 3600000
  minute := zone.localTime date % 3600000 / 60000
  second := zone.localTime date % 60000 / 1000
  isDay := by
    have hday := (civilOfDays_bounds (zone.localTime date / 86400000)).2.2
    have hlength := monthLength_bounds (monthsFrom (localDate zone date) months / 12)
      (monthsFrom (localDate zone date) months % 12 + 1)
    refine ⟨?_, ?_, min_le_right _ _⟩
    · simp only
      omega
    · exact le_min hday.1 (by omega)
  hour_bounds := by omega
  minute_bounds := by omega
  second_bounds := by omega

/-- The first millisecond of the last day of a month, in UTC. -/
def lastDayOf (year month : ℤ) : ℤ :=
  (CivilDate.mk year month (monthLength year month)).days * 86400000

/-- `new Date(Date.UTC(year, month, 0)).getUTCDate()` for a year that is not taken for another. -/
theorem getUTCDate_lastDay {year month : ℤ} (hmonth : 1 ≤ month ∧ month ≤ 12)
    (hyear : ¬ (0 ≤ year ∧ year ≤ 99)) :
    (dateUTC year month 0 0 0 0).map getUTCDate =
      if IsTime (lastDayOf year month) then some (monthLength year month) else none := by
  have hlength := monthLength_bounds year month
  have hday : (CivilDate.mk year month (monthLength year month)).IsDay :=
    ⟨hmonth, by simp only; omega⟩
  have hlast := days_eq_add year month (monthLength year month)
  have hnext := days_nextMonth year hmonth
  have hdays : (CivilDate.mk (year + month / 12) (month % 12 + 1) 1).days + (0 - 1) =
      (CivilDate.mk year month (monthLength year month)).days := by omega
  have htime : dateUTC year month 0 0 0 0 = timeClip (lastDayOf year month) := by
    simp only [dateUTC, if_neg hyear, hdays, lastDayOf]
    congr 1
    ring
  have hdate : getUTCDate (lastDayOf year month) = monthLength year month := by
    have hdiv : lastDayOf year month / 86400000 =
        (CivilDate.mk year month (monthLength year month)).days :=
      Int.mul_ediv_cancel _ (by decide)
    rw [getUTCDate, hdiv, civilOfDays_days hday]
  rw [htime]
  by_cases hlastDay : IsTime (lastDayOf year month)
  · rw [if_pos hlastDay, timeClip_eq_some.mpr ⟨hlastDay, rfl⟩, Option.map_some, hdate]
  · have hnone : timeClip (lastDayOf year month) = none := if_neg hlastDay
    rw [if_neg hlastDay, hnone, Option.map_none]

/-- A month whose last day is a date ends well before the last of all dates. -/
theorem lastDayOf_le {year month : ℤ} (hmonth : 1 ≤ month ∧ month ≤ 12)
    (h : IsTime (lastDayOf year month)) : lastDayOf year month ≤ maxTime - 2 * 86400000 := by
  have hlength := monthLength_bounds year month
  have hday : (CivilDate.mk year month (monthLength year month)).IsDay :=
    ⟨hmonth, by simp only; omega⟩
  have hcivil := congrArg CivilDate.day (civilOfDays_days hday)
  have hlast : (civilOfDays 100000000).day = 13 ∧ (civilOfDays 99999999).day = 12 := by decide
  obtain ⟨-, hle⟩ := h
  unfold lastDayOf maxTime at *
  generalize (CivilDate.mk year month (monthLength year month)).days = days at *
  have hne : days ≠ 100000000 ∧ days ≠ 99999999 := by
    refine ⟨?_, ?_⟩
    · rintro rfl
      simp only at hcivil
      omega
    · rintro rfl
      simp only at hcivil
      omega
  omega

/-- A local time of such a month, and the instants near it, are dates. -/
theorem time_bounds (l : LocalTime) (hyear : 100 ≤ l.date.year)
    (h : IsTime (lastDayOf l.date.year l.date.month)) :
    -maxTime + 86400000 ≤ l.time ∧ l.time ≤ maxTime - 86400000 := by
  have hmonth := l.isDay.month_bounds
  have hday := l.isDay.day_bounds
  have hhour := l.hour_bounds
  have hminute := l.minute_bounds
  have hsecond := l.second_bounds
  have hend := lastDayOf_le hmonth h
  have hdays : l.date.days = (CivilDate.mk l.date.year l.date.month 1).days + (l.date.day - 1) :=
    days_eq_add l.date.year l.date.month l.date.day
  have hlast := days_eq_add l.date.year l.date.month (monthLength l.date.year l.date.month)
  have hfirst := days_year_lt (show 99 < l.date.year by omega) l.date.month
  have hcentury : -1000000 ≤ (CivilDate.mk 99 l.date.month 1).days := by
    simp only [CivilDate.days]
    split_ifs <;> omega
  unfold lastDayOf maxTime at *
  unfold LocalTime.time
  omega

/-- The year that the parts of a local date have. -/
def readYear (c : CivilDate) : ℤ := if 1 ≤ c.year then c.year else 1 - c.year

/-- The year that is gone on with. -/
def laterYear (date : Js.Date) (months : ℕ) : ℤ :=
  monthsFrom { localDate zone date with year := readYear (localDate zone date) } months / 12

theorem addMonthsInTimeZone_eq (date : Js.Date) (months : ℕ) :
    addMonthsInTimeZone zone date months =
      let l := monthsLater zone date months
      let year := laterYear zone date months
      match (dateUTC year l.date.month 0 0 0 0).map getUTCDate with
      | none => .error .invalidTime
      | some lastDay => zonedLocalToUtc zone year l.date.month
          (min (localDate zone date).day lastDay) l.hour l.minute l.second := by
  have hmonth := (civilOfDays_bounds (zone.localTime date / 86400000)).1
  have hread : 1 ≤ readYear (localDate zone date) := by
    unfold readYear
    split_ifs <;> omega
  have htotal : (readYear (localDate zone date) * 12 + ((localDate zone date).month - 1) +
      (months : ℤ)).tmod 12 + 1 = (monthsLater zone date months).date.month := by
    have hnonneg : 0 ≤ readYear (localDate zone date) * 12 + ((localDate zone date).month - 1) +
        (months : ℤ) := by
      unfold localDate at *
      omega
    rw [Int.tmod_eq_emod_of_nonneg hnonneg]
    simp only [monthsLater, monthsFrom]
    omega
  simp only [← htotal]
  rfl

/-- A later year is read where the local year is before the year 1. -/
theorem laterYear_eq (date : Js.Date) (months : ℕ) :
    laterYear zone date months = (monthsLater zone date months).date.year +
      if 1 ≤ (localDate zone date).year then 0 else 1 - 2 * (localDate zone date).year := by
  simp only [laterYear, monthsLater, monthsFrom, readYear]
  split_ifs <;> omega

/-- The instant that many months later is found where no year on the way is taken for another and
the month ends within the dates. -/
theorem addMonthsInTimeZone_eq_iff {date : Js.Date} {months : ℕ} {x : ℤ}
    (honly : OnlyAt (offsetMs zone) (monthsLater zone date months).time x) :
    addMonthsInTimeZone zone date months = .ok (some x) ↔
      1 ≤ (localDate zone date).year ∧ 100 ≤ (monthsLater zone date months).date.year ∧
        IsTime (lastDayOf (monthsLater zone date months).date.year
          (monthsLater zone date months).date.month) := by
  have hday := (civilOfDays_bounds (zone.localTime date / 86400000)).2.2.1
  have hmonths := (monthsLater zone date months).isDay.month_bounds
  have hlater := laterYear_eq zone date months
  rw [addMonthsInTimeZone_eq]
  simp only
  constructor
  · intro h
    cases hlast : (dateUTC (laterYear zone date months) (monthsLater zone date months).date.month
        0 0 0 0).map getUTCDate with
    | none =>
      rw [hlast] at h
      cases h
    | some lastDay =>
      rw [hlast] at h
      simp only at h
      have hlastDay : 1 ≤ lastDay := by
        obtain ⟨time, -, rfl⟩ := Option.map_eq_some_iff.mp hlast
        exact (civilOfDays_bounds _).2.2.1
      have hyears : 1 ≤ (localDate zone date).year ∧
          100 ≤ (monthsLater zone date months).date.year := by
        by_contra hyears
        refine zonedLocalToUtc_ne_of_later zone (monthsLater zone date months) ?_
          (le_min hday hlastDay) honly.1 h
        have hfirst : 1 ≤ (localDate zone date).year →
            1 ≤ (monthsLater zone date months).date.year := by
          have hmonth := (civilOfDays_bounds (zone.localTime date / 86400000)).1
          simp only [monthsLater, monthsFrom, localDate]
          omega
        split_ifs at hlater ⊢ <;> omega
      obtain ⟨hyear, hcentury⟩ := hyears
      rw [if_pos hyear, add_zero] at hlater
      rw [hlater, getUTCDate_lastDay hmonths (by omega)] at hlast
      refine ⟨hyear, hcentury, ?_⟩
      by_contra hnot
      rw [if_neg hnot] at hlast
      cases hlast
  · rintro ⟨hyear, hcentury, hlast⟩
    rw [if_pos hyear, add_zero] at hlater
    rw [hlater, getUTCDate_lastDay hmonths (by omega), if_pos hlast]
    have htime := time_bounds (monthsLater zone date months) hcentury hlast
    have hguess := offsetMs_bounds zone (monthsLater zone date months).time
    have hat := honly.1
    have hbounds := offsetMs_bounds zone x
    refine (zonedLocalToUtc_eq_iff zone (monthsLater zone date months) ?_ honly).mpr ⟨by omega, ?_, ?_⟩
    · exact ⟨by omega, by omega⟩
    · exact ⟨by omega, by omega⟩
    · exact ⟨by omega, by omega⟩

/-- In any zone the one instant of a local time is found, and that of the same time of day so many
calendar months later, exactly when no year on the way is taken for another and nothing on the way
is past the last of the dates. -/
theorem zoned_calendar_iff :
    (∀ (l : LocalTime) (x : ℤ), IsTime x → OnlyAt (offsetMs zone) l.time x →
      (zonedLocalToUtc zone l.date.year l.date.month l.date.day l.hour l.minute l.second =
          .ok (some x) ↔
        ¬ (0 ≤ l.date.year ∧ l.date.year ≤ 99) ∧ IsTime l.time ∧
          IsTime (l.time - offsetMs zone l.time))) ∧
    (∀ (date : Js.Date) (months : ℕ) (x : ℤ),
      OnlyAt (offsetMs zone) (monthsLater zone date months).time x →
      (addMonthsInTimeZone zone date months = .ok (some x) ↔
        1 ≤ (localDate zone date).year ∧ 100 ≤ (monthsLater zone date months).date.year ∧
          IsTime (lastDayOf (monthsLater zone date months).date.year
            (monthsLater zone date months).date.month))) :=
  ⟨fun l _ hx honly => zonedLocalToUtc_eq_iff zone l hx honly,
    fun _ _ _ honly => addMonthsInTimeZone_eq_iff zone honly⟩

/-- A zone whose clocks are set from one hour ahead to two. -/
def sampleZone : Zone where
  offset := fun date : ℤ => if date < 1774746000000 then 60 else 120
  spaced :=
    { bounded := by
        intro t
        split_ifs <;> omega
      apart := by
        have hchange : ∀ c, Numeric.Steps.ChangesAt
            (fun date : ℤ => (if date < 1774746000000 then 60 else 120 : ℤ) * 60000) c →
            c = 1774746000000 := by
          intro c hc
          simp only [Numeric.Steps.ChangesAt] at hc
          split_ifs at hc <;> omega
        intro c c' hc hc' hlt
        have hfirst := hchange c hc
        have hsecond := hchange c' hc'
        omega
      wide := by decide }

def sampleLocal : LocalTime :=
  ⟨⟨2026, 3, 30⟩, 10, 30, 0, ⟨by decide, by decide⟩, by decide, by decide, by decide⟩

/-- Four months after the thirtieth of November, past a change of the clocks. -/
theorem zoned_calendar_sample :
    zonedLocalToUtc sampleZone 2026 3 30 10 30 0 = .ok (some 1774859400000) ∧
      addMonthsInTimeZone sampleZone 1764495000000 4 = .ok (some 1774859400000) := by
  have honly : OnlyAt (offsetMs sampleZone) 1774866600000 1774859400000 := by
    refine ⟨by decide, fun y hy => ?_⟩
    have hoffset : y + (if y < 1774746000000 then 60 else 120) * 60000 = 1774866600000 := hy
    split_ifs at hoffset <;> omega
  obtain ⟨hlocal, hmonths⟩ := zoned_calendar_iff sampleZone
  exact ⟨(hlocal sampleLocal _ (by decide) honly).mpr (by decide),
    (hmonths 1764495000000 4 _ honly).mpr (by decide)⟩

def utc : Zone where
  offset _ := 0
  spaced :=
    { bounded := fun _ => by decide
      apart := fun _ _ hc => absurd rfl hc
      wide := by decide }

/-- Midnight of the first day of the year 50 is found in 1950, and with it a range from that day to
the end of 1949 is within four months. -/
theorem zoned_calendar_twoDigits :
    OnlyAt (offsetMs utc) (-60589296000000) (-60589296000000) ∧
    (civilOfDays (-60589296000000 / 86400000) = ⟨50, 1, 1⟩) ∧
    zonedLocalToUtc utc 50 1 1 0 0 0 = .ok (some (-631152000000)) ∧
    addMonthsInTimeZone utc (-60589296000000) 4 = .ok (some (-620784000000)) ∧
    parseRange utc TransactionReportParams.sampleTexts (some "0050-01-01T00:00:00.000Z")
      (some "1949-12-31T00:00:00.000Z") = .ok (some (-60589296000000, -631238400000)) := by
  refine ⟨⟨rfl, fun y hy => ?_⟩, by decide, by decide, by decide, by rfl⟩
  have hzero : y + 0 * 60000 = (-60589296000000 : ℤ) := hy
  omega

end DashboardAuditController
end Audit
