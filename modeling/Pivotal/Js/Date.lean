import Mathlib.Algebra.Order.Ring.Int
import Pivotal.Js.Text

/-! Instants and their ISO texts. -/
namespace Js

/-- An instant, in milliseconds since the epoch. -/
abbrev Date := ℤ

/-- The largest instant of a valid `Date`, either way from the epoch. -/
def maxTime : ℤ := 8640000000000000

/-- `new Date(time)` of an integer; nothing is an invalid date. -/
def timeClip (time : ℤ) : Option Date :=
  if -maxTime ≤ time ∧ time ≤ maxTime then some time else none

/-- A day of the proleptic Gregorian calendar. -/
structure CivilDate where
  year : ℤ
  month : ℤ
  day : ℤ
  deriving DecidableEq

/-! Days are counted from the first of March of the year 0, in eras of 400 years. A century of
an era has 36524 days and its four-year groups 1461, but for the last ones. -/

def centuryOf (dayOfEra : ℤ) : ℤ := min (dayOfEra / 36524) 3

def groupOf (dayOfEra : ℤ) : ℤ := (dayOfEra - 36524 * centuryOf dayOfEra) / 1461

def dayOfGroup (dayOfEra : ℤ) : ℤ :=
  dayOfEra - 36524 * centuryOf dayOfEra - 1461 * groupOf dayOfEra

def yearOfGroup (dayOfEra : ℤ) : ℤ := min (dayOfGroup dayOfEra / 365) 3

def yearOfEra (dayOfEra : ℤ) : ℤ :=
  100 * centuryOf dayOfEra + 4 * groupOf dayOfEra + yearOfGroup dayOfEra

def dayOfYear (dayOfEra : ℤ) : ℤ := dayOfGroup dayOfEra - 365 * yearOfGroup dayOfEra

/-- The date of a day counted from the epoch. -/
def civilOfDays (days : ℤ) : CivilDate :=
  let era := (days + 719468) / 146097
  let dayOfEra := (days + 719468) % 146097
  let month := (5 * dayOfYear dayOfEra + 2) / 153
  { year := yearOfEra dayOfEra + 400 * era + if month < 10 then 0 else 1
    month := if month < 10 then month + 3 else month - 9
    day := dayOfYear dayOfEra - (153 * month + 2) / 5 + 1 }

/-- The day of a date counted from the epoch, also for days past the end of the month. -/
def CivilDate.days (c : CivilDate) : ℤ :=
  let year := if c.month < 3 then c.year - 1 else c.year
  let month := if c.month < 3 then c.month + 9 else c.month - 3
  let yearOfEra := year % 400
  146097 * (year / 400) + (365 * yearOfEra + yearOfEra / 4 - yearOfEra / 100) +
    ((153 * month + 2) / 5 + c.day - 1) - 719468

theorem centuryOf_bounds {n : ℤ} (h₀ : 0 ≤ n) (h₁ : n < 146097) :
    0 ≤ centuryOf n ∧ centuryOf n ≤ 3 ∧ 0 ≤ n - 36524 * centuryOf n ∧
      n - 36524 * centuryOf n ≤ 36524 := by
  unfold centuryOf
  omega

theorem groupOf_bounds {n : ℤ} (h₀ : 0 ≤ n) (h₁ : n < 146097) :
    0 ≤ groupOf n ∧ groupOf n ≤ 24 ∧ 0 ≤ dayOfGroup n ∧ dayOfGroup n ≤ 1460 := by
  have hc := centuryOf_bounds h₀ h₁
  unfold dayOfGroup groupOf
  omega

theorem yearOfGroup_bounds {n : ℤ} (h₀ : 0 ≤ n) (h₁ : n < 146097) :
    0 ≤ yearOfGroup n ∧ yearOfGroup n ≤ 3 ∧ 0 ≤ dayOfYear n ∧ dayOfYear n ≤ 365 := by
  have hg := groupOf_bounds h₀ h₁
  unfold dayOfYear yearOfGroup
  omega

theorem yearOfEra_bounds {n : ℤ} (h₀ : 0 ≤ n) (h₁ : n < 146097) :
    0 ≤ yearOfEra n ∧ yearOfEra n < 400 := by
  have hc := centuryOf_bounds h₀ h₁
  have hg := groupOf_bounds h₀ h₁
  have hy := yearOfGroup_bounds h₀ h₁
  unfold yearOfEra
  omega

/-- A day of an era is its year's first day and its day of the year. -/
theorem dayOfEra_eq {n : ℤ} (h₀ : 0 ≤ n) (h₁ : n < 146097) :
    365 * yearOfEra n + yearOfEra n / 4 - yearOfEra n / 100 + dayOfYear n = n := by
  have hc := centuryOf_bounds h₀ h₁
  have hg := groupOf_bounds h₀ h₁
  have hy := yearOfGroup_bounds h₀ h₁
  have h4 : yearOfEra n / 4 = 25 * centuryOf n + groupOf n := by
    unfold yearOfEra
    omega
  have h100 : yearOfEra n / 100 = centuryOf n := by
    unfold yearOfEra
    omega
  rw [h4, h100]
  unfold yearOfEra dayOfYear dayOfGroup
  omega

/-- The day of a date given by its era and its months from March. -/
theorem days_ofMarch {year era month day : ℤ} (hy : 0 ≤ year ∧ year < 400)
    (hm : 0 ≤ month ∧ month ≤ 11) :
    (CivilDate.mk (year + 400 * era + if month < 10 then 0 else 1)
      (if month < 10 then month + 3 else month - 9) day).days =
      146097 * era + (365 * year + year / 4 - year / 100) + ((153 * month + 2) / 5 + day - 1) -
        719468 := by
  have hdiv : (year + 400 * era) / 400 = era := by omega
  have hmod : (year + 400 * era) % 400 = year := by omega
  unfold CivilDate.days
  -- January and February belong to the year that began in March.
  by_cases hlate : month < 10
  · have hnot : ¬ month + 3 < 3 := by omega
    simp only [hlate, if_true, hnot, if_false, add_zero, hdiv, hmod, add_sub_cancel_right]
  · have hjan : month - 9 < 3 := by omega
    simp only [hlate, if_false, hjan, if_true, add_sub_cancel_right, hdiv, hmod, sub_add_cancel]

theorem days_civilOfDays (days : ℤ) : (civilOfDays days).days = days := by
  have h₀ : 0 ≤ (days + 719468) % 146097 := Int.emod_nonneg _ (by decide)
  have h₁ : (days + 719468) % 146097 < 146097 := Int.emod_lt_of_pos _ (by decide)
  have hera := Int.mul_ediv_add_emod (days + 719468) 146097
  have hday := (yearOfGroup_bounds h₀ h₁).2.2
  have heq := dayOfEra_eq h₀ h₁
  unfold civilOfDays
  rw [days_ofMarch (yearOfEra_bounds h₀ h₁) (by omega)]
  omega

theorem civilOfDays_bounds (days : ℤ) : 1 ≤ (civilOfDays days).month ∧
    (civilOfDays days).month ≤ 12 ∧ 1 ≤ (civilOfDays days).day ∧ (civilOfDays days).day ≤ 31 := by
  have h₀ : 0 ≤ (days + 719468) % 146097 := Int.emod_nonneg _ (by decide)
  have h₁ : (days + 719468) % 146097 < 146097 := Int.emod_lt_of_pos _ (by decide)
  have hday := (yearOfGroup_bounds h₀ h₁).2.2
  unfold civilOfDays
  dsimp only
  split
  · omega
  · omega

/-! Texts of a fixed number of digits. -/

def fixedDigits : ℕ → ℕ → List Char
  | 0, _ => []
  | width + 1, n => fixedDigits width (n / 10) ++ [Nat.digitChar (n % 10)]

/-- The number that the first `width` characters are the digits of, and what follows them. -/
def takeDigits (width : ℕ) (cs : List Char) : Option (ℕ × List Char) :=
  if (cs.take width).length = width ∧ (cs.take width).all isDigit = true then
    some (digitsValue (cs.take width), cs.drop width)
  else none

@[simp] theorem length_fixedDigits (width n : ℕ) : (fixedDigits width n).length = width := by
  induction width generalizing n with
  | zero => rfl
  | succ width ih => simp [fixedDigits, ih]

theorem isDigit_fixedDigits (width n : ℕ) : (fixedDigits width n).all isDigit = true := by
  induction width generalizing n with
  | zero => rfl
  | succ width ih => simp [fixedDigits, ih, (digitChar_spec (n % 10) (by omega)).1]

theorem digitsValue_fixedDigits {width n : ℕ} (h : n < 10 ^ width) :
    digitsValue (fixedDigits width n) = n := by
  induction width generalizing n with
  | zero =>
    have hn : n = 0 := by simpa using h
    rw [hn]
    rfl
  | succ width ih =>
    have hdiv : n / 10 < 10 ^ width := by
      rw [pow_succ] at h
      omega
    rw [fixedDigits, digitsValue_snoc, ih hdiv, (digitChar_spec (n % 10) (by omega)).2.1]
    omega

@[simp] theorem takeDigits_fixedDigits {width n : ℕ} (h : n < 10 ^ width) (rest : List Char) :
    takeDigits width (fixedDigits width n ++ rest) = some (n, rest) := by
  have htake : (fixedDigits width n ++ rest).take width = fixedDigits width n := by
    rw [List.take_append_of_le_length (by simp), List.take_of_length_le (by simp)]
  have hdrop : (fixedDigits width n ++ rest).drop width = rest := by
    rw [List.drop_append_of_le_length (by simp), List.drop_of_length_le (by simp),
      List.nil_append]
  unfold takeDigits
  rw [htake, hdrop, if_pos ⟨length_fixedDigits .., isDigit_fixedDigits ..⟩,
    digitsValue_fixedDigits h]

/-! The texts of instants. -/

/-- Years outside of four digits have a sign and six. -/
def yearChars (year : ℤ) : List Char :=
  if 0 ≤ year ∧ year ≤ 9999 then fixedDigits 4 year.toNat
  else (if year < 0 then '-' else '+') :: fixedDigits 6 year.natAbs

def CivilDate.chars (c : CivilDate) : List Char :=
  yearChars c.year ++ '-' :: (fixedDigits 2 c.month.toNat ++ '-' :: fixedDigits 2 c.day.toNat)

/-- The time of day, given in milliseconds. -/
def timeChars (time : ℕ) : List Char :=
  fixedDigits 2 (time / 3600000) ++ ':' :: (fixedDigits 2 (time / 60000 % 60) ++ ':' ::
    (fixedDigits 2 (time / 1000 % 60) ++ '.' :: fixedDigits 3 (time % 1000)))

/-- The text of an instant, up to its time zone. -/
def isoChars (date : Date) : List Char :=
  (civilOfDays (date / 86400000)).chars ++ 'T' :: timeChars (date % 86400000).toNat

/-- Defined for valid dates; the others throw. -/
def toISOString (date : Date) : Option String :=
  if -maxTime ≤ date ∧ date ≤ maxTime then some (String.ofList (isoChars date ++ ['Z'])) else none

def takeChar (expected : Char) : List Char → Option (List Char)
  | [] => none
  | c :: cs => if c = expected then some cs else none

/-- The year -0 is not allowed. -/
def takeYear (cs : List Char) : Option (ℤ × List Char) :=
  match cs with
  | [] => none
  | c :: rest =>
    if c = '+' then (takeDigits 6 rest).map fun (year, rest) => ((year : ℤ), rest)
    else if c = '-' then (takeDigits 6 rest).bind fun (year, rest) =>
      if year = 0 then none else some (-(year : ℤ), rest)
    else (takeDigits 4 cs).map fun (year, rest) => ((year : ℤ), rest)

/-- The offset of a time zone in minutes. -/
def parseOffset (cs : List Char) : Option ℤ :=
  match cs with
  | [] => none
  | c :: rest =>
    if c = 'Z' then (if rest = [] then some 0 else none)
    else do
      let (hours, rest) ← takeDigits 2 rest
      let rest ← takeChar ':' rest
      let (minutes, rest) ← takeDigits 2 rest
      if rest ≠ [] ∨ 23 < hours ∨ 59 < minutes then none
      else if c = '+' then some (hours * 60 + minutes)
      else if c = '-' then some (-(hours * 60 + minutes))
      else none

def takeCivil (cs : List Char) : Option (CivilDate × List Char) := do
  let (year, cs) ← takeYear cs
  let cs ← takeChar '-' cs
  let (month, cs) ← takeDigits 2 cs
  let cs ← takeChar '-' cs
  let (day, cs) ← takeDigits 2 cs
  if month < 1 ∨ 12 < month ∨ day < 1 ∨ 31 < day then none
  else some (⟨year, month, day⟩, cs)

def takeTime (cs : List Char) : Option (ℕ × List Char) := do
  let (hour, cs) ← takeDigits 2 cs
  let cs ← takeChar ':' cs
  let (minute, cs) ← takeDigits 2 cs
  let cs ← takeChar ':' cs
  let (second, cs) ← takeDigits 2 cs
  let cs ← takeChar '.' cs
  let (millisecond, cs) ← takeDigits 3 cs
  if 23 < hour ∨ 59 < minute ∨ 59 < second then none
  else some (hour * 3600000 + minute * 60000 + second * 1000 + millisecond, cs)

/-- A date and time in the ISO format with milliseconds and a time zone. -/
def parseIso (cs : List Char) : Option Date := do
  let (civil, cs) ← takeCivil cs
  let cs ← takeChar 'T' cs
  let (time, cs) ← takeTime cs
  let offset ← parseOffset cs
  let date := civil.days * 86400000 + time - offset * 60000
  if -maxTime ≤ date ∧ date ≤ maxTime then some date else none

/-- `new Date(text).getTime()`, with nothing for `NaN`. What texts of other formats mean is
up to the engine. -/
def parseDate (other : String → Option Date) (text : String) : Option Date :=
  match parseIso text.toList with
  | some date => some date
  | none => other text

@[simp] theorem takeChar_self (c : Char) (cs : List Char) : takeChar c (c :: cs) = some cs :=
  if_pos rfl

theorem takeYear_yearChars {year : ℤ} (h : year.natAbs < 1000000) (rest : List Char) :
    takeYear (yearChars year ++ rest) = some (year, rest) := by
  unfold yearChars
  split
  · rename_i hsmall
    have hdigits := takeDigits_fixedDigits (n := year.toNat) (show _ < 10 ^ 4 by omega) rest
    have hhead := digitChar_spec (year.toNat / 10 / 10 / 10 % 10) (by omega)
    simp only [fixedDigits, List.nil_append, List.cons_append] at hdigits ⊢
    unfold takeYear
    dsimp only
    rw [if_neg hhead.2.2.1, if_neg hhead.2.2.2, hdigits]
    simp [hsmall.1]
  · rename_i hlarge
    have hdigits := takeDigits_fixedDigits (n := year.natAbs) (show _ < 10 ^ 6 from h) rest
    unfold takeYear
    by_cases hneg : year < 0
    · simp only [hneg, if_true, List.cons_append, hdigits, Option.bind_some]
      rw [if_neg (by decide), if_neg (by omega)]
      congr 2
      omega
    · simp only [hneg, if_false, List.cons_append, hdigits, Option.map_some, if_true]
      congr 2
      omega

theorem civilOfDays_year {days : ℤ} (h : -100000000 ≤ days ∧ days ≤ 100000000) :
    (civilOfDays days).year.natAbs < 1000000 := by
  have h₀ : 0 ≤ (days + 719468) % 146097 := Int.emod_nonneg _ (by decide)
  have h₁ : (days + 719468) % 146097 < 146097 := Int.emod_lt_of_pos _ (by decide)
  have hy := yearOfEra_bounds h₀ h₁
  unfold civilOfDays
  dsimp only
  split
  · omega
  · omega

theorem takeCivil_chars {c : CivilDate} (hyear : c.year.natAbs < 1000000)
    (hmonth : 1 ≤ c.month ∧ c.month ≤ 12) (hday : 1 ≤ c.day ∧ c.day ≤ 31) (rest : List Char) :
    takeCivil (c.chars ++ rest) = some (c, rest) := by
  have htakeMonth := takeDigits_fixedDigits (n := c.month.toNat) (show _ < 10 ^ 2 by omega)
  have htakeDay := takeDigits_fixedDigits (n := c.day.toNat) (show _ < 10 ^ 2 by omega)
  unfold takeCivil CivilDate.chars
  simp only [List.append_assoc, List.cons_append, takeYear_yearChars hyear, Option.bind_eq_bind,
    Option.bind_some, takeChar_self, htakeMonth, htakeDay]
  rw [if_neg (by omega), Int.toNat_of_nonneg (by omega), Int.toNat_of_nonneg (by omega)]

theorem takeTime_timeChars {time : ℕ} (h : time < 86400000) (rest : List Char) :
    takeTime (timeChars time ++ rest) = some (time, rest) := by
  have hhour := takeDigits_fixedDigits (n := time / 3600000) (show _ < 10 ^ 2 by omega)
  have hminute := takeDigits_fixedDigits (n := time / 60000 % 60) (show _ < 10 ^ 2 by omega)
  have hsecond := takeDigits_fixedDigits (n := time / 1000 % 60) (show _ < 10 ^ 2 by omega)
  have hmillisecond := takeDigits_fixedDigits (n := time % 1000) (show _ < 10 ^ 3 by omega)
  unfold takeTime timeChars
  simp only [List.append_assoc, List.cons_append, Option.bind_eq_bind, Option.bind_some,
    takeChar_self, hhour, hminute, hsecond, hmillisecond]
  rw [if_neg (by omega)]
  congr 2
  omega

/-- The text of a valid date is read back, however its offset of zero is written. -/
theorem parseIso_isoChars {date : ℤ} (h : -maxTime ≤ date ∧ date ≤ maxTime)
    {zone : List Char} (hzone : parseOffset zone = some 0) :
    parseIso (isoChars date ++ zone) = some date := by
  have hdays : -100000000 ≤ date / 86400000 ∧ date / 86400000 ≤ 100000000 := by
    unfold maxTime at h
    omega
  have hcivil := civilOfDays_bounds (date / 86400000)
  have hdate := takeCivil_chars (civilOfDays_year hdays) ⟨hcivil.1, hcivil.2.1⟩ hcivil.2.2
  have htime := takeTime_timeChars (show (date % 86400000).toNat < 86400000 by omega)
  have hsum : (civilOfDays (date / 86400000)).days * 86400000 + ((date % 86400000).toNat : ℤ) -
      0 * 60000 = date := by
    rw [days_civilOfDays]
    omega
  unfold parseIso isoChars
  simp only [List.append_assoc, List.cons_append, hdate, htime, Option.bind_eq_bind,
    Option.bind_some, takeChar_self, hzone, hsum]
  rw [if_pos h]

end Js
