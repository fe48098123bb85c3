import Pivotal.Js.Date

/-! The texts of `Date.prototype.toUTCString`, which are the dates of HTTP headers. -/
namespace Js

def weekdayNames : List String := ["Sun", "Mon", "Tue", "Wed", "Thu", "Fri", "Sat"]

def monthNames : List String :=
  ["Jan", "Feb", "Mar", "Apr", "May", "Jun", "Jul", "Aug", "Sep", "Oct", "Nov", "Dec"]

/-- A year has at least four digits. -/
def utcYearChars (year : ℤ) : List Char :=
  (if year < 0 then ['-'] else []) ++ padStart 4 (toString year.natAbs).toList

/-- The time of day to the second, given in milliseconds. -/
def utcTimeChars (time : ℕ) : List Char :=
  fixedDigits 2 (time / 3600000) ++ ':' :: (fixedDigits 2 (time / 60000 % 60) ++ ':' ::
    fixedDigits 2 (time / 1000 % 60))

def utcChars (date : Date) : List Char :=
  let days := date / 86400000
  let civil := civilOfDays days
  (weekdayNames.getD ((days + 4) % 7).toNat "").toList ++ ',' :: ' ' ::
    (fixedDigits 2 civil.day.toNat ++ ' ' ::
      ((monthNames.getD (civil.month - 1).toNat "").toList ++ ' ' ::
        (utcYearChars civil.year ++ ' ' ::
          (utcTimeChars (date % 86400000).toNat ++ " GMT".toList))))

/-- `date.toUTCString()` -/
def toUTCString (date : Date) : String := String.ofList (utcChars date)

/-- A year below 50 is taken for one of this century, one below 100 for one of the last, also with
zeros before it; a sign is not read. -/
def parseUtcYear (cs : List Char) : Option ℤ :=
  if cs.length < 4 ∨ cs.all isDigit = false then none
  else
    let year := digitsValue cs
    some (if year < 50 then year + 2000 else if year < 100 then year + 1900 else year)

def parseUtcTime (cs : List Char) : Option ℤ := do
  let (hour, cs) ← takeDigits 2 cs
  let cs ← takeChar ':' cs
  let (minute, cs) ← takeDigits 2 cs
  let cs ← takeChar ':' cs
  let (second, cs) ← takeDigits 2 cs
  if cs = [] then some (((hour * 60 + minute) * 60 + second) * 1000) else none

/-- `Date.parse` of a text of the form of `toUTCString`. The name of the weekday and numbers
out of range are not looked at: who compares the date with its text again sees them. -/
def parseUtcString (text : String) : Option Date :=
  match split ' ' text.toList with
  | [_, day, month, year, time, _] => do
    let (day, _) ← takeDigits 2 day
    let index := monthNames.findIdx (·.toList = month)
    let year ← parseUtcYear year
    let time ← parseUtcTime time
    timeClip (CivilDate.days ⟨year, index + 1, day⟩ * 86400000 + time)
  | _ => none

example : toUTCString 784111777000 = "Sun, 06 Nov 1994 08:49:37 GMT" ∧
    parseUtcString "Sun, 06 Nov 1994 08:49:37 GMT" = some 784111777000 ∧
    (parseUtcString "Sun, 06 Nov 0094 08:49:37 GMT").map toUTCString =
      some "Sun, 06 Nov 1994 08:49:37 GMT" := by
  decide +kernel

end Js
