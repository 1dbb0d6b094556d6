/-!
# Dates and moments

The proleptic Gregorian calendar for the years 1 to 9999, and moments with an optional offset from
UTC. Moments in UTC and seconds since 1970 convert into each other.
-/

namespace Assay

/-- A calendar day. -/
structure Date where
  year : Nat
  month : Nat
  day : Nat
  deriving Repr, DecidableEq

/-- A day, a time of day to the microsecond, and an offset from UTC in seconds if one is known. -/
structure Moment where
  date : Date
  hour : Nat
  minute : Nat
  second : Nat
  microsecond : Nat
  offset : Option Int
  deriving Repr, DecidableEq

/-- The part of a date or moment that is out of range. -/
inductive CalendarError where
  | year (n : Nat)
  | month
  | day
  | hour
  | minute
  | second
  | offset (days : Int) (seconds : Nat)
  deriving Repr, DecidableEq

namespace CalendarError

/-- A duration of whole days and the seconds beyond them. -/
def duration (days : Int) (seconds : Nat) : String :=
  let parts := (if days = 0 then [] else ["days=" ++ toString days]) ++
    (if seconds = 0 then [] else ["seconds=" ++ toString seconds])
  "datetime.timedelta(" ++ (if parts.isEmpty then "0" else ", ".intercalate parts) ++ ")"

/-- The error in words. -/
def message : CalendarError → String
  | .year n => "year " ++ toString n ++ " is out of range"
  | .month => "month must be in 1..12"
  | .day => "day is out of range for month"
  | .hour => "hour must be in 0..23"
  | .minute => "minute must be in 0..59"
  | .second => "second must be in 0..59"
  | .offset days seconds =>
    "offset must be a timedelta strictly between -timedelta(hours=24) and timedelta(hours=24), " ++
      "not " ++ duration days seconds ++ "."

end CalendarError

namespace Date

/-- Whether a year has a leap day. -/
def isLeap (year : Nat) : Bool := year % 4 == 0 && (year % 100 != 0 || year % 400 == 0)

/-- The number of days of a month. -/
def daysIn (year month : Nat) : Nat :=
  if month = 2 then (if isLeap year then 29 else 28)
  else if month = 4 ∨ month = 6 ∨ month = 9 ∨ month = 11 then 30
  else 31

/-- The date of three numbers, if there is one. -/
def of? (year month day : Nat) : Except CalendarError Date :=
  if year < 1 ∨ 9999 < year then .error (.year year)
  else if month < 1 ∨ 12 < month then .error .month
  else if day < 1 ∨ daysIn year month < day then .error .day
  else .ok ⟨year, month, day⟩

/-- Days from 1970-01-01 to a date. -/
def toDays (d : Date) : Int :=
  -- Years are counted from March, so that a leap day ends one.
  let y : Int := if d.month ≤ 2 then (d.year : Int) - 1 else d.year
  let m : Int := if d.month ≤ 2 then d.month + 9 else (d.month : Int) - 3
  let era := Int.fdiv y 400
  let yearOfEra := y - era * 400
  let dayOfYear := (153 * m + 2) / 5 + d.day - 1
  let dayOfEra := yearOfEra * 365 + yearOfEra / 4 - yearOfEra / 100 + dayOfYear
  era * 146097 + dayOfEra - 719468

/-- The year, month and day that lie a number of days after 1970-01-01. -/
def civil (days : Int) : Int × Nat × Nat :=
  let z := days + 719468
  let era := Int.fdiv z 146097
  let dayOfEra := z - era * 146097
  let yearOfEra := (dayOfEra - dayOfEra / 1460 + dayOfEra / 36524 - dayOfEra / 146096) / 365
  let dayOfYear := dayOfEra - (365 * yearOfEra + yearOfEra / 4 - yearOfEra / 100)
  let m := (5 * dayOfYear + 2) / 153
  let day := dayOfYear - (153 * m + 2) / 5 + 1
  let month := if m < 10 then m + 3 else m - 9
  let year := yearOfEra + era * 400 + (if month ≤ 2 then 1 else 0)
  (year, month.toNat, day.toNat)

/-- A number with leading zeros up to `width` digits. -/
def padded (width n : Nat) : String :=
  let s := toString n
  String.ofList (List.replicate (width - s.length) '0') ++ s

/-- The date as `YYYY-MM-DD`. -/
def toText (d : Date) : String :=
  padded 4 d.year ++ "-" ++ padded 2 d.month ++ "-" ++ padded 2 d.day

/-- The date as `YYYYMMDD`. The year of a stamp is not padded. -/
def stamp (d : Date) : String := toString d.year ++ padded 2 d.month ++ padded 2 d.day

end Date

namespace Moment

/-- Whole days and the seconds beyond them. -/
def splitSeconds (seconds : Int) : Int × Nat :=
  (Int.fdiv seconds 86400, (Int.fmod seconds 86400).toNat)

/-- The moment of a date, a time and an offset, if there is one. -/
def of? (date : Date) (hour minute second microsecond : Nat) (offset : Option Int) :
    Except CalendarError Moment := do
  match offset with
  | some o =>
    if 86400 ≤ o.natAbs then
      let (days, seconds) := splitSeconds o
      throw (.offset days seconds)
  | none => pure ()
  if 23 < hour then throw .hour
  else if 59 < minute then throw .minute
  else if 59 < second then throw .second
  else return ⟨date, hour, minute, second, microsecond, offset⟩

/-- The moment in UTC that lies a number of seconds after the start of 1970, if its year is between
1 and 9999. -/
def ofSeconds? (seconds : Int) : Option Moment :=
  let (days, rest) := splitSeconds seconds
  let (year, month, day) := Date.civil days
  if 1 ≤ year ∧ year ≤ 9999 then
    some ⟨⟨year.toNat, month, day⟩, rest / 3600, rest / 60 % 60, rest % 60, 0, some 0⟩
  else none

/-- The time of day as `HHMMSS`. -/
def clockStamp (m : Moment) : String :=
  Date.padded 2 m.hour ++ Date.padded 2 m.minute ++ Date.padded 2 m.second

/-- An offset as `+HH:MM`, with seconds if it has them. -/
def offsetText (o : Int) : String :=
  let n := o.natAbs
  (if o < 0 then "-" else "+") ++ Date.padded 2 (n / 3600) ++ ":" ++ Date.padded 2 (n / 60 % 60) ++
    (if n % 60 = 0 then "" else ":" ++ Date.padded 2 (n % 60))

/-- The moment with `separator` between date and time; microseconds and offset only if present. -/
def toText (separator : String) (m : Moment) : String :=
  m.date.toText ++ separator ++ Date.padded 2 m.hour ++ ":" ++ Date.padded 2 m.minute ++ ":" ++
    Date.padded 2 m.second ++
    (if m.microsecond = 0 then "" else "." ++ Date.padded 6 m.microsecond) ++
    (match m.offset with | some o => offsetText o | none => "")

/-- The moment to the second, as reports carry it: UTC is written `Z`. -/
def reportText (m : Moment) : String :=
  let whole := { m with microsecond := 0 }
  if whole.offset = some 0 then ({ whole with offset := none } : Moment).toText "T" ++ "Z"
  else whole.toText "T"

end Moment

end Assay
