/-!
# Dates

The Gregorian calendar, extended without end in both directions. A day is numbered from the first
of January 1970 on. The count runs through eras of 400 years, which all have 146097 days and start
on the first of March, so that a leap day is the last day of its year.
-/

set_option autoImplicit false

namespace SpeechRelay.Calendar

/-- A day of the calendar. -/
structure Date where
  year : Int
  month : Nat
  day : Nat
  deriving DecidableEq

/-- Days in 400 years. -/
def daysPerEra : Int := 146097

/-- Days from the first of March of the year 0 to the first of January 1970. -/
def epochShift : Int := 719468

namespace Date

/-- The year of an era, counted from 0 and starting in March, that holds the day of the era. -/
def yearOfEra (day : Int) : Int :=
  (day - day / 1460 + day / 36524 - day / 146096) / 365

/-- The day of the era on which a year of the era starts. -/
def startOfYear (year : Int) : Int :=
  365 * year + year / 4 - year / 100

/-- The day with that number. -/
def ofDays (n : Int) : Date :=
  let shifted := n + epochShift
  let era := shifted / daysPerEra
  let dayOfEra := shifted % daysPerEra
  let year := yearOfEra dayOfEra
  let dayOfYear := dayOfEra - startOfYear year
  let fromMarch := (5 * dayOfYear + 2) / 153
  let month := if fromMarch < 10 then fromMarch + 3 else fromMarch - 9
  { year := year + era * 400 + (if month ≤ 2 then 1 else 0)
    month := month.toNat
    day := (dayOfYear - (153 * fromMarch + 2) / 5 + 1).toNat }

/-- The number of the day. -/
def toDays (d : Date) : Int :=
  let year := d.year - (if d.month ≤ 2 then 1 else 0)
  let era := year / 400
  let fromMarch : Int := if d.month ≤ 2 then d.month + 9 else d.month - 3
  let dayOfYear := (153 * fromMarch + 2) / 5 + d.day - 1
  era * daysPerEra + startOfYear (year % 400) + dayOfYear - epochShift

end Date

end SpeechRelay.Calendar
