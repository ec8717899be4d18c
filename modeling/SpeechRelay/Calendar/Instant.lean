import SpeechRelay.Calendar.Date
import SpeechRelay.Decimal.Layout

/-!
# Instants

An instant is a number of seconds since the start of 1970 and a number of nanoseconds. A leap second
is the last second of a minute gone on with: its nanoseconds run from 10 ^ 9 to 2 · 10 ^ 9, and it is
written as second 60. `Instant.write` writes an instant as a date, a time and a zone, with as many
groups of three decimals as it takes.
-/

set_option autoImplicit false

namespace SpeechRelay.Calendar

/-- A point in time. -/
structure Instant where
  seconds : Int
  nanos : Nat
  deriving DecidableEq

/-- Nanoseconds in a second. -/
def nanosPerSecond : Nat := 1000000000

/-- How the zone of an instant is written, which is always the universal one. -/
inductive Zone where
  /-- By the letter `Z`. -/
  | letter
  /-- By an offset of zero. -/
  | offset
  deriving DecidableEq

/-- The zone. -/
def Zone.write : Zone → List Char
  | .letter => ['Z']
  | .offset => ['+', '0', '0', ':', '0', '0']

/-- A number with at least that many digits. -/
def digits (width n : Nat) : List Char := Decimal.padded width (Nat.toDigits 10 n)

/-- A year: four digits from 0 to 9999, and beyond that a sign and at least four digits. -/
def writeYear (year : Int) : List Char :=
  if 0 ≤ year ∧ year ≤ 9999 then digits 4 year.natAbs
  else (if year < 0 then '-' else '+') :: digits 4 year.natAbs

/-- A date. -/
def Date.write (d : Date) : List Char :=
  writeYear d.year ++ '-' :: digits 2 d.month ++ '-' :: digits 2 d.day

/-- The decimals of a second: none, three, six or nine. -/
def writeFraction (nanos : Nat) : List Char :=
  if nanos = 0 then []
  else if nanos % 1000000 = 0 then '.' :: digits 3 (nanos / 1000000)
  else if nanos % 1000 = 0 then '.' :: digits 6 (nanos / 1000)
  else '.' :: digits 9 nanos

namespace Instant

/-- The number of the day. -/
def dayNumber (t : Instant) : Int := t.seconds / 86400

/-- The second of the day. -/
def secondOfDay (t : Instant) : Nat := (t.seconds % 86400).toNat

/-- The time of day: hours, minutes, seconds and decimals. -/
def writeTime (t : Instant) : List Char :=
  let s := t.secondOfDay
  let leap := t.nanos / nanosPerSecond
  digits 2 (s / 3600) ++ ':' :: digits 2 (s / 60 % 60) ++ ':' :: digits 2 (s % 60 + leap) ++
    writeFraction (t.nanos % nanosPerSecond)

/-- The instant as a date, a time and a zone. -/
def write (zone : Zone) (t : Instant) : List Char :=
  (Date.ofDays t.dayNumber).write ++ 'T' :: t.writeTime ++ zone.write

/-- The instant as a text. -/
def render (zone : Zone) (t : Instant) : String := String.ofList (t.write zone)

end Instant

/-- A length of time. -/
structure Span where
  seconds : Nat
  nanos : Nat

/-- That many nanoseconds. -/
def Span.ofNanos (n : Nat) : Span := ⟨n / nanosPerSecond, n % nanosPerSecond⟩

/-- Whole milliseconds of a length of time. -/
def Span.milliseconds (d : Span) : Nat := d.seconds * 1000 + d.nanos / 1000000

end SpeechRelay.Calendar
