import SpeechRelay.Calendar.Instant
import SpeechRelay.Proofs.Calendar.Days
import SpeechRelay.Proofs.Json.Writing

/-!
# Instants read back

A text is read as an instant by the rules of RFC 3339, where a year outside the four digits has a
sign and as many digits as it takes: a day of the calendar, a time of day with up to nine decimals,
and the distance of its zone from the universal one (`Instant.read?`). Second 60 is the last second
of its minute gone on with.

An instant is proper if its nanoseconds do not reach the next second, or go on in the last second of
a minute. However it is written, a proper instant is read back as itself (`Instant.read?_write`).
-/

set_option autoImplicit false

namespace SpeechRelay.Calendar

open Json.Numeral (AllDigits natValue)

/-! ## Reading -/

/-- What is behind a mark that has to be there. -/
def past? (mark : Char) : List Char → Option (List Char)
  | [] => none
  | c :: cs => if c = mark then some cs else none

/-- A number of so many digits, and what is behind it. -/
def number? (width : Nat) (cs : List Char) : Option (Nat × List Char) :=
  if width ≤ cs.length ∧ (cs.take width).all Char.isDigit then
    some (natValue (cs.take width), cs.drop width)
  else none

/-- A number of no fewer digits, which ends with the last digit. -/
def longNumber? (width : Nat) (cs : List Char) : Option (Nat × List Char) :=
  if width ≤ (cs.takeWhile Char.isDigit).length then
    some (natValue (cs.takeWhile Char.isDigit), cs.dropWhile Char.isDigit)
  else none

/-- A year of four digits, or of a sign and no fewer than four. -/
def year? : List Char → Option (Int × List Char)
  | '+' :: cs => (longNumber? 4 cs).map fun p => (p.1, p.2)
  | '-' :: cs => (longNumber? 4 cs).map fun p => (-p.1, p.2)
  | cs => (number? 4 cs).map fun p => (p.1, p.2)

/-- A day that the calendar has. -/
def date? (cs : List Char) : Option (Date × List Char) := do
  let (year, cs) ← year? cs
  let (month, cs) ← number? 2 (← past? '-' cs)
  let (day, cs) ← number? 2 (← past? '-' cs)
  if (Date.mk year month day).Valid then some (⟨year, month, day⟩, cs) else none

/-- The nanoseconds that up to nine decimals behind a point are, 0 without a point. -/
def fraction? : List Char → Option (Nat × List Char)
  | '.' :: cs =>
    let ds := cs.takeWhile Char.isDigit
    if 1 ≤ ds.length ∧ ds.length ≤ 9 then
      some (natValue ds * 10 ^ (9 - ds.length), cs.dropWhile Char.isDigit)
    else none
  | cs => some (0, cs)

/-- The second of the day and the nanoseconds in it. -/
def time? (cs : List Char) : Option ((Nat × Nat) × List Char) := do
  let (hour, cs) ← number? 2 cs
  let (minute, cs) ← number? 2 (← past? ':' cs)
  let (second, cs) ← number? 2 (← past? ':' cs)
  let (nanos, cs) ← fraction? cs
  if hour < 24 ∧ minute < 60 ∧ second ≤ 60 then
    let leap := second / 60
    some ((hour * 3600 + minute * 60 + (second - leap), nanos + leap * nanosPerSecond), cs)
  else none

/-- The seconds of an offset of hours and minutes. -/
def offset? (cs : List Char) : Option (Nat × List Char) := do
  let (hours, cs) ← number? 2 cs
  let (minutes, cs) ← number? 2 (← past? ':' cs)
  if hours < 24 ∧ minutes < 60 then some (hours * 3600 + minutes * 60, cs) else none

/-- How many seconds a zone is ahead of the universal one. -/
def zone? : List Char → Option (Int × List Char)
  | 'Z' :: cs => some (0, cs)
  | '+' :: cs => (offset? cs).map fun p => (p.1, p.2)
  | '-' :: cs => (offset? cs).map fun p => (-p.1, p.2)
  | _ => none

namespace Instant

/-- The instant that a date, a time and a zone are. -/
def read? (cs : List Char) : Option Instant := do
  let (date, cs) ← date? cs
  let ((second, nanos), cs) ← time? (← past? 'T' cs)
  let (ahead, cs) ← zone? cs
  if cs = [] then some ⟨date.count * 86400 + second - ahead, nanos⟩ else none

/-- The instant that a text is. -/
def ofText? (text : String) : Option Instant := read? text.toList

/-- The nanoseconds do not reach the next second, or it is the last second of a minute that goes on
for another one. -/
def Proper (t : Instant) : Prop :=
  t.nanos < nanosPerSecond ∨ t.nanos < 2 * nanosPerSecond ∧ t.seconds % 60 = 59

end Instant

/-! ## Digits -/

section Digits

variable {width n : Nat} {rest : List Char}

/-- A number is written in digits alone. -/
theorem allDigits_digits (width n : Nat) : AllDigits (digits width n) := by
  intro c hmem
  rcases List.mem_append.mp hmem with hzero | hdigit
  · rw [List.eq_of_mem_replicate hzero]
    decide
  · exact Nat.isDigit_of_mem_toDigits (by decide) (by decide) hdigit

/-- Leading zeros do not change the value of what is written. -/
theorem natValue_digits (width n : Nat) : natValue (digits width n) = n := by
  have hzeros (k : Nat) (ds : List Char) : natValue (List.replicate k '0' ++ ds) = natValue ds := by
    induction k with
    | zero => rfl
    | succ k ih =>
      rw [← ih]
      rfl
  rw [digits, Decimal.padded, hzeros, Json.Numeral.natValue_toDigits]

/-- A number is written with its width at least. -/
theorem le_length_digits (width n : Nat) : width ≤ (digits width n).length := by
  rw [digits, Decimal.padded, List.length_append, List.length_replicate]
  omega

/-- A number with room in its width is written with just that many digits. -/
theorem length_digits (hpos : 0 < width) (h : n < 10 ^ width) :
    (digits width n).length = width := by
  have hlength : (Nat.toDigits 10 n).length ≤ width :=
    (Nat.length_toDigits_le_iff (by decide) hpos).mpr h
  rw [digits, Decimal.padded, List.length_append, List.length_replicate]
  omega

/-- A number of fixed width is read back, whatever stands behind it. -/
theorem number?_digits (hpos : 0 < width) (h : n < 10 ^ width) :
    number? width (digits width n ++ rest) = some (n, rest) := by
  have hlength := length_digits hpos h
  have htake : (digits width n ++ rest).take width = digits width n := List.take_left' hlength
  have hdrop : (digits width n ++ rest).drop width = rest := List.drop_left' hlength
  have hroom : width ≤ (digits width n ++ rest).length := by
    rw [List.length_append]
    omega
  have hall : (digits width n).all Char.isDigit = true :=
    List.all_eq_true.mpr (allDigits_digits width n)
  rw [number?, htake, hdrop, if_pos ⟨hroom, hall⟩, natValue_digits]

/-- A number of any length is read back if no digit stands behind it. -/
theorem longNumber?_digits (hrest : ∀ c, rest.head? = some c → c.isDigit = false) :
    longNumber? width (digits width n ++ rest) = some (n, rest) := by
  obtain ⟨htake, hdrop⟩ := Json.Numeral.takeWhile_append (allDigits_digits width n) hrest
  rw [longNumber?, htake, hdrop, if_pos (le_length_digits width n), natValue_digits]

end Digits

/-! ## Dates, times and zones -/

section Parts

variable {rest : List Char}

/-- What is written of a number starts with a digit. -/
theorem digit_head {n : Nat} (width : Nat) : ∃ c cs, digits width n = c :: cs ∧ c.isDigit := by
  have hall := allDigits_digits width n
  cases h : digits width n with
  | nil =>
    have hempty : Decimal.padded width (Nat.toDigits 10 n) = [] := h
    exact absurd (List.append_eq_nil_iff.mp hempty).2 Nat.toDigits_ne_nil
  | cons c cs => exact ⟨c, cs, rfl, hall c (h ▸ List.mem_cons_self)⟩

/-- A year is read back, also one with a sign or with more than four digits. -/
theorem year?_write (year : Int) :
    year? (writeYear year ++ '-' :: rest) = some (year, '-' :: rest) := by
  have hstop : ∀ c, ('-' :: rest).head? = some c → c.isDigit = false := by
    intro c hc
    rw [← Option.some.inj hc]
    rfl
  unfold writeYear
  by_cases hshort : 0 ≤ year ∧ year ≤ 9999
  · rw [if_pos hshort]
    have hread : number? 4 (digits 4 year.natAbs ++ '-' :: rest) =
        some (year.natAbs, '-' :: rest) := number?_digits (by decide) (by omega)
    obtain ⟨c, cs, hdigits, hc⟩ := digit_head (n := year.natAbs) 4
    have hplus : c ≠ '+' := by
      rintro rfl
      cases hc
    have hminus : c ≠ '-' := by
      rintro rfl
      cases hc
    rw [hdigits, List.cons_append] at hread ⊢
    rw [year?, hread, Option.map_some, Int.natAbs_of_nonneg hshort.1]
    · intro tail htail
      exact hplus (List.cons_eq_cons.mp htail).1
    · intro tail htail
      exact hminus (List.cons_eq_cons.mp htail).1
  · rw [if_neg hshort]
    by_cases hneg : year < 0
    · have hsize : -(year.natAbs : Int) = year := by omega
      rw [if_pos hneg, List.cons_append, year?, longNumber?_digits hstop, Option.map_some, hsize]
    · have hsize : (year.natAbs : Int) = year := by omega
      rw [if_neg hneg, List.cons_append, year?, longNumber?_digits hstop, Option.map_some, hsize]

/-- A mark that is there is read. -/
theorem past?_cons (mark : Char) : past? mark (mark :: rest) = some rest := if_pos rfl

/-- A date is read back up to the mark of the time. -/
theorem date?_write {d : Date} (h : d.Valid) :
    date? (d.write ++ 'T' :: rest) = some (d, 'T' :: rest) := by
  have hmonth : d.month < 10 ^ 2 := Nat.lt_of_le_of_lt h.month_le (by decide)
  have hlength : d.day ≤ 31 := h.day_le.trans (Date.monthLength_mem d.year d.month).2
  have hday : d.day < 10 ^ 2 := Nat.lt_of_le_of_lt hlength (by decide)
  unfold date? Date.write
  simp only [List.append_assoc, List.cons_append, year?_write, past?_cons,
    number?_digits (by decide) hmonth, number?_digits (by decide) hday, Option.bind_eq_bind,
    Option.bind_some]
  exact if_pos h

/-- A fraction of a second of any width up to nine digits is read back in nanoseconds. -/
theorem fraction?_point {width n nanos : Nat} (hpos : 0 < width) (hle : width ≤ 9)
    (h : n < 10 ^ width) (hnanos : n * 10 ^ (9 - width) = nanos)
    (hrest : ∀ c, rest.head? = some c → c.isDigit = false) :
    fraction? ('.' :: digits width n ++ rest) = some (nanos, rest) := by
  obtain ⟨htake, hdrop⟩ := Json.Numeral.takeWhile_append (allDigits_digits width n) hrest
  have hlength := length_digits hpos h
  rw [List.cons_append, fraction?, htake, hdrop, hlength, if_pos ⟨hpos, hle⟩, natValue_digits,
    hnanos]

/-- The fraction of a second that is written is read back, and so is none. -/
theorem fraction?_write {nanos : Nat} (h : nanos < nanosPerSecond)
    (hrest : ∀ c, rest.head? = some c → c.isDigit = false ∧ c ≠ '.') :
    fraction? (writeFraction nanos ++ rest) = some (nanos, rest) := by
  have hstop : ∀ c, rest.head? = some c → c.isDigit = false := fun c hc => (hrest c hc).1
  unfold nanosPerSecond at h
  unfold writeFraction
  -- One case for each number of decimals.
  split
  · next hzero =>
    rw [List.nil_append, hzero, fraction?]
    rintro cs rfl
    exact (hrest '.' rfl).2 rfl
  · split
    · exact fraction?_point (by decide) (by decide) (by omega) (by omega) hstop
    · split
      · exact fraction?_point (by decide) (by decide) (by omega) (by omega) hstop
      · exact fraction?_point (by decide) (by decide) (by omega) (by omega) hstop

/-- Behind the decimals a zone starts with neither a digit nor a point. -/
theorem zone_head (zone : Zone) :
    ∀ c, zone.write.head? = some c → c.isDigit = false ∧ c ≠ '.' := by
  intro c hc
  cases zone <;> (rw [← Option.some.inj hc]; decide)

/-- Both ways to write the zone are read as no distance. -/
theorem zone?_write (zone : Zone) : zone? zone.write = some (0, []) := by
  cases zone <;> decide

end Parts

/-! ## Instants -/

namespace Instant

variable {t : Instant}

/-- The second that goes on for another one is the last of its minute. -/
theorem Proper.time (h : t.Proper) :
    t.secondOfDay < 86400 ∧ t.nanos % nanosPerSecond < nanosPerSecond ∧
      (t.nanos / nanosPerSecond = 0 ∨ t.nanos / nanosPerSecond = 1 ∧ t.secondOfDay % 60 = 59) := by
  unfold Proper nanosPerSecond at h
  unfold secondOfDay nanosPerSecond
  omega

/-- The time of a day is read back up to its zone. -/
theorem time?_write (h : t.Proper) (zone : Zone) :
    time? (t.writeTime ++ zone.write) = some ((t.secondOfDay, t.nanos), zone.write) := by
  obtain ⟨hday, hnanos, hleap⟩ := h.time
  have hsplit := Nat.div_add_mod' t.nanos nanosPerSecond
  unfold writeTime
  generalize t.secondOfDay = s at hday hleap
  generalize t.nanos / nanosPerSecond = leap at hleap hsplit
  have hhour : s / 3600 < 10 ^ 2 := by omega
  have hminute : s / 60 % 60 < 10 ^ 2 := by omega
  have hsecond : s % 60 + leap < 10 ^ 2 := by omega
  have hrange : s / 3600 < 24 ∧ s / 60 % 60 < 60 ∧ s % 60 + leap ≤ 60 := by omega
  have hcarry : (s % 60 + leap) / 60 = leap := by omega
  have hseconds : s / 3600 * 3600 + s / 60 % 60 * 60 + (s % 60 + leap - leap) = s := by omega
  have hall : t.nanos % nanosPerSecond + leap * nanosPerSecond = t.nanos := by omega
  unfold time?
  simp only [List.append_assoc, List.cons_append, past?_cons, number?_digits (by decide) hhour,
    number?_digits (by decide) hminute, number?_digits (by decide) hsecond,
    fraction?_write hnanos (zone_head zone), Option.bind_eq_bind, Option.bind_some, if_pos hrange,
    hcarry, hseconds, hall]

/-- An instant is read back as itself. -/
theorem read?_write (h : t.Proper) (zone : Zone) : read? (t.write zone) = some t := by
  have hseconds : t.dayNumber * 86400 + (t.secondOfDay : Int) - 0 = t.seconds := by
    unfold dayNumber secondOfDay
    omega
  unfold read? write
  simp only [List.append_assoc, List.cons_append, date?_write (Date.valid_ofDays _), past?_cons,
    time?_write h, zone?_write, Option.bind_eq_bind, Option.bind_some, if_true,
    Date.count_ofDays, hseconds]

/-- An instant is read back from what is written of it. -/
theorem ofText?_render (h : t.Proper) (zone : Zone) : ofText? (t.render zone) = some t := by
  rw [ofText?, render, String.toList_ofList, read?_write h]

/-- A zone that is ahead, and the same instant as it is written. -/
example : ofText? "-0044-03-15T13:00:60.5+01:30" = ofText? "-0044-03-15T11:30:60.500Z" := by
  decide +kernel

end Instant

end SpeechRelay.Calendar
