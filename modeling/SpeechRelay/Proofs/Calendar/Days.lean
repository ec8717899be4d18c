import Mathlib.Tactic.IntervalCases
import SpeechRelay.Calendar.Date

/-!
# The numbers of the days

The days of the Gregorian calendar are those that its months have (`Date.Valid`), one after the
other (`Date.next`). `Date.toDays` numbers them from the first of January 1970 on, in both
directions (`toDays_next`). There is only one way to do so (`eq_toDays`), which is also to count the
days of whole years, of whole months, and of a month (`Date.count`).

The day with a number is one of the calendar (`valid_ofDays`), and numbers and days go into each
other without loss (`toDays_ofDays`, `ofDays_toDays`). This arithmetic runs through eras of 400
years that start in March: `InYear` is a day of such a year, and `ofYear` the date that it is.
-/

set_option autoImplicit false

namespace SpeechRelay.Calendar

/-! ## The calendar -/

/-- Whether the year has a leap day. -/
def IsLeap (year : Int) : Prop := year % 4 = 0 ∧ (year % 100 ≠ 0 ∨ year % 400 = 0)

instance (year : Int) : Decidable (IsLeap year) :=
  inferInstanceAs (Decidable (year % 4 = 0 ∧ (year % 100 ≠ 0 ∨ year % 400 = 0)))

/-- How many days a month has. -/
def monthLength (year : Int) : Nat → Nat
  | 2 => if IsLeap year then 29 else 28
  | 4 | 6 | 9 | 11 => 30
  | _ => 31

namespace Date

/-- A day that the calendar has. -/
structure Valid (d : Date) : Prop where
  month_pos : 1 ≤ d.month
  month_le : d.month ≤ 12
  day_pos : 1 ≤ d.day
  day_le : d.day ≤ monthLength d.year d.month

instance (d : Date) : Decidable d.Valid :=
  decidable_of_iff (1 ≤ d.month ∧ d.month ≤ 12 ∧ 1 ≤ d.day ∧ d.day ≤ monthLength d.year d.month)
    ⟨fun ⟨h, h', h'', h'''⟩ => ⟨h, h', h'', h'''⟩, fun ⟨h, h', h'', h'''⟩ => ⟨h, h', h'', h'''⟩⟩

/-- The day after. -/
def next (d : Date) : Date :=
  if d.day < monthLength d.year d.month then { d with day := d.day + 1 }
  else if d.month < 12 then ⟨d.year, d.month + 1, 1⟩
  else ⟨d.year + 1, 1, 1⟩

/-- The days of the years from the year 1 up to that one, which is left out. -/
def daysBefore (year : Int) : Int :=
  365 * (year - 1) + (year - 1) / 4 - (year - 1) / 100 + (year - 1) / 400

/-- The days from the first of January 1970 to the date: those of the years between, those of the
months of its year before, and those of its month before. -/
def count (d : Date) : Int :=
  daysBefore d.year - daysBefore 1970 +
    ((List.range (d.month - 1)).map fun m => (monthLength d.year (m + 1) : Int)).sum + (d.day - 1)

/-! ## Years that start in March -/

/-- A day of a year of an era, both counted from 0; the year ends with February. -/
structure InYear (year day : Int) : Prop where
  year_nonneg : 0 ≤ year
  year_lt : year < 400
  day_nonneg : 0 ≤ day
  day_lt : day < 365 ∨ day = 365 ∧ IsLeap (year + 1)

/-- The year of an era is found again from the number of any of its days. -/
theorem yearOfEra_startOfYear_add {year day : Int} (h : InYear year day) :
    yearOfEra (startOfYear year + day) = year := by
  obtain ⟨hpos, hlt, hday, hlast⟩ := h
  unfold IsLeap at hlast
  -- The year is one of four, which are one of 25 fours in a century.
  obtain ⟨c, q, r, rfl, hc, hq, hr⟩ : ∃ c q r : Int, year = 100 * c + 4 * q + r ∧
      (0 ≤ c ∧ c ≤ 3) ∧ (0 ≤ q ∧ q ≤ 24) ∧ (0 ≤ r ∧ r ≤ 3) :=
    ⟨year / 100, year % 100 / 4, year % 4, by omega, by omega, by omega, by omega⟩
  have hstart : startOfYear (100 * c + 4 * q + r) + day =
      36524 * c + 1461 * q + 365 * r + day := by
    unfold startOfYear
    omega
  have hleap : day = 365 → r = 3 ∧ (q = 24 → c = 3) := by omega
  rw [hstart, yearOfEra]
  by_cases hend : c = 3 ∧ q = 24 ∧ r = 3 ∧ day = 365
  · obtain ⟨rfl, rfl, rfl, rfl⟩ := hend
    decide
  · have hrest : 1461 * q + 365 * r + day < 36524 := by omega
    have hera : (36524 * c + 1461 * q + 365 * r + day) / 146096 = 0 := by omega
    have hcentury : (36524 * c + 1461 * q + 365 * r + day) / 36524 = c := by omega
    have hfours : (36524 * c + 1461 * q + 365 * r + day) / 1460 =
        25 * c + q + if 1460 ≤ 24 * c + q + 365 * r + day then 1 else 0 := by
      split <;> omega
    rw [hera, hcentury, hfours]
    split <;> omega

/-- Each day of an era is a day of one of its years. -/
theorem exists_inYear {day : Int} (hpos : 0 ≤ day) (hlt : day < daysPerEra) :
    ∃ year rest, InYear year rest ∧ day = startOfYear year + rest := by
  unfold daysPerEra at hlt
  obtain ⟨c, u, hc, hcu, hu⟩ : ∃ c u : Int, (0 ≤ c ∧ c ≤ 3) ∧ day = 36524 * c + u ∧
      0 ≤ u ∧ (u < 36524 ∨ u = 36524 ∧ c = 3) := by
    by_cases hend : day = 146096
    · exact ⟨3, 36524, by omega, by omega, by omega⟩
    · exact ⟨day / 36524, day % 36524, by omega, by omega, by omega⟩
  obtain ⟨q, v, hq, hqv, hv⟩ : ∃ q v : Int, (0 ≤ q ∧ q ≤ 24) ∧ u = 1461 * q + v ∧
      0 ≤ v ∧ v ≤ 1460 :=
    ⟨u / 1461, u % 1461, by omega, by omega, by omega⟩
  obtain ⟨r, w, hr, hrw, hw⟩ : ∃ r w : Int, (0 ≤ r ∧ r ≤ 3) ∧ v = 365 * r + w ∧
      0 ≤ w ∧ (w < 365 ∨ w = 365 ∧ r = 3) := by
    by_cases hend : v = 1460
    · exact ⟨3, 365, by omega, by omega, by omega⟩
    · exact ⟨v / 365, v % 365, by omega, by omega, by omega⟩
  refine ⟨100 * c + 4 * q + r, w, ⟨by omega, by omega, hw.1, ?_⟩, ?_⟩
  · unfold IsLeap
    omega
  · unfold startOfYear
    omega

/-- The years of an era fill it. -/
theorem InYear.mem_era {year day : Int} (h : InYear year day) :
    0 ≤ startOfYear year + day ∧ startOfYear year + day < daysPerEra := by
  obtain ⟨hpos, hlt, hday, hlast⟩ := h
  unfold IsLeap at hlast
  unfold startOfYear daysPerEra
  omega

/-! ## Months that count from March -/

/-- The number of a month in a year that starts in March, from 0 on. -/
def fromMarch (month : Nat) : Int := if month ≤ 2 then month + 9 else month - 3

/-- The month with that number. -/
def ofMarch (m : Int) : Nat := (if m < 10 then m + 3 else m - 9).toNat

/-- The day of such a year on which a month starts. -/
def startOfMonth (m : Int) : Int := (153 * m + 2) / 5

/-- A month is found again from its place in a year that starts in March. -/
theorem ofMarch_fromMarch {month : Nat} (hpos : 1 ≤ month) (hle : month ≤ 12) :
    0 ≤ fromMarch month ∧ fromMarch month ≤ 11 ∧ ofMarch (fromMarch month) = month := by
  unfold ofMarch fromMarch
  omega

/-- A place in a year that starts in March is found again from its month. -/
theorem fromMarch_ofMarch {m : Int} (hpos : 0 ≤ m) (hle : m ≤ 11) :
    1 ≤ ofMarch m ∧ ofMarch m ≤ 12 ∧ fromMarch (ofMarch m) = m := by
  unfold fromMarch ofMarch
  omega

/-- The next month has the next place, but for February, the last one. -/
theorem fromMarch_succ {month : Nat} (hmonth : month ≠ 2) :
    fromMarch (month + 1) = fromMarch month + 1 := by
  unfold fromMarch
  omega

/-- A month other than February ends where the next one starts. -/
theorem monthLength_eq (year : Int) {month : Nat} (hpos : 1 ≤ month) (hle : month ≤ 12)
    (hmonth : month ≠ 2) : (monthLength year month : Int) =
      startOfMonth (fromMarch month + 1) - startOfMonth (fromMarch month) := by
  interval_cases month <;> first | contradiction | rfl

/-- A month has between 28 and 31 days. -/
theorem monthLength_mem (year : Int) (month : Nat) :
    28 ≤ monthLength year month ∧ monthLength year month ≤ 31 := by
  unfold monthLength
  split
  · split <;> decide
  all_goals decide

/-- February is the longer one in a leap year. -/
theorem monthLength_two (year : Int) :
    monthLength year 2 = 28 ∧ ¬ IsLeap year ∨ monthLength year 2 = 29 ∧ IsLeap year := by
  by_cases hleap : IsLeap year <;> simp [monthLength, hleap]

/-! ## Dates of years that start in March -/

/-- The year that starts in March and has the day. -/
def marchYear (d : Date) : Int := d.year - if d.month ≤ 2 then 1 else 0

/-- The number of a day, by its year and its month from March on. -/
theorem toDays_eq (d : Date) : d.toDays =
    365 * d.marchYear + d.marchYear / 4 - d.marchYear / 100 + d.marchYear / 400 +
      (startOfMonth (fromMarch d.month) + d.day - 1) - epochShift := by
  unfold toDays startOfYear daysPerEra startOfMonth marchYear fromMarch
  dsimp only
  omega

/-- The date of a day of a year of an era. -/
def ofYear (era year day : Int) : Date :=
  let m := (5 * day + 2) / 153
  { year := year + era * 400 + (if ofMarch m ≤ 2 then 1 else 0)
    month := ofMarch m
    day := (day - startOfMonth m + 1).toNat }

/-- The number of a day of a year of an era. -/
def numberOf (era year day : Int) : Int := era * daysPerEra + startOfYear year + day - epochShift

/-- Every number of a day is that of some day of some year of an era. -/
theorem exists_numberOf (n : Int) :
    ∃ era year day, InYear year day ∧ n = numberOf era year day := by
  have hpos : 0 ≤ (n + epochShift) % daysPerEra := Int.emod_nonneg _ (by decide)
  have hlt : (n + epochShift) % daysPerEra < daysPerEra := Int.emod_lt_of_pos _ (by decide)
  obtain ⟨year, day, hday, hsplit⟩ := exists_inYear hpos hlt
  refine ⟨(n + epochShift) / daysPerEra, year, day, hday, ?_⟩
  have hwhole := Int.ediv_mul_add_emod (n + epochShift) daysPerEra
  unfold numberOf
  omega

/-- The date of a day comes from its era, its year and its place there. -/
theorem ofDays_numberOf (era : Int) {year day : Int} (h : InYear year day) :
    ofDays (numberOf era year day) = ofYear era year day := by
  obtain ⟨hlow, hhigh⟩ := h.mem_era
  have hshift : numberOf era year day + epochShift =
      startOfYear year + day + daysPerEra * era := by
    unfold numberOf
    rw [Int.mul_comm daysPerEra]
    omega
  have hera : (numberOf era year day + epochShift) / daysPerEra = era := by
    rw [hshift, Int.add_mul_ediv_left _ _ (by decide), Int.ediv_eq_zero_of_lt hlow hhigh,
      Int.zero_add]
  have hday : (numberOf era year day + epochShift) % daysPerEra = startOfYear year + day := by
    rw [hshift, Int.add_mul_emod_self_left, Int.emod_eq_of_lt hlow hhigh]
  have hrest : startOfYear year + day - startOfYear year = day := by omega
  unfold ofDays ofYear startOfMonth ofMarch
  simp only [hera, hday, yearOfEra_startOfYear_add h, hrest, Date.mk.injEq, and_true, and_self]
  omega

/-- What the date of such a day is made of. -/
theorem ofYear_parts (era : Int) {year day : Int} (h : InYear year day) :
    ∃ m, 0 ≤ m ∧ m ≤ 11 ∧ startOfMonth m ≤ day ∧ day < startOfMonth (m + 1) ∧
      (ofYear era year day).month = ofMarch m ∧
      ((ofYear era year day).day : Int) = day - startOfMonth m + 1 ∧
      (ofYear era year day).marchYear = year + era * 400 := by
  obtain ⟨hpos, hlt, hday, hlast⟩ := h
  have hmost : day ≤ 365 := by omega
  refine ⟨(5 * day + 2) / 153, ?_, ?_, ?_, ?_, rfl, ?_, ?_⟩
  · omega
  · omega
  · unfold startOfMonth
    omega
  · unfold startOfMonth
    omega
  · unfold ofYear startOfMonth
    dsimp only
    omega
  · unfold ofYear marchYear
    dsimp only
    omega

/-- The number of a day comes from its era, its year and its place there. -/
theorem toDays_ofYear (era : Int) {year day : Int} (h : InYear year day) :
    (ofYear era year day).toDays = numberOf era year day := by
  obtain ⟨m, hm, hm', -, -, hmonth, hday, hyear⟩ := ofYear_parts era h
  obtain ⟨hpos, hlt, -, -⟩ := h
  rw [toDays_eq, hmonth, hday, hyear, (fromMarch_ofMarch hm hm').2.2]
  unfold numberOf startOfYear daysPerEra
  omega

/-- The date at a place in a year is one of the calendar. -/
theorem valid_ofYear (era : Int) {year day : Int} (h : InYear year day) :
    (ofYear era year day).Valid := by
  obtain ⟨m, hm, hm', hstart, hend, hmonth, hday, hyear⟩ := ofYear_parts era h
  obtain ⟨hpos, hle, hmarch⟩ := fromMarch_ofMarch hm hm'
  refine ⟨hmonth ▸ hpos, hmonth ▸ hle, by omega, ?_⟩
  rw [← hmonth] at hpos hle hmarch
  by_cases htwo : (ofYear era year day).month = 2
  · -- The last day of February is the last day of the year, which is there in leap years only.
    obtain ⟨-, -, -, hlast⟩ := h
    have hm11 : m = 11 := by
      rw [← hmarch, htwo]
      rfl
    have hcalendar : (ofYear era year day).year = year + 1 + era * 400 := by
      unfold marchYear at hyear
      omega
    have hlength := monthLength_two (ofYear era year day).year
    unfold IsLeap at hlast hlength
    subst hm11
    unfold startOfMonth at hday
    rw [htwo]
    omega
  · have hlength := monthLength_eq (ofYear era year day).year hpos hle htwo
    rw [hmarch] at hlength
    omega

/-- Each day of the calendar is a day of a year of an era. -/
theorem Valid.exists_ofYear {d : Date} (h : d.Valid) :
    ∃ era year day, InYear year day ∧ d = ofYear era year day := by
  obtain ⟨year, month, day⟩ := d
  obtain ⟨hpos, hle, hday, hday'⟩ := h
  dsimp only at hpos hle hday hday'
  obtain ⟨hm, hm', hmonth⟩ := ofMarch_fromMarch hpos hle
  obtain ⟨y, hy⟩ : ∃ y : Int, year = y + if month ≤ 2 then 1 else 0 :=
    ⟨year - if month ≤ 2 then 1 else 0, by omega⟩
  have hyear : y / 400 * 400 + y % 400 = y := by omega
  refine ⟨y / 400, y % 400, startOfMonth (fromMarch month) + day - 1, ?_, ?_⟩
  · refine ⟨by omega, by omega, ?_, ?_⟩
    · unfold startOfMonth
      omega
    · by_cases htwo : month = 2
      · subst htwo
        have hlength := monthLength_two year
        unfold IsLeap at hlength ⊢
        unfold startOfMonth fromMarch
        omega
      · have hlength := monthLength_eq year hpos hle htwo
        have hnot : fromMarch month ≠ 11 := by
          intro hlast
          rw [hlast] at hmonth
          exact htwo hmonth.symm
        unfold startOfMonth at hlength ⊢
        omega
  · have hlength : (day : Int) ≤
        startOfMonth (fromMarch month + 1) - startOfMonth (fromMarch month) := by
      by_cases htwo : month = 2
      · subst htwo
        have hlength := monthLength_two year
        unfold startOfMonth fromMarch
        omega
      · have hlength := monthLength_eq year hpos hle htwo
        omega
    have hmarch : (5 * (startOfMonth (fromMarch month) + day - 1) + 2) / 153 = fromMarch month := by
      unfold startOfMonth at hlength ⊢
      omega
    unfold ofYear
    simp only [hmarch, hmonth, Date.mk.injEq, true_and]
    omega

/-! ## Days one after the other -/

/-- The day after a date of the calendar is one too. -/
theorem Valid.next {d : Date} (h : d.Valid) : d.next.Valid := by
  obtain ⟨hpos, hle, hday, hday'⟩ := h
  have hlong (year : Int) (month : Nat) : 1 ≤ monthLength year month :=
    (Nat.le_add_left 1 27).trans (monthLength_mem year month).1
  unfold Date.next
  split
  · next hinside => exact ⟨hpos, hle, Nat.le_add_left 1 _, hinside⟩
  · split
    · next hmonth => exact ⟨Nat.le_add_left 1 _, hmonth, Nat.le_refl 1, hlong _ _⟩
    · exact ⟨Nat.le_refl 1, Nat.le_add_left 1 11, Nat.le_refl 1, hlong _ _⟩

/-- The number of the day after is one more. -/
theorem toDays_next {d : Date} (h : d.Valid) : d.next.toDays = d.toDays + 1 := by
  obtain ⟨year, month, day⟩ := d
  obtain ⟨hpos, hle, hday, hday'⟩ := h
  dsimp only at hpos hle hday hday'
  rw [toDays_eq, toDays_eq]
  unfold Date.next marchYear
  dsimp only
  by_cases hinside : day < monthLength year month
  · rw [if_pos hinside]
    dsimp only
    omega
  · -- After its last day a month is followed by the next one, and February by a year.
    rw [if_neg hinside]
    by_cases htwo : month = 2
    · subst htwo
      have hlength := monthLength_two year
      unfold IsLeap at hlength
      unfold startOfMonth fromMarch
      rw [if_pos (by decide)]
      dsimp only
      omega
    · have hlength := monthLength_eq year hpos hle htwo
      by_cases hlast : month < 12
      · rw [← fromMarch_succ htwo] at hlength
        rw [if_pos hlast]
        dsimp only
        omega
      · have hdecember : month = 12 := by omega
        subst hdecember
        unfold startOfMonth fromMarch at hlength ⊢
        rw [if_neg hlast]
        dsimp only
        omega

/-! ## Numbers and days -/

/-- The number of a day is found again from its date. -/
theorem toDays_ofDays (n : Int) : (ofDays n).toDays = n := by
  obtain ⟨era, year, day, hday, rfl⟩ := exists_numberOf n
  rw [ofDays_numberOf era hday, toDays_ofYear era hday]

/-- Every number of a day is that of a date of the calendar. -/
theorem valid_ofDays (n : Int) : (ofDays n).Valid := by
  obtain ⟨era, year, day, hday, rfl⟩ := exists_numberOf n
  rw [ofDays_numberOf era hday]
  exact valid_ofYear era hday

/-- A date of the calendar is found again from its number. -/
theorem ofDays_toDays {d : Date} (h : d.Valid) : ofDays d.toDays = d := by
  obtain ⟨era, year, day, hday, rfl⟩ := h.exists_ofYear
  rw [toDays_ofYear era hday, ofDays_numberOf era hday]

/-- The day with the next number is the day after. -/
theorem ofDays_succ (n : Int) : ofDays (n + 1) = (ofDays n).next := by
  have hvalid := valid_ofDays n
  rw [← ofDays_toDays hvalid.next, toDays_next hvalid, toDays_ofDays]

/-- No other numbers start at the epoch and count the days of the calendar. -/
theorem eq_toDays {number : Date → Int} (hepoch : number ⟨1970, 1, 1⟩ = 0)
    (hnext : ∀ d : Date, d.Valid → number d.next = number d + 1) {d : Date} (h : d.Valid) :
    number d = d.toDays := by
  -- From the epoch on in both directions, one day at a time.
  have hcount (n : Int) : number (ofDays n) = n := by
    induction n with
    | zero => exact hepoch
    | succ n ih => rw [ofDays_succ, hnext _ (valid_ofDays _), ih]
    | pred n ih =>
      have hback := hnext _ (valid_ofDays (-n - 1))
      rw [← ofDays_succ, Int.sub_add_cancel, ih] at hback
      omega
  have hday := hcount d.toDays
  rwa [ofDays_toDays h] at hday

/-- The days before the next date are one more. -/
theorem count_next {d : Date} (h : d.Valid) : d.next.count = d.count + 1 := by
  obtain ⟨year, month, day⟩ := d
  obtain ⟨hpos, hle, hday, hday'⟩ := h
  dsimp only at hpos hle hday hday'
  unfold next count
  dsimp only
  by_cases hinside : day < monthLength year month
  · rw [if_pos hinside]
    dsimp only
    omega
  · rw [if_neg hinside]
    obtain ⟨m, rfl⟩ : ∃ m, month = m + 1 := ⟨month - 1, by omega⟩
    by_cases hlast : m + 1 < 12
    · rw [if_pos hlast]
      dsimp only
      rw [Nat.add_sub_cancel, Nat.add_sub_cancel, List.range_succ, List.map_append,
        List.sum_append, List.map_singleton, List.sum_singleton]
      omega
    · obtain rfl : m = 11 := by omega
      have hyear : daysBefore (year + 1) = daysBefore year + 365 + if IsLeap year then 1 else 0 := by
        unfold daysBefore
        split <;> (next hleap => unfold IsLeap at hleap; omega)
      have hmonths : ((List.range 11).map fun m => (monthLength year (m + 1) : Int)).sum =
          334 + if IsLeap year then 1 else 0 := by
        by_cases hleap : IsLeap year <;>
          simp [List.range_succ, monthLength, hleap]
      have hdecember : monthLength year (11 + 1) = 31 := rfl
      rw [if_neg hlast]
      dsimp only
      rw [hyear, Nat.add_sub_cancel, hmonths]
      simp only [Nat.sub_self, List.range_zero, List.map_nil, List.sum_nil]
      omega

/-- The day with a number is as many days away from the epoch. -/
theorem count_ofDays (n : Int) : (ofDays n).count = n := by
  rw [eq_toDays rfl (fun _ h => count_next h) (valid_ofDays n), toDays_ofDays]

/-- A century ends with a leap day if it is the fourth. -/
example : (ofDays 11016 = ⟨2000, 2, 29⟩ ∧ ofDays (-25509) = ⟨1900, 2, 28⟩) ∧
    ofDays (-25508) = ⟨1900, 3, 1⟩ := by decide

end Date

end SpeechRelay.Calendar
