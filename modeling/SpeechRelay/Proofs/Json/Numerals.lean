import Mathlib.Data.List.TakeWhile
import SpeechRelay.Json.Numeral

/-!
# The grammar of numerals

How a numeral is written (`Numeral.Written`), and which numerals are integers (`Numeral.Integer`):
those without point and exponent whose value a word holds. The zero with a minus is none.

`scan` takes the longest numeral at the front of a text. So what is read is always written like a
numeral (`written_of_scan`), while a written numeral is read back only if what follows it cannot
belong to it (`scan_of_written`).
-/

set_option autoImplicit false

namespace SpeechRelay.Json.Numeral

/-! ## The grammar -/

/-- Nothing but decimal digits. -/
def AllDigits (ds : List Char) : Prop := ∀ c ∈ ds, c.isDigit

/-- The digits before the point. -/
inductive Whole : List Char → Prop where
  | zero : Whole ['0']
  | digits {c : Char} {ds : List Char} (hc : c.isDigit) (hzero : c ≠ '0') (hds : AllDigits ds) :
      Whole (c :: ds)

/-- The digits behind the point, and how they are written with it. -/
inductive Fraction : List Char → List Char → Prop where
  | none : Fraction [] []
  | some {fs : List Char} (hne : fs ≠ []) (hfs : AllDigits fs) : Fraction fs ('.' :: fs)

/-- The sign of an exponent, true for minus. -/
inductive Sign : Bool → List Char → Prop where
  | none : Sign false []
  | plus : Sign false ['+']
  | minus : Sign true ['-']

/-- The sign and the digits of an exponent, and how they are written with its letter. -/
inductive Exponent : Option (Bool × List Char) → List Char → Prop where
  | none : Exponent none []
  | some {e : Char} {minus : Bool} {sign es : List Char} (he : e = 'e' ∨ e = 'E')
      (hsign : Sign minus sign) (hne : es ≠ []) (hes : AllDigits es) :
      Exponent (some (minus, es)) (e :: (sign ++ es))

/-- The numeral behind its sign. -/
inductive Unsigned (n : Numeral) : List Char → Prop where
  | mk {fs es : List Char} (hwhole : Whole n.whole) (hfraction : Fraction n.fraction fs)
      (hexponent : Exponent n.exponent es) : Unsigned n (n.whole ++ (fs ++ es))

/-- A numeral as it is written. -/
inductive Written (n : Numeral) : List Char → Prop where
  | natural {body : List Char} (hsign : n.negative = false) (h : Unsigned n body) : Written n body
  | negative {body : List Char} (hsign : n.negative = true) (h : Unsigned n body) :
      Written n ('-' :: body)

/-- What is written between `0` and `9`. -/
def natValue (ds : List Char) : Nat := ds.foldl (fun value d => value * 10 + digit d) 0

/-- The integer that a numeral is. -/
inductive Integer (n : Numeral) : Int → Prop where
  | natural (hsign : n.negative = false) (hfraction : n.fraction = [])
      (hexponent : n.exponent = none) (hfits : natValue n.whole < 0x10000000000000000) :
      Integer n (natValue n.whole)
  | negative (hsign : n.negative = true) (hfraction : n.fraction = [])
      (hexponent : n.exponent = none) (hzero : natValue n.whole ≠ 0)
      (hfits : natValue n.whole ≤ 0x8000000000000000) : Integer n (-natValue n.whole)

/-- What cannot go on with a numeral. -/
def Stops (cs : List Char) : Prop :=
  ∀ c, cs.head? = some c → c.isDigit = false ∧ c ≠ '.' ∧ c ≠ 'e' ∧ c ≠ 'E'

/-- A numeral behind its sign starts with a digit. -/
theorem Unsigned.startsWithDigit {n : Numeral} {body : List Char} (h : Unsigned n body) :
    ∃ c tail, body = c :: tail ∧ c.isDigit := by
  obtain ⟨hwhole, -, -⟩ := h
  cases hall : n.whole with
  | nil =>
    rw [hall] at hwhole
    cases hwhole
  | cons c ds =>
    refine ⟨c, _, List.cons_append, ?_⟩
    rw [hall] at hwhole
    cases hwhole with
    | zero => rfl
    | digits hc => exact hc

/-! ## What is read -/

section Scan

variable {n m : Numeral} {cs rest : List Char}

/-- The digits in front of a text are nothing but digits. -/
theorem allDigits_takeWhile (cs : List Char) : AllDigits (cs.takeWhile Char.isDigit) :=
  fun _ hmem => List.mem_takeWhile_imp hmem

/-- The sign that is read in front of an exponent stands there. -/
theorem sign_exponentSign (cs : List Char) :
    ∃ sign, Sign (exponentSign cs).1 sign ∧ cs = sign ++ (exponentSign cs).2 := by
  unfold exponentSign
  split
  · exact ⟨['+'], .plus, rfl⟩
  · exact ⟨['-'], .minus, rfl⟩
  · exact ⟨[], .none, rfl⟩

/-- The exponent that is read stands there, and the rest of the numeral is kept. -/
theorem exponent_of_scanExponent (hn : n.exponent = none)
    (h : scanExponent n cs = .ok (m, rest)) :
    ∃ es, cs = es ++ rest ∧ Exponent m.exponent es ∧ m = { n with exponent := m.exponent } := by
  unfold scanExponent at h
  split at h
  · cases h
    exact ⟨[], rfl, hn ▸ .none, rfl⟩
  · next c tail =>
    split at h
    · next he =>
      obtain ⟨sign, hsign, htail⟩ := sign_exponentSign tail
      have hdigits := allDigits_takeWhile (exponentSign tail).2
      have hparts := List.takeWhile_append_dropWhile (p := Char.isDigit) (l := (exponentSign tail).2)
      dsimp only at h
      split at h
      · cases h
      · next hne =>
        cases h
        refine ⟨c :: (sign ++ (exponentSign tail).2.takeWhile Char.isDigit), ?_,
          .some he hsign hne hdigits, rfl⟩
        rw [List.cons_append, List.append_assoc, hparts, ← htail]
    · cases h
      exact ⟨[], rfl, hn ▸ .none, rfl⟩

/-- The fraction and the exponent that are read stand there, and the rest of the numeral is kept. -/
theorem fraction_of_scanFraction (hfraction : n.fraction = []) (hexponent : n.exponent = none)
    (h : scanFraction n cs = .ok (m, rest)) :
    ∃ fs es, cs = fs ++ es ++ rest ∧ Fraction m.fraction fs ∧ Exponent m.exponent es ∧
      m.negative = n.negative ∧ m.whole = n.whole := by
  unfold scanFraction at h
  split at h
  · next ds =>
    have hdigits := allDigits_takeWhile ds
    have hparts := List.takeWhile_append_dropWhile (p := Char.isDigit) (l := ds)
    split at h
    · cases h
    · next hne =>
      have hplain : { n with fraction := ds.takeWhile Char.isDigit }.exponent = none := hexponent
      obtain ⟨es, hes, hwritten, hm⟩ := exponent_of_scanExponent hplain h
      refine ⟨'.' :: ds.takeWhile Char.isDigit, es, ?_, ?_, hwritten, ?_, ?_⟩
      · rw [List.append_assoc, ← hes, List.cons_append, hparts]
      · rw [hm]
        exact .some hne hdigits
      · rw [hm]
      · rw [hm]
  · obtain ⟨es, hes, hwritten, hm⟩ := exponent_of_scanExponent hexponent h
    refine ⟨[], es, hes, ?_, hwritten, ?_, ?_⟩
    · rw [hm, hfraction]
      exact .none
    · rw [hm]
    · rw [hm]

/-- What is read as a numeral is written like one. -/
theorem written_of_scan {negative : Bool} (h : scan negative cs = .ok (n, rest)) :
    n.negative = negative ∧ ∃ body, cs = body ++ rest ∧ Unsigned n body := by
  unfold scan at h
  split at h
  · cases h
  · next c tail =>
    split at h
    · next hzero =>
      split at h
      · cases h
      · obtain ⟨fs, es, rfl, hfs, hes, hsign, hwhole⟩ := fraction_of_scanFraction rfl rfl h
        have hall : Whole n.whole := hwhole ▸ .zero
        refine ⟨hsign, _, ?_, .mk hall hfs hes⟩
        rw [hwhole, hzero]
        simp
    · next hzero =>
      split at h
      · next hdigit =>
        have hparts := List.takeWhile_append_dropWhile (p := Char.isDigit) (l := tail)
        obtain ⟨fs, es, hrest, hfs, hes, hsign, hwhole⟩ := fraction_of_scanFraction rfl rfl h
        have hall : Whole n.whole := hwhole ▸ .digits hdigit hzero (allDigits_takeWhile tail)
        refine ⟨hsign, _, ?_, .mk hall hfs hes⟩
        rw [hwhole, List.append_assoc, ← hrest, List.cons_append, hparts]
      · cases h

/-! ## What has to be read -/

/-- Digits in front of something else are all the digits there. -/
theorem takeWhile_append {ds : List Char} (hds : AllDigits ds)
    (hrest : ∀ c, rest.head? = some c → c.isDigit = false) :
    (ds ++ rest).takeWhile Char.isDigit = ds ∧ (ds ++ rest).dropWhile Char.isDigit = rest := by
  rw [List.takeWhile_append_of_pos hds, List.dropWhile_append_of_pos hds]
  cases rest with
  | nil => simp
  | cons c tail =>
    have hc := hrest c rfl
    simp [hc]

/-- An exponent does not go on with the digits in front of it. -/
theorem stops_of_exponent {e : Option (Bool × List Char)} {es : List Char} (h : Exponent e es)
    (hrest : Stops rest) :
    ∀ c, (es ++ rest).head? = some c → c.isDigit = false ∧ c ≠ '.' := by
  cases h with
  | none => exact fun c hc => ⟨(hrest c hc).1, (hrest c hc).2.1⟩
  | some he =>
    intro c hc
    cases hc
    rcases he with rfl | rfl <;> decide

/-- A fraction with its exponent does not go on with the digits in front of it. -/
theorem stops_of_fraction {f fs es : List Char} {e : Option (Bool × List Char)}
    (hf : Fraction f fs) (he : Exponent e es) (hrest : Stops rest) :
    ∀ c, (fs ++ (es ++ rest)).head? = some c → c.isDigit = false := by
  cases hf with
  | none => exact fun c hc => (stops_of_exponent he hrest c hc).1
  | some =>
    intro c hc
    cases hc
    rfl

/-- A sign in front of the digits of an exponent is read. -/
theorem exponentSign_of_sign {minus : Bool} {sign es : List Char} (hsign : Sign minus sign)
    (hne : es ≠ []) (hes : AllDigits es) : exponentSign (sign ++ (es ++ rest)) = (minus, es ++ rest) := by
  cases hsign with
  | plus => rfl
  | minus => rfl
  | none =>
    cases es with
    | nil => exact absurd rfl hne
    | cons c es =>
      have hc : c.isDigit := hes c List.mem_cons_self
      rw [List.nil_append, List.cons_append]
      unfold exponentSign
      split
      · next heq =>
        cases heq
        cases hc
      · next heq =>
        cases heq
        cases hc
      · rfl

/-- An exponent that stands there is read. -/
theorem scanExponent_of_exponent {e : Option (Bool × List Char)} {es : List Char}
    (hn : n.exponent = none) (h : Exponent e es) (hrest : Stops rest) :
    scanExponent n (es ++ rest) = .ok ({ n with exponent := e }, rest) := by
  cases h with
  | none =>
    have hsame : { n with exponent := none } = n := by rw [← hn]
    rw [hsame, List.nil_append]
    unfold scanExponent
    cases rest with
    | nil => rfl
    | cons c tail =>
      have hstops := hrest c rfl
      dsimp only
      rw [if_neg (by rintro (rfl | rfl) <;> simp at hstops)]
  | @some e minus sign es he hsign hne hes =>
    obtain ⟨htake, hdrop⟩ := takeWhile_append hes fun c hc => (hrest c hc).1
    unfold scanExponent
    rw [List.cons_append, List.append_assoc]
    dsimp only
    rw [if_pos he, exponentSign_of_sign hsign hne hes]
    dsimp only
    rw [htake, hdrop]
    split
    · next hnil => exact absurd rfl hne
    · rfl

/-- A fraction and an exponent that stand there are read. -/
theorem scanFraction_of_fraction {f fs es : List Char} {e : Option (Bool × List Char)}
    (hfraction : n.fraction = []) (hexponent : n.exponent = none) (hf : Fraction f fs)
    (he : Exponent e es) (hrest : Stops rest) :
    scanFraction n (fs ++ (es ++ rest)) = .ok ({ n with fraction := f, exponent := e }, rest) := by
  have hstops := stops_of_exponent he hrest
  cases hf with
  | none =>
    have hsame : { n with fraction := [], exponent := e } = { n with exponent := e } := by
      rw [← hfraction]
    rw [hsame, List.nil_append]
    unfold scanFraction
    split
    · next ds heq =>
      rw [heq] at hstops
      exact absurd rfl (hstops '.' rfl).2
    · exact scanExponent_of_exponent hexponent he hrest
  | some hne hfs =>
    obtain ⟨htake, hdrop⟩ := takeWhile_append hfs fun c hc => (hstops c hc).1
    rw [List.cons_append, scanFraction, htake, hdrop]
    split
    · next hnil => exact absurd rfl hne
    · exact scanExponent_of_exponent hexponent he hrest

/-- What does not start with a digit is seen not to. -/
theorem startsWithDigit_of_stops (h : ∀ c, cs.head? = some c → c.isDigit = false) :
    startsWithDigit cs = false := by
  cases cs with
  | nil => rfl
  | cons c tail => exact h c rfl

/-- A numeral is read if what follows cannot belong to it. -/
theorem scan_of_written {body : List Char} (h : Unsigned n body) (hrest : Stops rest) :
    scan n.negative (body ++ rest) = .ok (n, rest) := by
  obtain ⟨negative, whole, fraction, exponent⟩ := n
  obtain ⟨hwhole, hfraction, hexponent⟩ := h
  dsimp only at hwhole hfraction hexponent ⊢
  rw [List.append_assoc, List.append_assoc]
  have hbehind := scanFraction_of_fraction (n := ⟨negative, whole, [], none⟩) rfl rfl hfraction
    hexponent hrest
  have hstops := stops_of_fraction hfraction hexponent hrest
  cases hwhole with
  | zero =>
    have hstart := startsWithDigit_of_stops hstops
    rw [List.cons_append, List.nil_append, scan, if_pos rfl, hstart, if_neg Bool.false_ne_true,
      hbehind]
  | @digits c ds hc hzero hds =>
    obtain ⟨htake, hdrop⟩ := takeWhile_append hds hstops
    rw [List.cons_append, scan, if_neg hzero, if_pos hc, htake, hdrop, hbehind]

end Scan

/-! ## Which numerals are integers -/

/-- More digits make no smaller number. -/
theorem le_foldl_digits (value : Nat) (ds : List Char) :
    value ≤ ds.foldl (fun value d => value * 10 + digit d) value := by
  induction ds generalizing value with
  | nil => exact Nat.le_refl _
  | cons d ds ih => exact Nat.le_trans (by omega) (ih (value * 10 + digit d))

/-- All digits are taken up if a word holds the value, and else some are left. -/
theorem absorb_cases (value : Nat) (ds : List Char) (hvalue : value < 0x10000000000000000) :
    (absorb value ds = (ds.foldl (fun value d => value * 10 + digit d) value, 0) ∧
        ds.foldl (fun value d => value * 10 + digit d) value < 0x10000000000000000) ∨
      ((absorb value ds).2 ≠ 0 ∧
        0x10000000000000000 ≤ ds.foldl (fun value d => value * 10 + digit d) value) := by
  induction ds generalizing value with
  | nil => exact Or.inl ⟨rfl, hvalue⟩
  | cons d ds ih =>
    rw [absorb, List.foldl_cons]
    by_cases hfits : value * 10 + digit d < 0x10000000000000000
    · rw [if_pos hfits]
      exact ih (value * 10 + digit d) hfits
    · rw [if_neg hfits]
      have hle := le_foldl_digits (value * 10 + digit d) ds
      exact Or.inr ⟨Nat.succ_ne_zero _, by omega⟩

/-- A double is no integer. -/
theorem toDouble_ne_integer (negative : Bool) (significand : Nat) (e : Int) (i : Int) :
    toDouble negative significand e ≠ .ok (.integer i) := by
  unfold toDouble
  split <;> simp

/-- A point or an exponent makes a double. -/
theorem value_ne_integer {n : Numeral} (h : n.fraction ≠ [] ∨ n.exponent ≠ none) (i : Int) :
    n.value ≠ .ok (.integer i) := by
  obtain ⟨negative, whole, fraction, exponent⟩ := n
  unfold value
  dsimp only at h ⊢
  cases exponent with
  | none =>
    have hfraction := h.resolve_right (fun hne => hne rfl)
    dsimp only
    rw [if_pos (Or.inl hfraction)]
    exact toDouble_ne_integer _ _ _ i
  | some e =>
    obtain ⟨minus, es⟩ := e
    dsimp only
    cases exponentValue es with
    | some e => exact toDouble_ne_integer _ _ _ i
    | none =>
      dsimp only
      split <;> simp

section Digits

variable {negative : Bool} {whole : List Char}

/-- Digits that a word holds. -/
theorem value_of_lt (hfits : natValue whole < 0x10000000000000000) :
    (⟨negative, whole, [], none⟩ : Numeral).value =
      if !negative then .ok (.integer (natValue whole))
      else if natValue whole = 0 ∨ 0x8000000000000000 < natValue whole then
        .ok (.double (signed true (Float.ofNat (natValue whole))))
      else .ok (.integer (-natValue whole)) := by
  rcases absorb_cases 0 whole (by decide) with ⟨habsorb, -⟩ | ⟨-, hover⟩
  · unfold value
    dsimp only
    rw [habsorb]
    rfl
  · exact absurd hfits (Nat.not_lt.mpr hover)

/-- Digits that no word holds make a double. -/
theorem value_of_le (hover : 0x10000000000000000 ≤ natValue whole) (i : Int) :
    (⟨negative, whole, [], none⟩ : Numeral).value ≠ .ok (.integer i) := by
  rcases absorb_cases 0 whole (by decide) with ⟨-, hfits⟩ | ⟨hunread, -⟩
  · exact absurd hfits (Nat.not_lt.mpr hover)
  · unfold value
    dsimp only
    generalize absorb 0 whole = taken at hunread ⊢
    obtain ⟨leading, unread⟩ := taken
    dsimp only [absorb] at hunread ⊢
    rw [if_pos (Or.inr hunread)]
    exact toDouble_ne_integer _ _ _ i

end Digits

/-- The numerals that are read as integers. -/
theorem value_eq_integer_iff {n : Numeral} {i : Int} :
    n.value = .ok (.integer i) ↔ n.Integer i := by
  constructor
  · intro h
    by_cases hdouble : n.fraction ≠ [] ∨ n.exponent ≠ none
    · exact absurd h (value_ne_integer hdouble i)
    · obtain ⟨negative, whole, fraction, exponent⟩ := n
      obtain ⟨rfl, rfl⟩ : fraction = [] ∧ exponent = none := by simpa using hdouble
      rcases Nat.lt_or_ge (natValue whole) 0x10000000000000000 with hfits | hover
      · rw [value_of_lt hfits] at h
        cases negative with
        | false =>
          cases h
          exact .natural rfl rfl rfl hfits
        | true =>
          rw [if_neg (by decide)] at h
          split at h
          · cases h
          · next hrange =>
            cases h
            exact .negative rfl rfl rfl (fun hzero => hrange (Or.inl hzero))
              (Nat.not_lt.mp fun hlt => hrange (Or.inr hlt))
      · exact absurd h (value_of_le hover i)
  · intro h
    obtain ⟨negative, whole, fraction, exponent⟩ := n
    cases h with
    | natural hsign hfraction hexponent hfits =>
      dsimp only at hsign hfraction hexponent hfits ⊢
      subst hsign hfraction hexponent
      rw [value_of_lt hfits]
      rfl
    | negative hsign hfraction hexponent hzero hfits =>
      dsimp only at hsign hfraction hexponent hzero hfits ⊢
      subst hsign hfraction hexponent
      rw [value_of_lt (by omega), if_neg (by decide), if_neg (by omega)]

end SpeechRelay.Json.Numeral
