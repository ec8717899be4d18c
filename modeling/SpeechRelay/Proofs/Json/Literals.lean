import Mathlib.Tactic.Common
import SpeechRelay.Json.Literal

/-!
# The grammar of string literals

What stands between the quotes of a string literal, and the text that it spells
(`Literal.Spells`). Who only looks for the end of a literal is content with less: an escaped unit
needs four hexadecimal digits, and it may be half of a surrogate pair (`Literal.Bounded`).

`decode` accepts a literal if and only if its body spells a text (`decode_eq_ok_iff`), and `skip` if
and only if its body is bounded (`skip_eq_ok_iff`). Both are proved in two directions, by the length
of the text for what is accepted and along the grammar for what has to be.
-/

set_option autoImplicit false

namespace SpeechRelay.Json.Literal

open Text (hexDigit?)

/-! ## The grammar -/

/-- Four hexadecimal digits of that value. -/
inductive Quad : List Char → Nat → Prop where
  | mk {a b c d : Char} {x y z w : Nat} (ha : hexDigit? a = some x) (hb : hexDigit? b = some y)
      (hc : hexDigit? c = some z) (hd : hexDigit? d = some w) :
      Quad [a, b, c, d] (((x * 16 + y) * 16 + z) * 16 + w)

/-- What stands between the quotes, and the text that it spells. -/
inductive Spells : List Char → List Char → Prop where
  | nil : Spells [] []
  | plain {c : Char} {body text : List Char} (hquote : c ≠ '\"') (hslash : c ≠ '\\')
      (hcontrol : 0x20 ≤ c.toNat) (h : Spells body text) : Spells (c :: body) (c :: text)
  | short {e c : Char} {body text : List Char} (he : shortEscape? e = some c)
      (h : Spells body text) : Spells ('\\' :: e :: body) (c :: text)
  | unit {ds body text : List Char} {n : Nat} (hds : Quad ds n) (hhigh : isHigh n = false)
      (hlow : isLow n = false) (h : Spells body text) :
      Spells ('\\' :: 'u' :: (ds ++ body)) (Char.ofNat n :: text)
  | pair {ds es body text : List Char} {high low : Nat} (hds : Quad ds high) (hhigh : isHigh high)
      (hes : Quad es low) (hlow : isLow low) (h : Spells body text) :
      Spells ('\\' :: 'u' :: (ds ++ '\\' :: 'u' :: (es ++ body))) (ofPair high low :: text)

/-- What stands between the quotes of a literal that is passed over. -/
inductive Bounded : List Char → Prop where
  | nil : Bounded []
  | plain {c : Char} {body : List Char} (hquote : c ≠ '\"') (hslash : c ≠ '\\')
      (hcontrol : 0x20 ≤ c.toNat) (h : Bounded body) : Bounded (c :: body)
  | short {e c : Char} {body : List Char} (he : shortEscape? e = some c) (h : Bounded body) :
      Bounded ('\\' :: e :: body)
  | unit {ds body : List Char} {n : Nat} (hds : Quad ds n) (h : Bounded body) :
      Bounded ('\\' :: 'u' :: (ds ++ body))

/-- A literal that spells a text can also be passed over. -/
theorem Spells.bounded {body text : List Char} (h : Spells body text) : Bounded body := by
  induction h with
  | nil => exact .nil
  | plain hquote hslash hcontrol _ ih => exact .plain hquote hslash hcontrol ih
  | short he _ ih => exact .short he ih
  | unit hds _ _ _ ih => exact .unit hds ih
  | pair hds _ hes _ _ ih => exact .unit hds (.unit hes ih)

/-! ## Four digits -/

/-- Four characters are never too short. -/
theorem tooShort_eq_false (a b c d : Char) (rest : List Char) :
    tooShort (a :: b :: c :: d :: rest) = false := by
  have ha := a.utf8Size_pos
  have hb := b.utf8Size_pos
  have hc := c.utf8Size_pos
  have hd := d.utf8Size_pos
  apply decide_eq_false
  simp only [List.take_succ_cons, List.take_zero, List.foldl_cons, List.foldl_nil]
  omega

/-- The letter behind a backslash that is followed by digits stands for nothing else. -/
theorem shortEscape?_ne_none {e c : Char} (h : shortEscape? e = some c) : e ≠ 'u' := by
  rintro rfl
  have hnone : shortEscape? 'u' = none := by decide
  rw [hnone] at h
  cases h

section Decode

variable {done cs rest : List Char} {high : Option Nat} {r : List Char × List Char}

/-- What follows four digits. -/
def afterUnit (done cs : List Char) :
    Except ReadError (Char ⊕ Nat) → Except ReadError (List Char × List Char)
  | .error e => .error e
  | .ok (.inl ch) => decodeFrom .plain (ch :: done) cs
  | .ok (.inr n) => decodeFrom (.pairBackslash n) done cs

/-- Four digits are read as the unit that they are. -/
theorem decodeFrom_quad {ds : List Char} {n : Nat} (h : Quad ds n) :
    decodeFrom (.hex 0 0 high) done (ds ++ rest) = afterUnit done rest (unit n high) := by
  obtain ⟨ha, hb, hc, hd⟩ := h
  simp only [List.cons_append, List.nil_append, decodeFrom, tooShort_eq_false, ha, hb, hc, hd]
  simp
  rfl

/-- A digit that was read is there, and reading goes on behind it. -/
theorem decodeFrom_hex_eq_ok {seen value : Nat}
    (h : decodeFrom (.hex seen value high) done cs = .ok r) :
    ∃ c d tail, cs = c :: tail ∧ hexDigit? c = some d ∧
      (if seen < 3 then decodeFrom (.hex (seen + 1) (value * 16 + d) high) done tail
        else afterUnit done tail (unit (value * 16 + d) high)) = .ok r := by
  cases cs with
  | nil => simp [decodeFrom] at h
  | cons c tail =>
    rw [decodeFrom] at h
    split at h
    · cases h
    · split at h
      · cases h
      · next d hd =>
        refine ⟨c, d, tail, rfl, hd, ?_⟩
        rw [← h]
        rfl

/-- Where a unit was read, four digits stand. -/
theorem quad_of_decodeFrom (h : decodeFrom (.hex 0 0 high) done cs = .ok r) :
    ∃ ds n tail, cs = ds ++ tail ∧ Quad ds n ∧ afterUnit done tail (unit n high) = .ok r := by
  obtain ⟨a, x, cs, rfl, ha, h⟩ := decodeFrom_hex_eq_ok h
  rw [if_pos (by decide)] at h
  obtain ⟨b, y, cs, rfl, hb, h⟩ := decodeFrom_hex_eq_ok h
  rw [if_pos (by decide)] at h
  obtain ⟨c, z, cs, rfl, hc, h⟩ := decodeFrom_hex_eq_ok h
  rw [if_pos (by decide)] at h
  obtain ⟨d, w, cs, rfl, hd, h⟩ := decodeFrom_hex_eq_ok h
  rw [if_neg (by decide)] at h
  refine ⟨[a, b, c, d], _, cs, rfl, ⟨ha, hb, hc, hd⟩, ?_⟩
  simpa only [Nat.zero_mul, Nat.zero_add] using h

/-- A unit that stands alone is a character or the first half of a pair. -/
theorem afterUnit_eq_ok {n : Nat} (h : afterUnit done cs (unit n none) = .ok r) :
    isLow n = false ∧
      ((isHigh n = false ∧ decodeFrom .plain (Char.ofNat n :: done) cs = .ok r) ∨
        (isHigh n ∧ decodeFrom (.pairBackslash n) done cs = .ok r)) := by
  cases hlow : isLow n with
  | true => simp [unit, hlow, afterUnit] at h
  | false =>
    cases hhigh : isHigh n with
    | true => exact ⟨rfl, Or.inr ⟨rfl, by simpa [unit, hlow, hhigh, afterUnit] using h⟩⟩
    | false => exact ⟨rfl, Or.inl ⟨rfl, by simpa [unit, hlow, hhigh, afterUnit] using h⟩⟩

/-- Behind the first half of a pair, a unit is the second half. -/
theorem afterPair_eq_ok {n high : Nat} (h : afterUnit done cs (unit n (some high)) = .ok r) :
    isLow n ∧ decodeFrom .plain (ofPair high n :: done) cs = .ok r := by
  cases hlow : isLow n with
  | true => exact ⟨rfl, by simpa [unit, hlow, afterUnit] using h⟩
  | false => simp [unit, hlow, afterUnit] at h

/-- The second half of a pair. -/
theorem pair_of_decodeFrom {high : Nat} (h : decodeFrom (.pairBackslash high) done cs = .ok r) :
    ∃ es low tail, cs = '\\' :: 'u' :: (es ++ tail) ∧ Quad es low ∧ isLow low ∧
      decodeFrom .plain (ofPair high low :: done) tail = .ok r := by
  cases cs with
  | nil => simp [decodeFrom] at h
  | cons c cs =>
    rw [decodeFrom] at h
    split at h
    · next hslash =>
      subst hslash
      cases cs with
      | nil => simp [decodeFrom] at h
      | cons c cs =>
        rw [decodeFrom] at h
        split at h
        · next hletter =>
          subst hletter
          obtain ⟨es, low, tail, rfl, hes, hunit⟩ := quad_of_decodeFrom h
          obtain ⟨hlow, hplain⟩ := afterPair_eq_ok hunit
          exact ⟨es, low, tail, rfl, hes, hlow, hplain⟩
        · cases h
    · cases h

/-- Whatever is accepted behind the characters `done` spells what is added to them. -/
theorem spells_of_decodeFrom (h : decodeFrom .plain done cs = .ok r) :
    ∃ body text, cs = body ++ '\"' :: r.2 ∧ Spells body text ∧ r.1 = done.reverse ++ text := by
  -- An escape is up to twelve characters long, and the induction is on the length for that reason.
  induction hn : cs.length using Nat.strongRecOn generalizing done cs with
  | ind n ih =>
    subst hn
    cases cs with
    | nil => simp [decodeFrom] at h
    | cons c cs =>
      rw [decodeFrom] at h
      split at h
      · next hquote =>
        cases h
        exact ⟨[], [], by rw [hquote]; rfl, .nil, (List.append_nil _).symm⟩
      · next hquote =>
        split at h
        · next hslash =>
          subst hslash
          cases cs with
          | nil => simp [decodeFrom] at h
          | cons e cs =>
            rw [decodeFrom] at h
            split at h
            · next hletter =>
              subst hletter
              obtain ⟨ds, n, tail, rfl, hds, hunit⟩ := quad_of_decodeFrom h
              -- A unit is a character, or the first of two that are one character together.
              obtain ⟨hlow, ⟨hhigh, hplain⟩ | ⟨hhigh, hpair⟩⟩ := afterUnit_eq_ok hunit
              · obtain ⟨body, text, rfl, hspells, hr⟩ := ih _ (by simp; omega) hplain rfl
                refine ⟨'\\' :: 'u' :: (ds ++ body), _, by simp, .unit hds hhigh hlow hspells, ?_⟩
                simp [hr]
              · obtain ⟨es, low, tail, rfl, hes, hlow', hplain⟩ := pair_of_decodeFrom hpair
                obtain ⟨body, text, rfl, hspells, hr⟩ := ih _ (by simp; omega) hplain rfl
                refine ⟨'\\' :: 'u' :: (ds ++ '\\' :: 'u' :: (es ++ body)), _, by simp,
                  .pair hds hhigh hes hlow' hspells, ?_⟩
                simp [hr]
            · split at h
              · next d hd =>
                have hshorter : cs.length < ('\\' :: e :: cs).length := by
                  simp only [List.length_cons]
                  omega
                obtain ⟨body, text, rfl, hspells, hr⟩ := ih _ hshorter h rfl
                exact ⟨'\\' :: e :: body, d :: text, rfl, .short hd hspells, by simp [hr]⟩
              · cases h
        · next hslash =>
          split at h
          · cases h
          · next hcontrol =>
            obtain ⟨body, text, rfl, hspells, hr⟩ := ih _ (by simp) h rfl
            exact ⟨c :: body, c :: text, rfl, .plain hquote hslash (by omega) hspells, by simp [hr]⟩

/-- And whatever spells a text is accepted. -/
theorem decodeFrom_of_spells {body text : List Char} (h : Spells body text) (done : List Char) :
    decodeFrom .plain done (body ++ '\"' :: rest) = .ok (done.reverse ++ text, rest) := by
  induction h generalizing done with
  | nil =>
    rw [List.nil_append, decodeFrom, if_pos rfl, List.append_nil]
  | @plain c body text hquote hslash hcontrol _ ih =>
    rw [List.cons_append, decodeFrom, if_neg hquote, if_neg hslash, if_neg (by omega), ih]
    simp
  | @short e c body text he _ ih =>
    rw [List.cons_append, List.cons_append, decodeFrom, if_neg (by decide), if_pos rfl, decodeFrom,
      if_neg (shortEscape?_ne_none he), he]
    simp [ih]
  | @unit ds body text n hds hhigh hlow _ ih =>
    rw [List.cons_append, List.cons_append, List.append_assoc, decodeFrom, if_neg (by decide),
      if_pos rfl, decodeFrom, if_pos rfl, decodeFrom_quad hds]
    simp [unit, hhigh, hlow, afterUnit, ih]
  | @pair ds es body text high low hds hhigh hes hlow _ ih =>
    have hnotlow : isLow high = false := by
      simp only [isHigh, isLow, Bool.and_eq_true, decide_eq_true_eq, Bool.and_eq_false_iff,
        decide_eq_false_iff_not] at hhigh ⊢
      omega
    rw [List.cons_append, List.cons_append, List.append_assoc, decodeFrom, if_neg (by decide),
      if_pos rfl, decodeFrom, if_pos rfl, decodeFrom_quad hds]
    simp only [unit, hhigh, hnotlow, Bool.false_eq_true, if_false, if_true, afterUnit,
      List.cons_append]
    rw [decodeFrom, if_pos rfl, decodeFrom, if_pos rfl, List.append_assoc, decodeFrom_quad hes]
    simp [unit, hlow, afterUnit, ih]

end Decode

/-- A literal is read as a text just if it spells the text up to the closing quote. -/
theorem decode_eq_ok_iff {cs text rest : List Char} :
    decode cs = .ok (text, rest) ↔ ∃ body, cs = body ++ '\"' :: rest ∧ Spells body text := by
  constructor
  · intro h
    obtain ⟨body, spelled, hcs, hspells, htext⟩ := spells_of_decodeFrom h
    have hsame : text = spelled := htext
    exact ⟨body, hcs, hsame ▸ hspells⟩
  · rintro ⟨body, rfl, h⟩
    exact decodeFrom_of_spells h []

/-! ## Passing over a literal -/

section Skip

variable {cs rest : List Char}

/-- Four digits are passed over, whatever unit they are. -/
theorem skipFrom_quad {ds : List Char} {n : Nat} (h : Quad ds n) :
    skipFrom (.hex 0) (ds ++ rest) = skipFrom .plain rest := by
  obtain ⟨ha, hb, hc, hd⟩ := h
  simp [skipFrom, tooShort_eq_false, ha, hb, hc, hd]

/-- A digit that was passed over is there, and passing goes on behind it. -/
theorem skipFrom_hex_eq_ok {seen : Nat} (h : skipFrom (.hex seen) cs = .ok rest) :
    ∃ c d tail, cs = c :: tail ∧ hexDigit? c = some d ∧
      skipFrom (if seen < 3 then .hex (seen + 1) else .plain) tail = .ok rest := by
  cases cs with
  | nil => simp [skipFrom] at h
  | cons c tail =>
    rw [skipFrom] at h
    split at h
    · cases h
    · split at h
      · cases h
      · next hd =>
        obtain ⟨d, hd⟩ : ∃ d, hexDigit? c = some d := by
          cases hdigit : hexDigit? c with
          | none =>
            rw [hdigit] at hd
            exact absurd rfl hd
          | some d => exact ⟨d, rfl⟩
        refine ⟨c, d, tail, rfl, hd, ?_⟩
        split at h
        · next hseen => rwa [if_pos hseen]
        · next hseen => rwa [if_neg hseen]

/-- Where a unit was passed over, four digits stand. -/
theorem quad_of_skipFrom (h : skipFrom (.hex 0) cs = .ok rest) :
    ∃ ds n tail, cs = ds ++ tail ∧ Quad ds n ∧ skipFrom .plain tail = .ok rest := by
  obtain ⟨a, x, cs, rfl, ha, h⟩ := skipFrom_hex_eq_ok h
  obtain ⟨b, y, cs, rfl, hb, h⟩ := skipFrom_hex_eq_ok h
  obtain ⟨c, z, cs, rfl, hc, h⟩ := skipFrom_hex_eq_ok h
  obtain ⟨d, w, cs, rfl, hd, h⟩ := skipFrom_hex_eq_ok h
  exact ⟨[a, b, c, d], _, cs, rfl, ⟨ha, hb, hc, hd⟩, h⟩

/-- What was passed over reaches up to a closing quote. -/
theorem bounded_of_skipFrom (h : skipFrom .plain cs = .ok rest) :
    ∃ body, cs = body ++ '\"' :: rest ∧ Bounded body := by
  induction hn : cs.length using Nat.strongRecOn generalizing cs with
  | ind n ih =>
    subst hn
    cases cs with
    | nil => simp [skipFrom] at h
    | cons c cs =>
      rw [skipFrom] at h
      split at h
      · next hquote =>
        cases h
        exact ⟨[], by rw [hquote]; rfl, .nil⟩
      · next hquote =>
        split at h
        · next hslash =>
          subst hslash
          cases cs with
          | nil => simp [skipFrom] at h
          | cons e cs =>
            rw [skipFrom] at h
            split at h
            · next hletter =>
              subst hletter
              obtain ⟨ds, n, tail, rfl, hds, hplain⟩ := quad_of_skipFrom h
              obtain ⟨body, rfl, hbounded⟩ := ih _ (by simp; omega) hplain rfl
              exact ⟨'\\' :: 'u' :: (ds ++ body), by simp, .unit hds hbounded⟩
            · split at h
              · next hd =>
                obtain ⟨d, hd⟩ := Option.isSome_iff_exists.mp hd
                have hshorter : cs.length < ('\\' :: e :: cs).length := by
                  simp only [List.length_cons]
                  omega
                obtain ⟨body, rfl, hbounded⟩ := ih _ hshorter h rfl
                exact ⟨'\\' :: e :: body, rfl, .short hd hbounded⟩
              · cases h
        · next hslash =>
          split at h
          · cases h
          · next hcontrol =>
            obtain ⟨body, rfl, hbounded⟩ := ih _ (by simp) h rfl
            exact ⟨c :: body, rfl, .plain hquote hslash (by omega) hbounded⟩

/-- What reaches up to a closing quote is passed over. -/
theorem skipFrom_of_bounded {body : List Char} (h : Bounded body) :
    skipFrom .plain (body ++ '\"' :: rest) = .ok rest := by
  induction h with
  | nil => rw [List.nil_append, skipFrom, if_pos rfl]
  | plain hquote hslash hcontrol _ ih =>
    rw [List.cons_append, skipFrom, if_neg hquote, if_neg hslash, if_neg (by omega), ih]
  | short he _ ih =>
    rw [List.cons_append, List.cons_append, skipFrom, if_neg (by decide), if_pos rfl, skipFrom,
      if_neg (shortEscape?_ne_none he), he, Option.isSome_some, if_pos rfl, ih]
  | unit hds _ ih =>
    rw [List.cons_append, List.cons_append, List.append_assoc, skipFrom, if_neg (by decide),
      if_pos rfl, skipFrom, if_pos rfl, skipFrom_quad hds, ih]

end Skip

/-- A literal is passed over just if it reaches up to a closing quote. -/
theorem skip_eq_ok_iff {cs rest : List Char} :
    skip cs = .ok rest ↔ ∃ body, cs = body ++ '\"' :: rest ∧ Bounded body := by
  constructor
  · exact bounded_of_skipFrom
  · rintro ⟨body, rfl, h⟩
    exact skipFrom_of_bounded h

end SpeechRelay.Json.Literal
