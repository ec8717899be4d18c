import SpeechRelay.Json.Value

/-!
# Numerals of JSON

`Numeral.scan` reads the longest numeral at the start of a text, the sign left to the caller.
`Numeral.value` says which number it is: an integer without point and exponent keeps its exact
value if a word holds it, and everything else becomes a double. A double is made from the digits
that fit a word and a power of ten, in one rounding each; a numeral beyond the largest double has
no value.
-/

set_option autoImplicit false

namespace SpeechRelay.Json

/-- A numeral as it is written. -/
structure Numeral where
  negative : Bool
  /-- The digits before the point. -/
  whole : List Char
  /-- The digits behind the point, none if there is no point. -/
  fraction : List Char
  /-- The sign (true for minus) and the digits of the exponent. -/
  exponent : Option (Bool × List Char)

namespace Numeral

/-- A digit is wanted and something else is there. -/
def noDigit (cs : List Char) : ReadError :=
  if cs.isEmpty then .ended .value else .invalidNumber

/-- The sign of an exponent, true for minus, and what follows it. -/
def exponentSign : List Char → Bool × List Char
  | '+' :: cs => (false, cs)
  | '-' :: cs => (true, cs)
  | cs => (false, cs)

/-- The exponent, if there is one. -/
def scanExponent (n : Numeral) (cs : List Char) : Except ReadError (Numeral × List Char) :=
  match cs with
  | [] => .ok (n, [])
  | c :: rest =>
    if c = 'e' ∨ c = 'E' then
      let sign := exponentSign rest
      match sign.2.takeWhile Char.isDigit with
      | [] => .error (noDigit sign.2)
      | es => .ok ({ n with exponent := some (sign.1, es) }, sign.2.dropWhile Char.isDigit)
    else .ok (n, c :: rest)

/-- The point with its digits, if there is one, and what follows. -/
def scanFraction (n : Numeral) (cs : List Char) : Except ReadError (Numeral × List Char) :=
  match cs with
  | '.' :: ds =>
    match ds.takeWhile Char.isDigit with
    | [] => .error (noDigit ds)
    | fs => scanExponent { n with fraction := fs } (ds.dropWhile Char.isDigit)
  | cs => scanExponent n cs

/-- Whether the text starts with a digit. -/
def startsWithDigit : List Char → Bool
  | [] => false
  | c :: _ => c.isDigit

/-- The numeral at the start of the text, a sign before it already read. A zero before the point
stands alone. -/
def scan (negative : Bool) (cs : List Char) : Except ReadError (Numeral × List Char) :=
  match cs with
  | [] => .error (.ended .value)
  | c :: rest =>
    if c = '0' then
      if startsWithDigit rest then .error .invalidNumber
      else scanFraction ⟨negative, ['0'], [], none⟩ rest
    else if c.isDigit then
      scanFraction ⟨negative, c :: rest.takeWhile Char.isDigit, [], none⟩
        (rest.dropWhile Char.isDigit)
    else .error .invalidNumber

/-! ## The value of a numeral -/

/-- The value of a decimal digit. -/
def digit (c : Char) : Nat := c.toNat - '0'.toNat

/-- Digits are taken up while the number fits an unsigned word of 64 bits; the second component
counts the digits from the first on that does not fit. -/
def absorb (significand : Nat) : List Char → Nat × Nat
  | [] => (significand, 0)
  | d :: ds =>
    if significand * 10 + digit d < 0x10000000000000000 then absorb (significand * 10 + digit d) ds
    else (significand, ds.length + 1)

/-- The exponent of a numeral, if a signed word of 32 bits holds it. -/
def exponentValue (ds : List Char) : Option Nat :=
  let e := ds.foldl (fun e d => e * 10 + digit d) 0
  if e < 0x80000000 then some e else none

/-- The double next to a power of ten. -/
def power (k : Nat) : Float := Float.ofScientific 1 false k

/-- `x · 10 ^ e`, rounded once for every power of ten used; no value beyond the largest double. -/
def scaled (x : Float) (e : Int) : Option Float :=
  if 308 < e then (if x == 0 then some x else none)
  else if 0 ≤ e then
    let y := x * power e.toNat
    if y.isInf then none else some y
  else if -308 ≤ e then some (x / power (-e).toNat)
  else if x == 0 then some x
  else scaled (x / power 308) (e + 308)
termination_by (-e).toNat
decreasing_by omega

/-- The double with that sign. -/
def signed (negative : Bool) (x : Float) : Float := if negative then -x else x

/-- `significand · 10 ^ e` with the sign of the numeral. -/
def toDouble (negative : Bool) (significand : Nat) (e : Int) : Except ReadError Number :=
  match scaled (Float.ofNat significand) e with
  | some x => .ok (.double (signed negative x))
  | none => .error .numberOutOfRange

/-- The number that a numeral stands for. -/
def value (n : Numeral) : Except ReadError Number :=
  let (leading, unread) := absorb 0 n.whole
  let (significand, dropped) := absorb leading n.fraction
  let point : Int := unread - (n.fraction.length - dropped : Nat)
  match n.exponent with
  | some (minus, ds) =>
    match exponentValue ds with
    | some e => toDouble n.negative significand (if minus then point - e else point + e)
    | none =>
      if significand ≠ 0 ∧ !minus then .error .numberOutOfRange
      else .ok (.double (signed n.negative 0))
  | none =>
    if n.fraction ≠ [] ∨ unread ≠ 0 then toDouble n.negative significand point
    else if !n.negative then .ok (.integer significand)
    else if significand = 0 ∨ 0x8000000000000000 < significand then
      .ok (.double (signed true (Float.ofNat significand)))
    else .ok (.integer (-significand))

/-! ## Lengths -/

/-- Dropping characters does not make a text longer. -/
theorem length_dropWhile_le (p : Char → Bool) (cs : List Char) :
    (cs.dropWhile p).length ≤ cs.length :=
  (List.dropWhile_sublist p).length_le

/-- The sign of an exponent does not make what is left longer. -/
theorem length_exponentSign (cs : List Char) : (exponentSign cs).2.length ≤ cs.length := by
  unfold exponentSign
  split <;> simp

/-- Behind an exponent no more is left than there was in front of it. -/
theorem length_scanExponent {n m : Numeral} {cs rest : List Char}
    (h : scanExponent n cs = .ok (m, rest)) : rest.length ≤ cs.length := by
  unfold scanExponent at h
  split at h
  · simp_all
  · next c tail =>
    split at h
    · simp only at h
      split at h
      · simp at h
      · simp only [Except.ok.injEq, Prod.mk.injEq] at h
        have h1 := length_dropWhile_le Char.isDigit (exponentSign tail).2
        have h2 := length_exponentSign tail
        simp only [← h.2, List.length_cons]
        omega
    · simp_all

/-- Behind a fraction no more is left than there was in front of it. -/
theorem length_scanFraction {n m : Numeral} {cs rest : List Char}
    (h : scanFraction n cs = .ok (m, rest)) : rest.length ≤ cs.length := by
  unfold scanFraction at h
  split at h
  · next ds =>
    split at h
    · simp at h
    · have h1 := length_scanExponent h
      have h2 := length_dropWhile_le Char.isDigit ds
      simp only [List.length_cons]
      omega
  · exact length_scanExponent h

/-- A numeral that was read leaves a shorter text. -/
theorem length_scan {negative : Bool} {m : Numeral} {cs rest : List Char}
    (h : scan negative cs = .ok (m, rest)) : rest.length < cs.length := by
  unfold scan at h
  split at h
  · simp at h
  · next c tail =>
    split at h
    · split at h
      · simp at h
      · have := length_scanFraction h
        simp only [List.length_cons]
        omega
    · split at h
      · have h1 := length_scanFraction h
        have h2 := length_dropWhile_le Char.isDigit tail
        simp only [List.length_cons]
        omega
      · simp at h

end Numeral

end SpeechRelay.Json
