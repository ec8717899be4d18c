import SpeechRelay.Json.Value
import SpeechRelay.Text.Hex

/-!
# Words of TOML

Truth values and numbers are written as words without quotes. A number may have a single underscore
between two of its digits. An integer must fit a signed word of 64 bits, and a double must not be
beyond the largest one.
-/

set_option autoImplicit false

namespace SpeechRelay.Toml

/-- Whether a word may hold the character. -/
def isWordChar (c : Char) : Bool :=
  c.isAlphanum || c = '_' || c = '+' || c = '-' || c = '.'

/-- The digits of a run in which single underscores stand between digits; `value?` says which
characters are digits, and `start` that a digit has to come next. -/
def digitRun (value? : Char → Option Nat) (start : Bool) : List Char → Option (List Nat)
  | [] => if start then none else some []
  | '_' :: cs => if start then none else digitRun value? true cs
  | c :: cs =>
    match value? c with
    | none => none
    | some d => (digitRun value? false cs).map (d :: ·)

/-- The value of a decimal digit. -/
def decimalDigit? (c : Char) : Option Nat := if c.isDigit then some (c.toNat - 0x30) else none

/-- The value of a digit below a base of at most 16. -/
def digitBelow? (base : Nat) (c : Char) : Option Nat :=
  (Text.hexDigit? c).filter (· < base)

/-- The number with those digits. -/
def ofDigits (base : Nat) (ds : List Nat) : Nat := ds.foldl (fun n d => n * base + d) 0

/-- The integer, if a signed word of 64 bits holds it. -/
def integer? (i : Int) : Option Json :=
  if -0x8000000000000000 ≤ i ∧ i < 0x8000000000000000 then some (.number (.integer i)) else none

/-- The digits of a whole number, which does not start with a zero unless it is one. -/
def wholeDigits? (cs : List Char) : Option (List Nat) :=
  match digitRun decimalDigit? true cs with
  | some (0 :: _ :: _) => none
  | ds => ds

/-- The sign in front, true for minus, and what follows. -/
def splitSign : List Char → Bool × List Char
  | '+' :: cs => (false, cs)
  | '-' :: cs => (true, cs)
  | cs => (false, cs)

/-- The exponent of a number. -/
def exponent? (cs : List Char) : Option Int :=
  let (minus, cs) := splitSign cs
  (digitRun decimalDigit? true cs).map fun ds =>
    if minus then -(ofDigits 10 ds : Int) else ofDigits 10 ds

/-- The double next to `n · 10 ^ e`. Beyond the range of doubles the exponent itself is not needed. -/
def nearest (n : Nat) (e : Int) : Float :=
  let size : Int := (Nat.toDigits 10 n).length + e
  if n = 0 ∨ size < -400 then 0
  else if 400 < size then 1 / 0
  else if 0 ≤ e then Float.ofScientific n false e.toNat
  else Float.ofScientific n true (-e).toNat

/-- The double with that whole part, fraction and exponent, unless it is beyond the largest. -/
def double? (minus : Bool) (whole fraction : List Nat) (e : Int) : Option Json :=
  let x := nearest (ofDigits 10 (whole ++ fraction)) (e - fraction.length)
  if x.isInf ∧ !minus then none else some (Json.ofFloat (if minus then -x else x))

/-- Whether an exponent starts with the character. -/
def isExponentMark (c : Char) : Bool := c = 'e' || c = 'E'

/-- A double behind its sign. -/
def unsignedDouble? (minus : Bool) (cs : List Char) : Option Json :=
  let mantissa := cs.takeWhile (!isExponentMark ·)
  let e := match cs.dropWhile (!isExponentMark ·) with
    | [] => some 0
    | _ :: es => exponent? es
  match mantissa.dropWhile (· ≠ '.') with
  | [] =>
    match wholeDigits? mantissa, e with
    | some whole, some e => double? minus whole [] e
    | _, _ => none
  | _ :: fs =>
    match wholeDigits? (mantissa.takeWhile (· ≠ '.')), digitRun decimalDigit? true fs, e with
    | some whole, some fraction, some e => double? minus whole fraction e
    | _, _, _ => none

/-- A number in the base that its first two characters name. -/
def based? (base : Nat) (cs : List Char) : Option Json :=
  (digitRun (digitBelow? base) true cs).bind fun ds => integer? (ofDigits base ds)

/-- The number that a word is. -/
def number? (cs : List Char) : Option Json :=
  match cs with
  | '0' :: 'x' :: ds => based? 16 ds
  | '0' :: 'o' :: ds => based? 8 ds
  | '0' :: 'b' :: ds => based? 2 ds
  | cs =>
    let (minus, body) := splitSign cs
    match wholeDigits? body with
    | some ds => integer? (if minus then -(ofDigits 10 ds : Int) else ofDigits 10 ds)
    | none => unsignedDouble? minus body

/-- The value that a word is. -/
def word? (cs : List Char) : Option Json :=
  match String.ofList cs with
  | "true" => some (.truth true)
  | "false" => some (.truth false)
  | "inf" | "+inf" => some (Json.ofFloat (1 / 0))
  | "-inf" => some (Json.ofFloat (-1 / 0))
  | "nan" | "+nan" | "-nan" => some (Json.ofFloat (0 / 0))
  | _ => number? cs

end SpeechRelay.Toml
