import SpeechRelay.Decimal.Shortest

/-!
# Writing a double

A double is written with its shortest digits. A `Layout` fixes what else there is to choose: which
numbers are written without an exponent, and whether a whole number keeps a fraction.
-/

set_option autoImplicit false

namespace SpeechRelay.Decimal

/-- The choices in writing a double. -/
structure Layout where
  /-- Whether a number whose first digit has this exponent is written without one. -/
  positional : Int → Bool
  /-- What follows a whole number written without an exponent. -/
  wholeEnd : List Char

/-- Messages about a JSON text: an exponent below -5 or above 15 is written out, and a whole number
has one zero behind the point. -/
def Layout.inMessage : Layout where
  positional e := -5 ≤ e && e ≤ 15
  wholeEnd := ['.', '0']

/-- A number as a plain text: never an exponent, and no point behind a whole number. -/
def Layout.plain : Layout where
  positional _ := true
  wholeEnd := []

/-- As `plain`, but with a point and a zero behind a whole number. -/
def Layout.pointed : Layout where
  positional _ := true
  wholeEnd := ['.', '0']

/-- Zeros in front, up to `width` characters. -/
def padded (width : Nat) (cs : List Char) : List Char :=
  List.replicate (width - cs.length) '0' ++ cs

namespace Digits

/-- The digits as characters. -/
def chars (d : Digits) : List Char := Nat.toDigits 10 d.digits

/-- The exponent of the first digit. -/
def leading (d : Digits) : Int := d.exponent + d.chars.length - 1

/-- The number without an exponent. -/
def positional (layout : Layout) (d : Digits) : List Char :=
  if 0 ≤ d.exponent then
    d.chars ++ List.replicate d.exponent.toNat '0' ++ layout.wholeEnd
  else
    let below := (-d.exponent).toNat
    let cs := padded (below + 1) d.chars
    cs.take (cs.length - below) ++ '.' :: cs.drop (cs.length - below)

/-- The number with an exponent. -/
def scientific (d : Digits) : List Char :=
  let e := d.leading
  (match d.chars with
    | [] => []
    | [c] => [c]
    | c :: cs => c :: '.' :: cs)
    ++ 'e' :: (if e < 0 then '-' else '+')
    :: Nat.toDigits 10 e.natAbs

/-- The number as the layout has it. -/
def write (layout : Layout) (d : Digits) : List Char :=
  if layout.positional d.leading then d.positional layout else d.scientific

end Digits

/-- A double as the layout has it. -/
def write (layout : Layout) (x : Float) : String :=
  let sign := if x.toBits ≥ 0x8000000000000000 then ['-'] else []
  if x.isNaN then "NaN"
  else if x.isInf then String.ofList (sign ++ ['i', 'n', 'f'])
  else String.ofList (sign ++ (Magnitude.ofBits x.toBits).shortest.write layout)

end SpeechRelay.Decimal
