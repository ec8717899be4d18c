/-!
# The shortest decimal of a double

A finite double is `m · 2 ^ q`; the real numbers that round to it form an interval, which holds its
two ends exactly if `m` is even. `Shortest.find` looks for the point of that interval on the
coarsest decimal grid that has one, and of two such points takes the nearer, or the even one. Only
the two grid points beside the double itself need to be tried: if a grid has a point in the
interval, one of them is. All arithmetic is exact.
-/

set_option autoImplicit false

namespace SpeechRelay.Decimal

/-- The number `digits · 10 ^ exponent`. -/
structure Digits where
  digits : Nat
  exponent : Int
  deriving DecidableEq

/-- The same number, with as few digits as possible. -/
def Digits.normalise (d : Digits) : Digits :=
  if h : d.digits ≠ 0 ∧ d.digits % 10 = 0 then
    Digits.normalise ⟨d.digits / 10, d.exponent + 1⟩
  else d
termination_by d.digits
decreasing_by
  omega

/-- The magnitude `mantissa · 2 ^ exponent` of a finite double. -/
structure Magnitude where
  mantissa : Nat
  exponent : Int
  /-- Whether the next smaller double is only half as far away as the next larger one. -/
  narrowBelow : Bool

/-- The magnitude that 64 bits stand for, the sign left aside. -/
def Magnitude.ofBits (bits : UInt64) : Magnitude :=
  let n : Nat := bits.toNat % 0x8000000000000000
  let field : Nat := n / 0x10000000000000
  let fraction : Nat := n % 0x10000000000000
  if field = 0 then ⟨fraction, -1074, false⟩
  else ⟨fraction + 0x10000000000000, Int.ofNat field - 1075, fraction = 0 && 1 < field⟩

/-- The reals that round to a double: from `low` to `high` around `mid`, all over `unit`. -/
structure Interval where
  low : Nat
  mid : Nat
  high : Nat
  unit : Nat
  closed : Bool

/-- The reals that round to the magnitude. -/
def Magnitude.interval (x : Magnitude) : Interval :=
  let up := Nat.pow 2 (x.exponent - 2).toNat
  let quarter := 4 * x.mantissa
  { low := (quarter - if x.narrowBelow then 1 else 2) * up
    mid := quarter * up
    high := (quarter + 2) * up
    unit := Nat.pow 2 (2 - x.exponent).toNat
    closed := x.mantissa % 2 = 0 }

namespace Interval

/-- The last point of the grid `10 ^ p` that does not lie beyond the middle. -/
def gridPoint (i : Interval) (p : Int) : Nat :=
  i.mid * Nat.pow 10 (-p).toNat / (i.unit * Nat.pow 10 p.toNat)

/-- Whether `d · 10 ^ p` rounds to the double. -/
def holds (i : Interval) (d : Nat) (p : Int) : Bool :=
  let x := d * Nat.pow 10 p.toNat * i.unit
  let scale := Nat.pow 10 (-p).toNat
  if i.closed then i.low * scale ≤ x && x ≤ i.high * scale
  else i.low * scale < x && x < i.high * scale

/-- How far `d · 10 ^ p` is from the middle, in units that depend on `p` alone. -/
def distance (i : Interval) (d : Nat) (p : Int) : Nat :=
  let x := d * Nat.pow 10 p.toNat * i.unit
  let m := i.mid * Nat.pow 10 (-p).toNat
  (x - m) + (m - x)

/-- The point of the grid `10 ^ p` to write, if the interval holds one. -/
def onGrid (i : Interval) (p : Int) : Option Digits :=
  let d := i.gridPoint p
  match i.holds d p, i.holds (d + 1) p with
  | true, true =>
    let near := i.distance d p
    let far := i.distance (d + 1) p
    some ⟨if far < near ∨ far = near ∧ d % 2 = 1 then d + 1 else d, p⟩
  | true, false => some ⟨d, p⟩
  | false, true => some ⟨d + 1, p⟩
  | false, false => none

/-- The exponent of the first digit of the middle. -/
def leading (i : Interval) : Int :=
  ((Nat.toDigits 10 (i.mid * Nat.pow 10 400 / i.unit)).length : Int) - 401

end Interval

/-- The decimal with the fewest digits that rounds to the double. -/
def Magnitude.shortest (x : Magnitude) : Digits :=
  if x.mantissa = 0 then ⟨0, 0⟩
  else
    let i := x.interval
    let first := i.leading
    match (List.range 18).findSome? fun (k : Nat) => i.onGrid (first - k) with
    | some d => d.normalise
    | none => ⟨0, 0⟩

end SpeechRelay.Decimal
