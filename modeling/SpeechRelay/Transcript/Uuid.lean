import SpeechRelay.Text.Hex

/-!
# Identifiers

A transcript is told from others by 128 bits, written as 32 hexadecimal digits in five groups.
-/

set_option autoImplicit false

namespace SpeechRelay

/-- An identifier of 128 bits. -/
structure Uuid where
  bits : BitVec 128
  deriving DecidableEq

namespace Uuid

/-- The hexadecimal digit at a place, from 0 at the front to 31. -/
def digit (id : Uuid) (place : Nat) : Nat := id.bits.toNat / Nat.pow 16 (31 - place) % 16

/-- The lower-case digits from one place up to before another. -/
def group (id : Uuid) (start stop : Nat) : List Char :=
  (List.range' start (stop - start)).map fun i => Text.hexChar (id.digit i)

/-- The identifier in its one written form: groups of 8, 4, 4, 4 and 12 digits. -/
def write (id : Uuid) : List Char :=
  id.group 0 8 ++ '-' :: id.group 8 12 ++ '-' :: id.group 12 16 ++ '-' :: id.group 16 20 ++
    '-' :: id.group 20 32

/-- The identifier as a text. -/
def render (id : Uuid) : String := String.ofList id.write

/-- The identifier with those digits, of either case and with or without dashes. -/
def ofText? (s : String) : Option Uuid :=
  match (s.toList.filter (· ≠ '-')).mapM Text.hexDigit? with
  | some ds =>
    if ds.length = 32 then some ⟨BitVec.ofNat 128 (ds.foldl (fun n d => n * 16 + d) 0)⟩ else none
  | none => none

/-- The identifier that random bits make: digit 12 says that it is random, and the two highest bits
of digit 16 are fixed. -/
def ofRandom (random : BitVec 128) : Uuid :=
  let version : BitVec 128 := 0x4#128 <<< 76
  let variant : BitVec 128 := 0x2#128 <<< 62
  ⟨(random &&& ~~~((0xF#128 <<< 76) ||| (0x3#128 <<< 62))) ||| version ||| variant⟩

/-- The digit that says how the identifier was made. -/
def version (id : Uuid) : Nat := id.digit 12

end Uuid

end SpeechRelay
