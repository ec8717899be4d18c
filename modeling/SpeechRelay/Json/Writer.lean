import SpeechRelay.Json.Value
import SpeechRelay.Json.Literal

/-!
# Writing a value

`Json.write` writes a value without any space: members in their order, text as `Literal.encode` has
it, integers in decimal and doubles with the fewest digits that read back.
-/

set_option autoImplicit false

namespace SpeechRelay.Json

/-- An integer in decimal. -/
def writeInteger (i : Int) : List Char :=
  if i < 0 then '-' :: Nat.toDigits 10 i.natAbs else Nat.toDigits 10 i.natAbs

/-- A number. -/
def Number.write : Number → List Char
  | .integer i => writeInteger i
  | .double x => (Decimal.write .inMessage x).toList

mutual

/-- The text of a value. -/
def write : Json → List Char
  | .null => ['n', 'u', 'l', 'l']
  | .truth true => ['t', 'r', 'u', 'e']
  | .truth false => ['f', 'a', 'l', 's', 'e']
  | .number n => n.write
  | .text s => Literal.encode s.toList
  | .list [] => ['[', ']']
  | .list (v :: vs) => '[' :: write v ++ writeItems vs
  | .object [] => ['\x7b', '\x7d']
  | .object (m :: ms) => '\x7b' :: writeMember m ++ writeMembers ms

/-- The elements behind the first, and the end of the list. -/
def writeItems : List Json → List Char
  | [] => [']']
  | v :: vs => ',' :: write v ++ writeItems vs

/-- A member: its name, a colon, and its value. -/
def writeMember : String × Json → List Char
  | (name, v) => Literal.encode name.toList ++ ':' :: write v

/-- The members behind the first, and the end of the object. -/
def writeMembers : List (String × Json) → List Char
  | [] => ['\x7d']
  | m :: ms => ',' :: writeMember m ++ writeMembers ms

end

/-- The text of a value. -/
def render (v : Json) : String := String.ofList (write v)

end SpeechRelay.Json
