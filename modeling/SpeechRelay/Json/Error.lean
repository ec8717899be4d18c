import SpeechRelay.Text.Quoted
import SpeechRelay.Decimal.Layout

/-!
# What can be wrong with a JSON text

A text is read in one pass from left to right, and the first problem met is the one reported.
`ReadError` lists the problems, `ReadError.kind` sorts them into three kinds, and
`ReadError.message` has the wording of each.
-/

set_option autoImplicit false

namespace SpeechRelay.Json

/-- What the reader is in the middle of when the text ends. -/
inductive Inside where
  | value
  | text
  | list
  | object
  deriving DecidableEq

/-- What a text shows where a value of another shape is wanted. -/
inductive Found where
  | null
  | truth (b : Bool)
  | integer (i : Int)
  | double (x : Float)
  | text (s : String)
  | list
  | object

/-- A problem with a JSON text. -/
inductive ReadError where
  /-- The text ends too early. -/
  | ended (inside : Inside)
  | expectedValue
  | expectedWord
  | invalidNumber
  | numberOutOfRange
  | expectedColon
  | expectedListEnd
  | expectedObjectEnd
  | keyNotText
  | trailingComma
  | trailingCharacters
  | invalidEscape
  | controlCharacter
  /-- The first half of a surrogate pair without a second escape behind it. -/
  | unfinishedPair
  /-- One half of a surrogate pair without the other. -/
  | loneSurrogate
  | tooDeep
  /-- A value of another shape than the one wanted. -/
  | wrongType (found : Found) (wanted : String)
  /-- A record written as a list with too few elements. -/
  | wrongLength (length : Nat) (wanted : String)
  | duplicateField (name : String)
  | missingField (name : String)
  /-- A value that fits none of the shapes of the named choice. -/
  | noVariant (choice : String)

/-- The three kinds of problems. -/
inductive ErrorKind where
  /-- The text is not JSON. -/
  | form
  /-- The text ends too early to be JSON. -/
  | ended
  /-- The text is JSON so far, but not of the wanted shape. -/
  | shape
  deriving DecidableEq

/-- The kind of a problem. -/
def ReadError.kind : ReadError → ErrorKind
  | .ended _ => .ended
  | .wrongType .. | .wrongLength .. | .duplicateField _ | .missingField _ | .noVariant _ => .shape
  | _ => .form

/-- What the text is in the middle of, in words. -/
def Inside.name : Inside → String
  | .value => "a value"
  | .text => "a string"
  | .list => "a list"
  | .object => "an object"

/-- What was found, in words. -/
def Found.describe : Found → String
  | .null => "null"
  | .truth b => "boolean `" ++ (if b then "true" else "false") ++ "`"
  | .integer i => "integer `" ++ toString i ++ "`"
  | .double x => "floating point `" ++ Decimal.write .inMessage x ++ "`"
  | .text s => "string " ++ Text.quoted s
  | .list => "sequence"
  | .object => "map"

/-- The wording of a problem, without its place in the text. -/
def ReadError.message : ReadError → String
  | .ended inside => "EOF while parsing " ++ inside.name
  | .expectedValue => "expected value"
  | .expectedWord => "expected ident"
  | .invalidNumber => "invalid number"
  | .numberOutOfRange => "number out of range"
  | .expectedColon => "expected `:`"
  | .expectedListEnd => "expected `,` or `]`"
  | .expectedObjectEnd => "expected `,` or `\x7d`"
  | .keyNotText => "key must be a string"
  | .trailingComma => "trailing comma"
  | .trailingCharacters => "trailing characters"
  | .invalidEscape => "invalid escape"
  | .controlCharacter => "control character (\\u0000-\\u001F) found while parsing a string"
  | .unfinishedPair => "unexpected end of hex escape"
  | .loneSurrogate => "lone leading surrogate in hex escape"
  | .tooDeep => "recursion limit exceeded"
  | .wrongType found wanted => "invalid type: " ++ found.describe ++ ", expected " ++ wanted
  | .wrongLength length wanted =>
    "invalid length " ++ toString length ++ ", expected " ++ wanted
  | .duplicateField name => "duplicate field `" ++ name ++ "`"
  | .missingField name => "missing field `" ++ name ++ "`"
  | .noVariant choice => "data did not match any variant of untagged enum " ++ choice

end SpeechRelay.Json
