import SpeechRelay.Json.Error

/-!
# JSON values

A JSON value keeps the order of an object's members and every repetition of a name; looking a name
up finds its last member. An integer between -2 ^ 63 and 2 ^ 64 is a number of its own kind, and
every other number is a double.
-/

set_option autoImplicit false

namespace SpeechRelay

namespace Json

/-- A number: an integer that a word holds, or a double. -/
inductive Number where
  | integer (i : Int)
  | double (x : Float)

end Json

/-- A JSON value. -/
inductive Json where
  | null
  | truth (b : Bool)
  | number (n : Json.Number)
  | text (s : String)
  | list (items : List Json)
  | object (members : List (String × Json))

namespace Json

/-- A natural number as a value. -/
def ofNat (n : Nat) : Json := .number (.integer n)

/-- A double as a value. -/
def ofFloat (x : Float) : Json := .number (.double x)

/-- A text or nothing. -/
def ofText? : Option String → Json
  | some s => .text s
  | none => .null

/-- The last member of that name. -/
def member? (name : String) (members : List (String × Json)) : Option Json :=
  members.foldl (fun found m => if m.1 = name then some m.2 else found) none

/-- What a value shows where another shape is wanted. -/
def Number.found : Number → Found
  | .integer i => .integer i
  | .double x => .double x

/-- Of two members with one name the later one counts. -/
theorem member?_append_singleton (name key : String) (v : Json) (ms : List (String × Json)) :
    member? name (ms ++ [(key, v)]) = if key = name then some v else member? name ms := by
  simp [member?, List.foldl_append]

end Json

end SpeechRelay
