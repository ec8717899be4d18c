import SpeechRelay.Json.Value

/-!
# Values from layers of settings

Settings come in layers. A value in a layer remembers where it comes from, as far as messages tell;
tables that hold other values do not, unless they are elements of a list.
-/

set_option autoImplicit false

namespace SpeechRelay.Settings

/-- Where a value comes from. -/
inductive Origin where
  | file (name : String)
  | environment
  deriving DecidableEq

/-- The origin in words. -/
def Origin.describe : Origin → String
  | .file name => name
  | .environment => "the environment"

/-- A value without parts. -/
inductive Scalar where
  | nothing
  | truth (b : Bool)
  | integer (i : Int)
  | double (x : Float)
  | text (s : String)

/-- A value in a layer of settings. -/
inductive Value where
  | scalar (origin : Option Origin) (s : Scalar)
  | list (origin : Option Origin) (items : List Value)
  | table (origin : Option Origin) (entries : List (String × Value))

namespace Value

/-- A value that is not there. -/
def nothing : Value := .scalar none .nothing

/-- A table without entries. -/
def emptyTable : Value := .table none []

mutual

/-- The value that a JSON value is. An integer beyond a signed word of 64 bits is a double. -/
def ofJson (origin : Option Origin) : Json → Value
  | .null => .scalar origin .nothing
  | .truth b => .scalar origin (.truth b)
  | .number (.integer i) =>
    if i < 0x8000000000000000 then .scalar origin (.integer i)
    else .scalar origin (.double (Float.ofInt i))
  | .number (.double x) => .scalar origin (.double x)
  | .text s => .scalar origin (.text s)
  | .list items => .list origin (ofItems origin items)
  | .object members => .table origin (ofMembers origin members)

/-- The values of a list. -/
def ofItems (origin : Option Origin) : List Json → List Value
  | [] => []
  | v :: vs => ofJson origin v :: ofItems origin vs

/-- The values of an object; of several members of one name the last one counts. -/
def ofMembers (origin : Option Origin) : List (String × Json) → List (String × Value)
  | [] => []
  | m :: ms =>
    let rest := ofMembers origin ms
    if rest.any (·.1 = m.1) then rest else ofMember origin m :: rest

/-- The value of a member, with its name. -/
def ofMember (origin : Option Origin) : String × Json → String × Value
  | (name, v) => (name, ofJson origin v)

end

/-- What a key of a table holds. -/
def get? (key : String) : Value → Option Value
  | .table _ entries => (entries.find? (·.1 = key)).map Prod.snd
  | _ => none

/-- Entries in which a key holds the value. -/
def putEntry (key : String) (v : Value) : List (String × Value) → List (String × Value)
  | [] => [(key, v)]
  | e :: es => if e.1 = key then (key, v) :: es else e :: putEntry key v es

/-- The table in which a key holds the value; what is no table gives way to an empty one. -/
def put (into : Value) (key : String) (v : Value) : Value :=
  match into with
  | .table origin entries => .table origin (putEntry key v entries)
  | _ => .table none [(key, v)]

/-- The elements of a list; what is no list has none. -/
def items : Value → List Value
  | .list _ items => items
  | _ => []

/-- Where a list comes from; what is no list comes from nowhere. -/
def listOrigin : Value → Option Origin
  | .list origin _ => origin
  | _ => none

end Value

end SpeechRelay.Settings
