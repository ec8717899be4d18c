import SpeechRelay.Machine
import SpeechRelay.Settings.Value
import SpeechRelay.Text.LowerCase

/-!
# Paths into settings

A key of a layer may be a path: a name, then names behind dots and places in lists between brackets.
`Path.ofText?` reads a key as a path. `Path.assign` puts a value at the end of a path: what is on the
way and has the wrong shape gives way to an empty table or list, a list grows as far as it takes, and
a table is merged into the one that is there. Names are in lower case.
-/

set_option autoImplicit false

namespace SpeechRelay.Settings

/-- A step from a value to a part of it. -/
inductive Segment where
  | name (key : String)
  /-- A place in a list; a negative one counts from its end. -/
  | place (index : Int)
  deriving DecidableEq

/-- A way to a value: a name, and the steps from there. -/
structure Path where
  head : String
  tail : List Segment
  deriving DecidableEq

namespace Path

/-! ## Reading -/

/-- Whether a name may hold the character. -/
def isNameChar (c : Char) : Bool := c.isAlphanum || c = ' ' || c = '_' || c = '-'

/-- Whether the character is a space beside a place. -/
def isSpace (c : Char) : Bool := c = ' ' || c = '\t'

/-- The place that the characters are: digits with at most a minus in front, in a signed word of 64
bits. -/
def place? (cs : List Char) : Option Int :=
  let (minus, ds) := match cs with
    | '-' :: ds => (true, ds)
    | ds => (false, ds)
  if ds.isEmpty || !ds.all Char.isDigit then none
  else
    let n : Nat := ds.foldl (fun n d => n * 10 + (d.toNat - 0x30)) 0
    if minus then (if n ≤ 0x8000000000000000 then some (-n) else none)
    else if n < 0x8000000000000000 then some n else none

/-- The steps that the characters are, of which no more than `fuel` are read. -/
def segments? : Nat → List Char → Option (List Segment)
  | 0, cs => if cs.isEmpty then some [] else none
  | fuel + 1, cs =>
    match cs with
    | [] => some []
    | '.' :: rest =>
      match rest.takeWhile isNameChar with
      | [] => none
      | name =>
        (segments? fuel (rest.dropWhile isNameChar)).map (.name (String.ofList name) :: ·)
    | '[' :: rest =>
      let rest := rest.dropWhile isSpace
      let inside := rest.takeWhile fun c => c.isDigit || c = '-'
      match place? inside, (rest.drop inside.length).dropWhile isSpace with
      | some i, ']' :: rest => (segments? fuel rest).map (.place i :: ·)
      | _, _ => none
    | _ => none

/-- The path that a key is. -/
def ofText? (key : String) : Option Path :=
  match key.toList.takeWhile isNameChar with
  | [] => none
  | name =>
    (segments? key.length (key.toList.dropWhile isNameChar)).map fun tail =>
      ⟨String.ofList name, tail⟩

/-- The path of a key; a key that is no path names itself. -/
def ofKey (key : String) : Path := (ofText? key).getD ⟨key, []⟩

end Path

/-! ## Assigning -/

mutual

/-- The table in which a key holds the value, a table being merged into what the key holds. -/
def merge (key : String) (into : Value) : Value → Value
  | .table _ entries =>
    into.put (Text.lowered key)
      (mergeEntries ((into.get? (Text.lowered key)).getD .emptyTable) entries)
  | v => into.put (Text.lowered key) v

/-- The value into which entries have been merged. -/
def mergeEntries (into : Value) : List (String × Value) → Value
  | [] => into
  | e :: es => mergeEntries (mergeEntry into e) es

/-- The value into which one entry has been merged. -/
def mergeEntry (into : Value) : String × Value → Value
  | (key, v) => merge key into v

end

/-- The number of a place in a list of that length. A negative place has to be in the list. -/
def placeNumber (length : Nat) (index : Int) : Except Halt Nat :=
  if 0 ≤ index then .ok index.toNat
  else if index.natAbs ≤ length then .ok (length - index.natAbs)
  else .error .overflow

/-- The bytes that a value takes in a list. -/
def itemBytes : Nat := 96

/-- Elements of which the one at a place is changed; the list grows as far as it takes. -/
def changeItem (items : List Value) (index : Int) (change : Value → Except Halt Value) :
    Except Halt (List Value) := do
  let n ← placeNumber items.length index
  Machine.reserve (n + 1) itemBytes
  let items := items ++ List.replicate (n + 1 - items.length) Value.nothing
  let v ← change (items.getD n Value.nothing)
  return items.set n v

/-- The value in which the part at the end of the steps is changed. -/
def changeAt (change : Value → Except Halt Value) : List Segment → Value → Except Halt Value
  | [], v => change v
  | .name key :: rest, v => do
    let part ← changeAt change rest ((v.get? (Text.lowered key)).getD Value.nothing)
    return v.put (Text.lowered key) part
  | .place index :: rest, v => do
    let items ← changeItem v.items index (changeAt change rest)
    return .list v.listOrigin items

/-- The value in which the part at one step is set to another value. -/
def assignStep (v : Value) (into : Value) : Segment → Except Halt Value
  | .name key => .ok (merge key into v)
  | .place index => (changeItem into.items index fun _ => .ok v).map (.list into.listOrigin)

/-- The table in which the value is at the end of the path. -/
def Path.assign (p : Path) (v : Value) (into : Value) : Except Halt Value :=
  let steps := Segment.name p.head :: p.tail
  changeAt (fun parent => assignStep v parent (steps.getLastD (.name p.head))) steps.dropLast into

/-- The table in which the value is where the key says. -/
def assignKey (key : String) (v : Value) (into : Value) : Except Halt Value :=
  (Path.ofKey key).assign v into

end SpeechRelay.Settings
