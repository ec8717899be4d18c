import SpeechRelay.Json.Token

/-!
# Reading a value

`Json.read` takes one value from the front of a list of tokens. It walks along the tokens with a
stack of the containers that are still open, so it needs no bound on the length of a text; only the
number of open containers is bounded, by `room`. `Json.ofText` reads a text that is one value and
nothing else.
-/

set_option autoImplicit false

namespace SpeechRelay.Json

/-- A container that is still open: what it holds so far, the last first, and in an object the name
of the member whose value is being read. -/
inductive Frame where
  | list (done : List Json)
  | object (done : List (String × Json)) (name : String)

/-- Where a value is wanted. -/
inductive Place where
  /-- At the start of the text or behind a colon. -/
  | alone
  /-- Behind an opening bracket, where a closing one may stand too. -/
  | first
  /-- Behind a comma in a list. -/
  | next
  deriving DecidableEq

/-- What the reader waits for. -/
inductive Awaited where
  | value (place : Place)
  /-- The end of the container on top of the stack or a comma, the value just read behind it. -/
  | ending (v : Json)
  /-- The name of a member of an object that holds `done`, or its end if nothing precedes. -/
  | name (done : List (String × Json)) (first : Bool)
  /-- The colon behind a name. -/
  | colon (done : List (String × Json)) (name : String)

/-- What a token is where a value is wanted. -/
inductive Opening where
  | whole (v : Json)
  | list
  | object
  /-- The end of a list without elements. -/
  | close

/-- What the token is where a value is wanted. -/
def Token.opening (place : Place) : Token → Except ReadError Opening
  | .null => .ok (.whole .null)
  | .truth b => .ok (.whole (.truth b))
  | .number n => n.map fun n => .whole (.number n)
  | .text s => s.map fun s => .whole (.text s)
  | .openList => .ok .list
  | .openObject => .ok .object
  | .closeList =>
    match place with
    | .first => .ok .close
    | .next => .error .trailingComma
    | .alone => .error .expectedValue
  | .brokenWord e | .brokenNumber e | .brokenText e _ => .error e
  | .closeObject | .comma | .colon | .stray _ => .error .expectedValue

/-- What is wrong with a text that ends where a value is wanted. -/
def Place.ended : Place → ReadError
  | .first => .ended .list
  | .alone | .next => .ended .value

/-- The value at the front of the tokens, and what follows it. Fewer than `room` containers may be
open at a time. -/
def read (room : Nat) : Awaited → List Frame → List Token →
    Except ReadError (Json × List Token)
  | .ending v, [], ts => .ok (v, ts)
  | .value place, _, [] => .error place.ended
  | .ending _, .list _ :: _, [] => .error (.ended .list)
  | .ending _, .object _ _ :: _, [] => .error (.ended .object)
  | .name _ first, _, [] => .error (.ended (if first then .object else .value))
  | .colon _ _, _, [] => .error (.ended .object)
  | .value place, stack, t :: ts =>
    match t.opening place with
    | .error e => .error e
    | .ok (.whole v) => read room (.ending v) stack ts
    | .ok .list =>
      if stack.length + 1 < room then read room (.value .first) (.list [] :: stack) ts
      else .error .tooDeep
    | .ok .object =>
      if stack.length + 1 < room then read room (.name [] true) stack ts
      else .error .tooDeep
    | .ok .close =>
      match stack with
      | .list done :: stack => read room (.ending (.list done.reverse)) stack ts
      | _ => .error .expectedValue
  | .ending v, .list done :: stack, t :: ts =>
    match t with
    | .comma => read room (.value .next) (.list (v :: done) :: stack) ts
    | .closeList => read room (.ending (.list (v :: done).reverse)) stack ts
    | _ => .error .expectedListEnd
  | .ending v, .object done name :: stack, t :: ts =>
    match t with
    | .comma => read room (.name ((name, v) :: done) false) stack ts
    | .closeObject => read room (.ending (.object ((name, v) :: done).reverse)) stack ts
    | _ => .error .expectedObjectEnd
  | .name done first, stack, t :: ts =>
    match t with
    | .text (.ok name) => read room (.colon done name) stack ts
    | .text (.error e) | .brokenText e _ => .error e
    | .closeObject =>
      if first then read room (.ending (.object done.reverse)) stack ts
      else .error .trailingComma
    | _ => .error .keyNotText
  | .colon done name, stack, t :: ts =>
    match t with
    | .colon => read room (.value .alone) (.object done name :: stack) ts
    | _ => .error .expectedColon

/-- How many containers may be open at a time, less one. -/
def depthLimit : Nat := 128

/-- The value that follows, if nothing else does. -/
def alone {α : Type} : α × List Token → Except ReadError α
  | (a, []) => .ok a
  | (_, _ :: _) => .error .trailingCharacters

/-- The value that the text is. -/
def ofText (s : String) : Except ReadError Json :=
  (read depthLimit (.value .alone) [] (tokens s.toList)).bind alone

/-- Reading a value uses up tokens and adds none. -/
theorem length_read {room : Nat} {w : Awaited} {stack : List Frame} {ts rest : List Token}
    {v : Json} (h : read room w stack ts = .ok (v, rest)) : rest.length ≤ ts.length := by
  -- A step ends, fails, or goes on with the tokens behind the first.
  fun_induction read room w stack ts <;> grind

end SpeechRelay.Json
