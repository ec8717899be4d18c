import SpeechRelay.Json.Reader

/-!
# Passing over a value

`Json.skip` passes over one value at the front of a list of tokens without making anything of it.
It is more lenient than `Json.read`: containers may be open to any depth, a number need not have a
value, and a string need not have a text. Behind a comma it knows only what may follow, and so
words some problems differently.
-/

set_option autoImplicit false

namespace SpeechRelay.Json

/-- The two kinds of containers. -/
inductive Bracket where
  | list
  | object
  deriving DecidableEq

/-- What one who passes over a value waits for. -/
inductive Passing where
  /-- A value; right behind an opening bracket, if `first`, or the end of the list. -/
  | value (first : Bool)
  /-- The end of the innermost container or a comma. -/
  | ending
  /-- The name of a member; right behind an opening brace, if `first`, or the end of the object. -/
  | name (first : Bool)
  | colon

/-- What a token is where a value is passed over. -/
inductive Entry where
  | whole
  | open (b : Bracket)
  | close

/-- What the token is where a value is passed over. -/
def Token.entry (first : Bool) : Token → Except ReadError Entry
  | .null | .truth _ | .number _ | .text _ => .ok .whole
  | .openList => .ok (.open .list)
  | .openObject => .ok (.open .object)
  | .closeList => if first then .ok .close else .error .expectedValue
  | .brokenWord e => .error e
  | .brokenNumber _ => .error .invalidNumber
  | .brokenText _ e => .error e
  | .closeObject | .comma | .colon | .stray _ => .error .expectedValue

/-- What follows behind an opening bracket. -/
def Bracket.start : Bracket → Passing
  | .list => .value true
  | .object => .name true

/-- The tokens behind the value at the front; `stack` holds the containers still open. -/
def skip : Passing → List Bracket → List Token → Except ReadError (List Token)
  | .ending, [], ts => .ok ts
  | .value first, _, [] => .error (.ended (if first then .list else .value))
  | .ending, .list :: _, [] => .error (.ended .list)
  | .ending, .object :: _, [] => .error (.ended .object)
  | .name _, _, [] => .error (.ended .object)
  | .colon, _, [] => .error (.ended .object)
  | .value first, stack, t :: ts =>
    match t.entry first with
    | .error e => .error e
    | .ok .whole => skip .ending stack ts
    | .ok (.open b) => skip b.start (b :: stack) ts
    | .ok .close => skip .ending stack.tail ts
  | .ending, .list :: stack, t :: ts =>
    match t with
    | .comma => skip (.value false) (.list :: stack) ts
    | .closeList => skip .ending stack ts
    | _ => .error .expectedListEnd
  | .ending, .object :: stack, t :: ts =>
    match t with
    | .comma => skip (.name false) (.object :: stack) ts
    | .closeObject => skip .ending stack ts
    | _ => .error .expectedObjectEnd
  | .name first, stack, t :: ts =>
    match t with
    | .text _ => skip .colon stack ts
    | .brokenText _ e => .error e
    | .closeObject => if first then skip .ending stack.tail ts else .error .keyNotText
    | _ => .error .keyNotText
  | .colon, stack, t :: ts =>
    match t with
    | .colon => skip (.value false) stack ts
    | _ => .error .expectedColon

/-- Passing over a value uses up tokens and adds none. -/
theorem length_skip {w : Passing} {stack : List Bracket} {ts rest : List Token}
    (h : skip w stack ts = .ok rest) : rest.length ≤ ts.length := by
  -- A step ends, fails, or goes on with the tokens behind the first.
  fun_induction skip w stack ts <;> grind

end SpeechRelay.Json
