import SpeechRelay.Status.Report
import SpeechRelay.Text.Hex

/-!
# Routes of the status server

Three reports can be asked for, the one on the health by two paths. Everything else is not found.
-/

set_option autoImplicit false

namespace SpeechRelay.Status

/-- What can be asked for. -/
inductive Route where
  | health
  | metrics
  | settings
  deriving DecidableEq

/-- Whether the character may stand in the name of a scheme. -/
def isSchemeChar (c : Char) : Bool := c.isAlphanum || c = '+' || c = '-' || c = '.'

/-- What follows the scheme, if there is one. -/
def afterScheme? (cs : List Char) : Option (List Char) :=
  match cs.dropWhile isSchemeChar with
  | ':' :: '/' :: '/' :: rest => some rest
  | _ => none

/-- The path of a request's target: what precedes a query or a fragment, without a scheme and the
authority behind it. An absolute target without a path has the shortest one, and an authority alone
has none. -/
def pathOf (target : String) : String :=
  match target.toList.takeWhile fun c => c ≠ '?' && c ≠ '#' with
  | '/' :: cs => String.ofList ('/' :: cs)
  | ['*'] => "*"
  | cs =>
    match afterScheme? cs with
    | none => ""
    | some rest =>
      match rest.dropWhile (· ≠ '/') with
      | [] => "/"
      | path => String.ofList path

/-- The character that an escape of two digits stands for, unless it has to stay escaped. -/
def escaped? (high low : Char) : Option Char :=
  match Text.hexDigit? high, Text.hexDigit? low with
  | some h, some l =>
    let n := h * 16 + l
    if n < 0x80 ∧ n ≠ 0x25 ∧ n ≠ 0x2B ∧ n ≠ 0x2F then some (Char.ofNat n) else none
  | _, _ => none

/-- A path with its escapes resolved. An escaped percent sign, plus or slash stays escaped, and so
does everything beyond ASCII, which no route has. -/
def resolve : List Char → List Char
  | [] => []
  | '%' :: high :: low :: cs =>
    match escaped? high low with
    | some c => c :: resolve cs
    | none => '%' :: resolve (high :: low :: cs)
  | c :: cs => c :: resolve cs

/-- The route of a request. -/
def Route.find? (method path : String) : Option Route :=
  if method ≠ "GET" then none
  else
    match String.ofList (resolve path.toList) with
    | "/health" | "/api/v1/health" => some .health
    | "/api/v1/metrics" => some .metrics
    | "/api/v1/config" => some .settings
    | _ => none

/-- The answer to a request. -/
def respond (s : Snapshot) (method target : String) : Except Halt Response :=
  let path := pathOf target
  match Route.find? method path with
  | some .health => .ok ⟨200, s.healthReport⟩
  | some .metrics => s.metricsReport.map (⟨200, ·⟩)
  | some .settings => .ok ⟨200, s.settingsReport⟩
  | none => .ok (Problem.response s.now (.notFound ("no route for " ++ method ++ " " ++ path)))

end SpeechRelay.Status
