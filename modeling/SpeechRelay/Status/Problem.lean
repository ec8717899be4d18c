import SpeechRelay.Calendar.Instant
import SpeechRelay.Json.Value

/-!
# Problems of status requests

A request that cannot be answered is answered with a problem, as a code and an object.
-/

set_option autoImplicit false

namespace SpeechRelay.Status

/-- Why a request cannot be answered. -/
inductive Problem where
  | internal (text : String)
  | notFound (text : String)
  deriving DecidableEq

/-- The answer to a request: a code and an object. -/
structure Response where
  code : Nat
  body : Json

/-- The form in which all answers are written. -/
def contentType : String := "application/json"

namespace Problem

/-- The problem that an answer could not be written. -/
def ofReadError (why : Json.ReadError) : Problem :=
  .internal ("serialization failed: " ++ why.message)

/-- The problem in words. -/
def message : Problem → String
  | .internal text => "Internal error: " ++ text
  | .notFound text => "Not found: " ++ text

/-- The text that the problem was made with. -/
def text : Problem → String
  | .internal text => text
  | .notFound text => text

/-- The name of the kind of problem. -/
def kind : Problem → String
  | .internal _ => "internal_error"
  | .notFound _ => "not_found"

/-- The code of the kind of problem. -/
def code : Problem → Nat
  | .internal _ => 500
  | .notFound _ => 404

/-- The answer that tells the problem. -/
def response (now : Calendar.Instant) (p : Problem) : Response where
  code := p.code
  body := .object [("error", .object [("type", .text p.kind), ("message", .text p.text),
    ("timestamp", .text (now.render .offset))])]

end Problem

end SpeechRelay.Status
