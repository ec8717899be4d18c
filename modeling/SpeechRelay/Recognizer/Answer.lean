import SpeechRelay.Json.Record
import SpeechRelay.Recognizer.Basic
import SpeechRelay.Text.Blank

/-!
# What a recognizer says

An answer is a record with one text: `text` for an utterance that has ended, `partial` for one in
progress. Blanks around the text do not count.
-/

set_option autoImplicit false

namespace SpeechRelay.Recognizer

/-- The shape of an answer about an utterance that has ended. -/
def finalShape : Json.Shape := ⟨"FinalPayload", [⟨"text", .text⟩]⟩

/-- The shape of an answer about an utterance in progress. -/
def partialShape : Json.Shape := ⟨"PartialPayload", [⟨"partial", .text⟩]⟩

/-- The one text of a record of that shape, without the blanks around it. -/
def readText (shape : Json.Shape) (answer : String) : Except RecognizerError String :=
  match shape.ofText answer with
  | .error problem => .error (.unreadable problem)
  | .ok [.text s] => .ok (Text.trimmed s)
  | .ok _ => .error (.unreadable (.wrongLength 0 shape.describeLength))

/-- The utterance that has ended. -/
def readFinal : String → Except RecognizerError String := readText finalShape

/-- The utterance in progress. -/
def readPartial : String → Except RecognizerError String := readText partialShape

end SpeechRelay.Recognizer
