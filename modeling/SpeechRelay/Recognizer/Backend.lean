import SpeechRelay.Journal
import SpeechRelay.Json.Writer

/-!
# Backends

A recognizer is chosen by the name of its backend. The null recognizer hears everything and never
ends an utterance. It also stands in for the backend that is known but not built in.
-/

set_option autoImplicit false

namespace SpeechRelay.Recognizer

/-- An answer with one empty text. -/
def emptyAnswer (field : String) : String := (Json.object [(field, .text "")]).render

/-- The recognizer that hears samples and says nothing. -/
def null : Recognizer Unit where
  name := "null"
  accept _ _ := (.ok false, ())
  result _ := (.ok (emptyAnswer "text"), ())
  partialResult _ := (.ok (emptyAnswer "partial"), ())
  finalResult _ := (.ok (emptyAnswer "text"), ())

/-- The recognizer of a backend, and what is noted about the choice. -/
def build (backend modelPath : String) : Except RecognizerError (Recognizer Unit × Journal) :=
  if backend = "null" then .ok (null, [])
  else if backend = "vosk" then .ok (null, [.recognizerMissing modelPath])
  else .error (.load ("unknown recognizer backend '" ++ backend ++ "'"))

end SpeechRelay.Recognizer
