import SpeechRelay.Json.Error

/-!
# Recognizers

A recognizer hears mono samples, decides by itself where an utterance ends, and then answers with a
JSON text. It is any state machine with four calls, each of which may fail. `Recognizer.recorded`
keeps the calls that a recognizer got beside its state.
-/

set_option autoImplicit false

namespace SpeechRelay

/-- Why a recognizer gave no usable answer. -/
inductive RecognizerError where
  /-- It could not be set up. -/
  | load (reason : String)
  /-- It failed on the samples. -/
  | decode (reason : String)
  /-- Its answer could not be read. -/
  | unreadable (problem : Json.ReadError)

/-- The wording of a failure. -/
def RecognizerError.message : RecognizerError → String
  | .load reason => "failed to load recognizer: " ++ reason
  | .decode reason => "recognizer failed to decode waveform: " ++ reason
  | .unreadable problem => "unreadable recognizer result: " ++ problem.message

/-- A recognizer, by what its calls answer and how they change its state. -/
structure Recognizer (σ : Type) where
  name : String
  /-- Hears samples; the answer says whether an utterance has just ended. -/
  accept : List Int16 → σ → Except RecognizerError Bool × σ
  /-- The utterance that has just ended. -/
  result : σ → Except RecognizerError String × σ
  /-- The utterance in progress. -/
  partialResult : σ → Except RecognizerError String × σ
  /-- What is left at the very end. -/
  finalResult : σ → Except RecognizerError String × σ

/-- A call of a recognizer. -/
inductive RecognizerCall where
  | accept (samples : List Int16)
  | result
  | partialResult
  | finalResult
  deriving DecidableEq

namespace Recognizer

variable {σ : Type}

/-- An answer beside which a call is added to those before. -/
def noting {α : Type} (call : RecognizerCall) (calls : List RecognizerCall) (answer : α × σ) :
    α × (σ × List RecognizerCall) :=
  (answer.1, (answer.2, calls ++ [call]))

/-- The recognizer that also keeps the calls it got, in order. -/
def recorded (r : Recognizer σ) : Recognizer (σ × List RecognizerCall) where
  name := r.name
  accept samples s := noting (.accept samples) s.2 (r.accept samples s.1)
  result s := noting .result s.2 (r.result s.1)
  partialResult s := noting .partialResult s.2 (r.partialResult s.1)
  finalResult s := noting .finalResult s.2 (r.finalResult s.1)

end Recognizer

end SpeechRelay
