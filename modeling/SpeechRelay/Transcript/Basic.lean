import SpeechRelay.Calendar.Instant
import SpeechRelay.Json.Writer
import SpeechRelay.Transcript.Uuid

/-!
# Transcripts

A transcript is a finalized utterance. It has two written forms: on its own, and as the frame that
is sent to the gateway, which names the event and leaves out the time since the one before.
-/

set_option autoImplicit false

namespace SpeechRelay

open Calendar

/-- A moment at which a transcript may be made: the identifier drawn for it, the time of day, and
the time since the transcript before, or since the start. -/
structure Moment where
  id : Uuid
  now : Instant
  sinceLast : Span

/-- A finalized utterance. -/
structure Transcript where
  id : Uuid
  text : String
  timestamp : Instant
  sinceLastMs : UInt64
  deriving DecidableEq

namespace Transcript

/-- The transcript of a text, made at a moment. The milliseconds since the one before are kept in a
word. -/
def make (text : String) (m : Moment) : Transcript :=
  ⟨m.id, text, m.now, UInt64.ofNat m.sinceLast.milliseconds⟩

/-- The members that both written forms have. -/
def members (t : Transcript) : List (String × Json) :=
  [("id", .text t.id.render), ("text", .text t.text),
    ("timestamp", .text (t.timestamp.render .letter))]

/-- The transcript on its own. -/
def toJson (t : Transcript) : Json :=
  .object (t.members ++ [("since_last_ms", Json.ofNat t.sinceLastMs.toNat)])

/-- The transcript as the data of an event. -/
def envelope (event : String) (t : Transcript) : Json :=
  .object [("event", .text event), ("data", .object t.members)]

/-- The frame that carries the transcript to the gateway. -/
def frame (event : String) (t : Transcript) : String := (t.envelope event).render

end Transcript

end SpeechRelay
