import SpeechRelay.Audio.Format
import SpeechRelay.Outlet
import SpeechRelay.Recognizer.Basic

/-!
# The journal

The relay writes down what an operator may want to know. An entry holds its cause; nothing that the
relay does depends on the journal.
-/

set_option autoImplicit false

namespace SpeechRelay

open Audio

/-- An entry of the journal. -/
inductive JournalEntry where
  /-- Taking whole units left that many bytes behind. -/
  | partialUnit (remainder : Nat)
  /-- Mixing left out that many bytes at the end. -/
  | trailingBytes (count : Nat)
  /-- What the utterance in progress sounds like. -/
  | hypothesis (text : String)
  /-- The recognizer failed on a frame. -/
  | frameSkipped (source : FrameSource)
  /-- The recognizer failed to say what was left at the end. -/
  | flushFailed (why : RecognizerError)
  /-- An utterance has ended. -/
  | utterance (text : String)
  /-- The outlet refused a transcript. -/
  | transcriptDropped (why : OutletError)
  | connected
  | disconnected (reason : String)
  | connectFailed
  /-- The buffer is cleared of that many bytes. -/
  | bufferCleared (bytes : Nat)
  /-- The gateway sent another event than audio. -/
  | eventIgnored (name : String)
  /-- The gateway sent a text that could not be read. -/
  | messageUnreadable (why : Json.ReadError)
  /-- That many transcripts could not be sent before the end. -/
  | undelivered (count : Nat)
  | clientStopped
  | feederStarted
  | feederStopped
  | pcmLogUnavailable
  /-- That many operations on the log of samples failed. -/
  | pcmLogIncomplete (failures : Nat)
  /-- The wanted recognizer is not built in; the null recognizer takes its place. -/
  | recognizerMissing (modelPath : String)

/-- What has been written down, the oldest first. -/
abbrev Journal := List JournalEntry

end SpeechRelay
