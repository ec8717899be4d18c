import SpeechRelay.Audio.Format
import SpeechRelay.Calendar.Instant

/-!
# Counters

What the relay has done since it started. Every counter is a word: adding to it halts where the sum
would not fit.
-/

set_option autoImplicit false

namespace SpeechRelay

open Audio

/-- The link to the gateway, as last reported. -/
inductive Connection where
  | connecting
  | connected
  | disconnected
  deriving DecidableEq

/-- The link in a word. -/
def Connection.name : Connection → String
  | .connecting => "connecting"
  | .connected => "connected"
  | .disconnected => "disconnected"

/-- What has happened so far. -/
structure Counters where
  bytesIngested : Nat
  chunksIngested : Nat
  framesBuffered : Nat
  framesSilence : Nat
  samplesFed : Nat
  remainderEvents : Nat
  transcriptsEmitted : Nat
  recognizerFaults : Nat
  sinkFailures : Nat
  connection : Connection
  connects : Nat
  disconnects : Nat
  connectErrors : Nat
  lastTranscriptAt : Option Calendar.Instant
  deriving DecidableEq

/-- A happening that is counted. -/
inductive Happening where
  /-- A chunk of that many bytes has come in. -/
  | ingested (bytes : Nat)
  /-- A frame has been made, and that many bytes were left behind. -/
  | fed (source : FrameSource) (samples remainder : Nat)
  /-- The outlet has accepted a transcript made at that time. -/
  | transcribed (timestamp : Calendar.Instant)
  | recognizerFailed
  | outletRefused
  /-- The link has changed. -/
  | linked (connection : Connection)
  /-- An attempt to connect has failed. -/
  | connectFailed
  deriving DecidableEq

namespace Counters

/-- Nothing has happened, and the relay is connecting for the first time. -/
def zero : Counters where
  bytesIngested := 0
  chunksIngested := 0
  framesBuffered := 0
  framesSilence := 0
  samplesFed := 0
  remainderEvents := 0
  transcriptsEmitted := 0
  recognizerFaults := 0
  sinkFailures := 0
  connection := .connecting
  connects := 0
  disconnects := 0
  connectErrors := 0
  lastTranscriptAt := none

/-- A chunk of that many bytes more. -/
def ingest (c : Counters) (bytes : Nat) : Except Halt Counters := do
  let total ← Machine.word (c.bytesIngested + bytes)
  let chunks ← Machine.word (c.chunksIngested + 1)
  return { c with bytesIngested := total, chunksIngested := chunks }

/-- A frame more. -/
def feed (c : Counters) (source : FrameSource) (samples remainder : Nat) :
    Except Halt Counters := do
  let buffered ←
    match source with
    | .buffered => Machine.word (c.framesBuffered + 1)
    | .silence => pure c.framesBuffered
  let silence ←
    match source with
    | .buffered => pure c.framesSilence
    | .silence => Machine.word (c.framesSilence + 1)
  let fed ← Machine.word (c.samplesFed + samples)
  let left ← if remainder = 0 then pure c.remainderEvents else Machine.word (c.remainderEvents + 1)
  return { c with
    framesBuffered := buffered, framesSilence := silence, samplesFed := fed
    remainderEvents := left }

/-- The link has changed. -/
def link (c : Counters) (connection : Connection) : Except Halt Counters := do
  let connects ←
    match connection with
    | .connected => Machine.word (c.connects + 1)
    | _ => pure c.connects
  let disconnects ←
    match connection with
    | .disconnected => Machine.word (c.disconnects + 1)
    | _ => pure c.disconnects
  return { c with connection, connects, disconnects }

/-- The counters after a happening. -/
def record (c : Counters) : Happening → Except Halt Counters
  | .ingested bytes => c.ingest bytes
  | .fed source samples remainder => c.feed source samples remainder
  | .transcribed timestamp => do
    let emitted ← Machine.word (c.transcriptsEmitted + 1)
    return { c with transcriptsEmitted := emitted, lastTranscriptAt := some timestamp }
  | .recognizerFailed => do
    let faults ← Machine.word (c.recognizerFaults + 1)
    return { c with recognizerFaults := faults }
  | .outletRefused => do
    let failures ← Machine.word (c.sinkFailures + 1)
    return { c with sinkFailures := failures }
  | .linked connection => c.link connection
  | .connectFailed => do
    let errors ← Machine.word (c.connectErrors + 1)
    return { c with connection := .disconnected, connectErrors := errors }

/-- A word as a double. -/
def toFloat (n : Nat) : Float := (UInt64.ofNat n).toFloat

/-- The share of silent frames among all, 0 if there were none. The number of all frames is a word
too. -/
def silenceRatio (c : Counters) : Except Halt Float := do
  let total ← Machine.word (c.framesBuffered + c.framesSilence)
  return if total = 0 then 0.0 else toFloat c.framesSilence / toFloat total

/-- A count for each second, 0 in the first one. -/
def perSecond (count uptime : Nat) : Float :=
  if uptime = 0 then 0.0 else toFloat count / toFloat uptime

end Counters

end SpeechRelay
