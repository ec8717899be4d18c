import SpeechRelay.Pipeline
import SpeechRelay.Settings.Basic
import SpeechRelay.Status.Problem

/-!
# Reports on the relay

The relay reports on its health, on everything it counts, and on its settings. Each report is made
from a snapshot.
-/

set_option autoImplicit false

namespace SpeechRelay.Status

/-- How much memory is in use. -/
inductive Memory where
  /-- In bytes. -/
  | measured (resident reserved : Nat)
  /-- Not known for the process of that number. -/
  | unknown (process : Nat)

/-- All that reports are made from. -/
structure Snapshot where
  now : Calendar.Instant
  /-- Seconds since the start. -/
  uptime : Nat
  settings : Settings
  counters : Counters
  bufferedBytes : Nat
  memory : Memory

/-- The name and the version that the relay gives itself. -/
def service : Json :=
  .object [("name", .text "voice-stream-bridge"), ("version", .text "0.1.0")]

/-- A time, if there is one. -/
def time? (t : Option Calendar.Instant) : Json :=
  .ofText? (t.map (·.render .offset))

/-- The health in a word: whether the link is up. -/
def health (c : Counters) : String :=
  if c.connection = .connected then "healthy" else "degraded"

/-- The use of memory as an object. -/
def Memory.toJson : Memory → Json
  | .measured resident reserved =>
    .object [("resident_memory_bytes", .ofNat resident),
      ("virtual_memory_bytes", .ofNat reserved), ("available", .truth true)]
  | .unknown process =>
    .object [("resident_memory_bytes", .ofNat 0), ("virtual_memory_bytes", .ofNat 0),
      ("available", .truth false),
      ("note", .text ("Memory info not available for pid " ++ toString process))]

namespace Snapshot

/-- The report on the health. -/
def healthReport (s : Snapshot) : Json :=
  .object [
    ("status", .text (health s.counters)),
    ("timestamp", .text (s.now.render .offset)),
    ("uptime_seconds", .ofNat s.uptime),
    ("service", service),
    ("gateway", .object [
      ("url", .text s.settings.stream.url),
      ("connection", .text s.counters.connection.name)]),
    ("pipeline", .object [
      ("buffered_bytes", .ofNat s.bufferedBytes),
      ("transcripts_emitted", .ofNat s.counters.transcriptsEmitted),
      ("last_transcript_at", time? s.counters.lastTranscriptAt),
      ("recognizer", .text s.settings.recognizer.backend)])]

/-- The report on everything counted. -/
def metricsReport (s : Snapshot) : Except Halt Json := do
  let c := s.counters
  let ratio ← c.silenceRatio
  return .object [
    ("timestamp", .text (s.now.render .offset)),
    ("uptime_seconds", .ofNat s.uptime),
    ("ingest", .object [
      ("bytes", .ofNat c.bytesIngested),
      ("chunks", .ofNat c.chunksIngested),
      ("bytes_per_second", .ofFloat (Counters.perSecond c.bytesIngested s.uptime)),
      ("buffered_bytes", .ofNat s.bufferedBytes)]),
    ("frames", .object [
      ("buffered", .ofNat c.framesBuffered),
      ("silence", .ofNat c.framesSilence),
      ("silence_ratio", .ofFloat ratio),
      ("samples_fed", .ofNat c.samplesFed),
      ("remainder_events", .ofNat c.remainderEvents)]),
    ("transcripts", .object [
      ("emitted", .ofNat c.transcriptsEmitted),
      ("last_at", time? c.lastTranscriptAt),
      ("sink_failures", .ofNat c.sinkFailures)]),
    ("recognizer", .object [
      ("backend", .text s.settings.recognizer.backend),
      ("faults", .ofNat c.recognizerFaults)]),
    ("gateway", .object [
      ("connection", .text c.connection.name),
      ("connects", .ofNat c.connects),
      ("disconnects", .ofNat c.disconnects),
      ("connect_errors", .ofNat c.connectErrors)]),
    ("audio", s.settings.audio.toJson),
    ("memory", s.memory.toJson)]

/-- The report on the settings. -/
def settingsReport (s : Snapshot) : Json :=
  .object [("timestamp", .text (s.now.render .offset)), ("config", s.settings.toJson)]

end Snapshot

end SpeechRelay.Status
