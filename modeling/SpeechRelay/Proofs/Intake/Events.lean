import Mathlib.Algebra.Ring.Nat
import SpeechRelay.Intake

/-!
# Events at once

Handled without a break, the effects of an event come to one thing: the event is counted, the buffer
takes its audio in or is cleared, and the journal says so (`Intake.handle_eq`). Bytes that come in
are buffered, and bytes that are cleared are noted (`InboundEvent.size_buffer_add_cleared`).
-/

set_option autoImplicit false

namespace SpeechRelay

open Audio

/-! ## What is cleared -/

/-- How many bytes an entry says are cleared. -/
def JournalEntry.clearedBytes : JournalEntry → Nat
  | .bufferCleared bytes => bytes
  | _ => 0

/-- How many bytes the journal says have been cleared, all in all. -/
def Pipeline.clearedBytes (p : Pipeline) : Nat := (p.journal.map JournalEntry.clearedBytes).sum

/-- Notes add the bytes that they say are cleared. -/
@[simp] theorem Pipeline.clearedBytes_note (p : Pipeline) (entries : Journal) :
    (p.note entries).clearedBytes =
      p.clearedBytes + (entries.map JournalEntry.clearedBytes).sum := by
  unfold clearedBytes note
  rw [List.map_append, List.sum_append]

/-! ## Handling an event at once -/

namespace InboundEvent

/-- What is counted about an event. -/
def happening : InboundEvent → Happening
  | .audio bytes => .ingested bytes.length
  | .connected _ => .linked .connected
  | .disconnected _ => .linked .disconnected
  | .connectError _ => .connectFailed

/-- The audio of an event. -/
def audioBytes : InboundEvent → List UInt8
  | .audio bytes => bytes
  | _ => []

/-- Whether an event brings audio. -/
def isAudio : InboundEvent → Bool
  | .audio _ => true
  | _ => false

/-- The state of the link that an event reports. -/
def connection? : InboundEvent → Option Connection
  | .audio _ => none
  | .connected _ => some .connected
  | .disconnected _ => some .disconnected
  | .connectError _ => some .disconnected

/-- Whether an event clears the buffer. -/
def clears (clearOnDisconnect : Bool) : InboundEvent → Bool
  | .disconnected _ => clearOnDisconnect
  | _ => false

/-- The buffer after an event. -/
def buffer (clearOnDisconnect : Bool) (b : Buffer) (e : InboundEvent) : Buffer :=
  if e.clears clearOnDisconnect then b.clear else b.append e.audioBytes

/-- What is noted about an event. -/
def notes (clearOnDisconnect : Bool) (b : Buffer) : InboundEvent → Journal
  | .audio _ => []
  | .connected _ => [.connected]
  | .disconnected reason =>
    .disconnected reason :: if clearOnDisconnect then [.bufferCleared b.size] else []
  | .connectError _ => [.connectFailed]

end InboundEvent

/-- The pipeline after an event, with these counters. -/
def Pipeline.receive (p : Pipeline) (clearOnDisconnect : Bool) (e : InboundEvent)
    (counters : Counters) : Pipeline :=
  ({ p with buffer := e.buffer clearOnDisconnect p.buffer, counters }).note
    (e.notes clearOnDisconnect p.buffer)

/-- Adding no bytes leaves the buffer as it is. -/
theorem Audio.Buffer.append_nil (b : Buffer) : b.append [] = b := by
  unfold append
  rw [List.append_nil]

/-- An event without audio that clears nothing leaves the buffer as it is. -/
theorem InboundEvent.buffer_of_quiet (e : InboundEvent) {clearOnDisconnect : Bool}
    (hclears : e.clears clearOnDisconnect = false) (haudio : e.audioBytes = []) (b : Buffer) :
    e.buffer clearOnDisconnect b = b := by
  unfold buffer
  rw [hclears, haudio, Buffer.append_nil]
  rfl

/-- Only an event with audio brings bytes. -/
theorem InboundEvent.audioBytes_eq_nil {e : InboundEvent} (h : e.isAudio = false) :
    e.audioBytes = [] := by
  cases e with
  | audio bytes => cases h
  | _ => rfl

/-- No event changes the unit of the buffer. -/
theorem InboundEvent.unit_buffer (e : InboundEvent) (clearOnDisconnect : Bool) (b : Buffer) :
    (e.buffer clearOnDisconnect b).unit = b.unit := by
  unfold buffer
  split <;> rfl

/-- The effects of an event, one after the other, count it once, change the buffer once and note it.
-/
theorem Intake.handle_eq (clearOnDisconnect : Bool) (p : Pipeline) (e : InboundEvent) :
    Intake.handle clearOnDisconnect p e =
      (p.counters.record e.happening).map (p.receive clearOnDisconnect e) := by
  unfold handle
  cases e with
  | audio bytes =>
    simp only [effects, runAll, Effect.run, Pipeline.record, InboundEvent.happening]
    cases p.counters.record (.ingested bytes.length) with
    | error halt => rfl
    | ok c =>
      simp only [Except.map, Pipeline.receive, Pipeline.note, InboundEvent.notes, List.append_nil]
      rfl
  | connected peer =>
    simp only [effects, runAll, Effect.run, Pipeline.record, InboundEvent.happening,
      Pipeline.counters_note]
    cases p.counters.record (.linked .connected) with
    | error halt => rfl
    | ok c =>
      simp only [Except.map, Pipeline.receive, InboundEvent.buffer_of_quiet (.connected peer) rfl rfl]
      rfl
  | disconnected reason =>
    simp only [effects, List.cons_append, List.nil_append, runAll, Effect.run, Pipeline.record,
      InboundEvent.happening, Pipeline.counters_note]
    cases p.counters.record (.linked .disconnected) with
    | error halt => rfl
    | ok c =>
      cases clearOnDisconnect with
      | false =>
        simp only [Except.map, Pipeline.receive,
          InboundEvent.buffer_of_quiet (.disconnected reason) rfl rfl]
        rfl
      | true =>
        simp only [Except.map, Pipeline.receive, InboundEvent.buffer, InboundEvent.clears,
          InboundEvent.notes, if_true, runAll, Effect.run, Pipeline.note, List.append_assoc,
          List.cons_append, List.nil_append]
  | connectError message =>
    simp only [effects, runAll, Effect.run, Pipeline.record, InboundEvent.happening,
      Pipeline.counters_note]
    cases p.counters.record .connectFailed with
    | error halt => rfl
    | ok c =>
      simp only [Except.map, Pipeline.receive,
        InboundEvent.buffer_of_quiet (.connectError message) rfl rfl]
      rfl

/-- Bytes that come in are buffered, and bytes that leave the buffer are noted as cleared. -/
theorem InboundEvent.size_buffer_add_cleared (clearOnDisconnect : Bool) (b : Buffer)
    (e : InboundEvent) :
    (e.buffer clearOnDisconnect b).size +
        ((e.notes clearOnDisconnect b).map JournalEntry.clearedBytes).sum =
      b.size + e.audioBytes.length := by
  cases e with
  | audio bytes => simp [buffer, clears, audioBytes, notes, Buffer.size]
  | connected peer =>
    rw [buffer_of_quiet (.connected peer) rfl rfl]
    rfl
  | connectError message =>
    rw [buffer_of_quiet (.connectError message) rfl rfl]
    rfl
  | disconnected reason =>
    cases clearOnDisconnect <;>
      simp [buffer, clears, audioBytes, notes, Buffer.size, JournalEntry.clearedBytes]

end SpeechRelay
