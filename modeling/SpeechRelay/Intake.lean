import SpeechRelay.Pipeline

/-!
# The intake

The gateway client reports four kinds of events. Each is handled in small effects on the pipeline,
one after the other; the feeder may run between any two of them. `Intake.effects` lists them, and
`Intake.handle` runs them without a break.
-/

set_option autoImplicit false

namespace SpeechRelay

/-- What the gateway client can report. -/
inductive InboundEvent where
  /-- A session with that gateway has started. -/
  | connected (peer : String)
  /-- The session has ended. -/
  | disconnected (reason : String)
  /-- No session could be started. -/
  | connectError (message : String)
  /-- Interleaved samples, split anywhere. -/
  | audio (bytes : List UInt8)
  deriving DecidableEq

namespace Intake

/-- One effect on the pipeline. -/
inductive Effect where
  | append (bytes : List UInt8)
  | record (happening : Happening)
  | note (entry : JournalEntry)
  /-- Writes down how many bytes are buffered, as bytes to be cleared. -/
  | noteCleared
  | clear

/-- The effects of an event. Whether the end of a session clears the buffer is a setting. -/
def effects (clearOnDisconnect : Bool) : InboundEvent → List Effect
  | .audio bytes => [.append bytes, .record (.ingested bytes.length)]
  | .connected _ => [.note .connected, .record (.linked .connected)]
  | .disconnected reason =>
    [.note (.disconnected reason), .record (.linked .disconnected)] ++
      (if clearOnDisconnect then [.noteCleared, .clear] else [])
  | .connectError _ => [.note .connectFailed, .record .connectFailed]

/-- The pipeline after an effect. -/
def Effect.run (p : Pipeline) : Effect → Except Halt Pipeline
  | .append bytes => .ok { p with buffer := p.buffer.append bytes }
  | .record happening => p.record happening
  | .note entry => .ok (p.note [entry])
  | .noteCleared => .ok (p.note [.bufferCleared p.buffer.size])
  | .clear => .ok { p with buffer := p.buffer.clear }

/-- The pipeline after effects. -/
def runAll (p : Pipeline) : List Effect → Except Halt Pipeline
  | [] => .ok p
  | e :: es =>
    match e.run p with
    | .error h => .error h
    | .ok p => runAll p es

/-- The pipeline after an event. -/
def handle (clearOnDisconnect : Bool) (p : Pipeline) (e : InboundEvent) : Except Halt Pipeline :=
  runAll p (effects clearOnDisconnect e)

end Intake

end SpeechRelay
