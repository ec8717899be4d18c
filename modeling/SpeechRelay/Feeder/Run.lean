import SpeechRelay.Feeder.Basic
import SpeechRelay.Intake

/-!
# A run of the feeder

A run is a list of occurrences. Until the first cancellation every tick of the clock is a round;
the cancellation ends the feeder, and ticks behind it are not heard. Events of the gateway are
handled before and after it. `schedule` lays a clock with a period over events that happen at given
times.
-/

set_option autoImplicit false

namespace SpeechRelay.Feeder

variable {σ τ ω : Type}

/-- Something that happens during a run. -/
inductive Occurrence where
  /-- The clock ticks. -/
  | tick
  | inbound (e : InboundEvent)
  /-- The relay is told to stop. -/
  | cancel
  deriving DecidableEq

/-- An inbound event handled on the feeder's pipeline. -/
def handle (clearOnDisconnect : Bool) (e : InboundEvent) (f : Feeder σ τ ω) :
    Except Halt (Feeder σ τ ω) :=
  (Intake.handle clearOnDisconnect f.pipeline e).map fun pipeline => { f with pipeline }

/-- What is noted about the log of samples at the end. -/
def lossNotes (f : Feeder σ τ ω) : Journal :=
  match f.pcmLog with
  | some log => if log.failures = 0 then [] else [.pcmLogIncomplete log.failures]
  | none => []

/-- The end of a run. -/
def stop (s : Setup σ τ ω) (r : Reading) (f : Feeder σ τ ω) : Except Halt (Feeder σ τ ω) :=
  match finish s r f with
  | (.error halt, _) => .error halt
  | (.ok _, f) => .ok (f.note (f.lossNotes ++ [.feederStopped]))

/-- The feeder after occurrences; `running` says that none before was a cancellation. Each comes
with what the clocks show. -/
def runFrom (s : Setup σ τ ω) (clearOnDisconnect : Bool) (running : Bool) (f : Feeder σ τ ω) :
    List (Occurrence × Reading) → Except Halt (Feeder σ τ ω)
  | [] => .ok f
  | (.inbound e, _) :: rest =>
    match f.handle clearOnDisconnect e with
    | .error halt => .error halt
    | .ok f => runFrom s clearOnDisconnect running f rest
  | (.tick, r) :: rest =>
    if running then
      match tick s r f with
      | (.error halt, _) => .error halt
      | (.ok _, f) => runFrom s clearOnDisconnect running f rest
    else runFrom s clearOnDisconnect running f rest
  | (.cancel, r) :: rest =>
    if running then
      match stop s r f with
      | .error halt => .error halt
      | .ok f => runFrom s clearOnDisconnect false f rest
    else runFrom s clearOnDisconnect running f rest

/-- A whole run. A clock needs a period. -/
def run (s : Setup σ τ ω) (clearOnDisconnect : Bool) (period : Nat) (f : Feeder σ τ ω)
    (occurrences : List (Occurrence × Reading)) : Except Halt (Feeder σ τ ω) :=
  if period = 0 then .error .zeroPeriod
  else runFrom s clearOnDisconnect true (f.note [.feederStarted]) occurrences

/-! ## Clocks -/

/-- How many ticks at 0, `period`, 2 · `period` and so on come before a time. -/
def ticksBefore (period time : Nat) : Nat := (time + period - 1) / period

/-- The occurrences of a timeline with the ticks of a clock between them, up to the first
cancellation; `done` of the ticks have already happened. -/
def scheduleFrom (period done : Nat) : List (Nat × Occurrence) → List Occurrence
  | [] => []
  | (time, o) :: rest =>
    let ticks := ticksBefore period time
    List.replicate (ticks - done) .tick ++ o ::
      (if o = .cancel then rest.map Prod.snd else scheduleFrom period (max done ticks) rest)

/-- The occurrences of a timeline, in the order of their times, with the ticks of a clock. -/
def schedule (period : Nat) (timeline : List (Nat × Occurrence)) : List Occurrence :=
  scheduleFrom period 0 (timeline.mergeSort fun a b => a.1 ≤ b.1)

end SpeechRelay.Feeder
