/-!
# The stop signal

Whoever wants the relay to stop sets a flag and then wakes all who wait for it. Whoever waits
registers, then looks at the flag, and only then sleeps; a wake-up reaches exactly those who are
registered at that moment, asleep or not yet, and makes them start over. Each of these is a step of
its own, so that any number of cancellations and waits may run at the same time in any order.
`StopSignal.step` is one step of one of them.

A signal that is copied stays the same signal: a copy only means that more may cancel or wait.
-/

set_option autoImplicit false

namespace SpeechRelay

namespace StopSignal

/-- Where one that waits is. -/
inductive Waiting where
  /-- About to register. -/
  | entering
  /-- Registered, about to look at the flag. -/
  | registered (notified : Bool)
  /-- Has looked and found the flag unset, about to sleep. -/
  | looked (notified : Bool)
  /-- Asleep until notified. -/
  | parked (notified : Bool)
  /-- Has seen the flag and gone on. -/
  | returned
  deriving DecidableEq

/-- Where one that cancels is. -/
inductive Cancelling where
  /-- About to set the flag. -/
  | entering
  /-- Has set the flag, about to notify. -/
  | flagged
  | returned
  deriving DecidableEq

end StopSignal

/-- A flag, and those who wait for it or set it. -/
structure StopSignal where
  requested : Bool
  waits : List StopSignal.Waiting
  cancels : List StopSignal.Cancelling
  deriving DecidableEq

namespace StopSignal

/-- A step of one of those who wait or cancel. -/
inductive Step where
  /-- One more starts to wait. -/
  | enterWait
  /-- One more starts to cancel. -/
  | enterCancel
  /-- The one that waits goes on. -/
  | advanceWait (index : Nat)
  /-- The one that cancels goes on. -/
  | advanceCancel (index : Nat)
  deriving DecidableEq

/-- A signal that nobody knows yet. -/
def create : StopSignal := ⟨false, [], []⟩

/-- The wake-up of one that waits, which counts only if it is registered. -/
def Waiting.notify : Waiting → Waiting
  | .registered _ => .registered true
  | .looked _ => .looked true
  | .parked _ => .parked true
  | w => w

/-- The next place of one that waits, if it can go on. -/
def Waiting.advance (requested : Bool) : Waiting → Option Waiting
  | .entering => some (.registered false)
  | .registered notified => some (if requested then .returned else .looked notified)
  | .looked notified => some (.parked notified)
  | .parked true => some .entering
  | .parked false => none
  | .returned => none

/-- The signal after a step, if the step can be taken. -/
def step (s : StopSignal) : Step → Option StopSignal
  | .enterWait => some { s with waits := s.waits ++ [.entering] }
  | .enterCancel => some { s with cancels := s.cancels ++ [.entering] }
  | .advanceWait i =>
    match s.waits[i]? with
    | none => none
    | some w => (w.advance s.requested).map fun w => { s with waits := s.waits.set i w }
  | .advanceCancel i =>
    match s.cancels[i]? with
    | some .entering => some { s with requested := true, cancels := s.cancels.set i .flagged }
    | some .flagged =>
      some { s with waits := s.waits.map Waiting.notify, cancels := s.cancels.set i .returned }
    | _ => none

/-- The signal after steps, of which those that cannot be taken are left out. -/
def run (s : StopSignal) : List Step → StopSignal
  | [] => s
  | e :: es => ((s.step e).getD s).run es

/-- The signal after a cancellation from its start to its end. -/
def cancel (s : StopSignal) : StopSignal :=
  let i := s.cancels.length
  s.run [.enterCancel, .advanceCancel i, .advanceCancel i]

/-- The signal after one that waits has gone on as far as it can: out of its sleep, to register, to
look, and to sleep again. -/
def poll (s : StopSignal) (index : Nat) : StopSignal :=
  s.run (List.replicate 4 (.advanceWait index))

/-- Whether the one that waits has gone on. -/
def hasReturned (s : StopSignal) (index : Nat) : Bool := s.waits[index]? = some .returned

end StopSignal

end SpeechRelay
