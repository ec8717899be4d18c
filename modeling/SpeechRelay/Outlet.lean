import SpeechRelay.Transcript.Basic

/-!
# Outlets for transcripts

Finished transcripts go to an outlet, which may refuse them. The outlet of the relay is a queue
between the feeder, which holds its sending end, and the gateway client, which holds its receiving
end. The queue takes transcripts as long as the receiving end is there.
-/

set_option autoImplicit false

namespace SpeechRelay

/-- Why an outlet refused a transcript. -/
inductive OutletError where
  | closed
  deriving DecidableEq

/-- The wording of a refusal. -/
def OutletError.message : OutletError → String
  | .closed => "event sink is closed"

/-- An outlet, by what it answers to a transcript and how that changes its state. -/
structure Outlet (τ : Type) where
  emit : Transcript → τ → Except OutletError Unit × τ

/-- A queue of transcripts. -/
structure TranscriptQueue where
  /-- The transcripts that wait, the oldest first. -/
  waiting : List Transcript
  /-- How many sending ends there are. -/
  senders : Nat
  /-- Whether there is a receiving end. -/
  receiving : Bool
  deriving DecidableEq

namespace TranscriptQueue

/-- An empty queue with one sending and one receiving end. -/
def create : TranscriptQueue := ⟨[], 1, true⟩

/-- Adds a transcript at the end, if there is a receiving end. -/
def emit (t : Transcript) (q : TranscriptQueue) : Except OutletError Unit × TranscriptQueue :=
  if q.receiving then (.ok (), { q with waiting := q.waiting ++ [t] }) else (.error .closed, q)

/-- What the receiving end finds. -/
inductive Receipt where
  | transcript (t : Transcript)
  /-- Nothing waits, but there are sending ends. -/
  | empty
  /-- Nothing waits and nothing will come. -/
  | disconnected
  deriving DecidableEq

/-- Takes the oldest transcript. -/
def receive (q : TranscriptQueue) : Receipt × TranscriptQueue :=
  match q.waiting with
  | t :: ts => (.transcript t, { q with waiting := ts })
  | [] => (if q.senders = 0 then .disconnected else .empty, q)

/-- One sending end more. -/
def addSender (q : TranscriptQueue) : TranscriptQueue := { q with senders := q.senders + 1 }

/-- No sending end is left. -/
def dropSenders (q : TranscriptQueue) : TranscriptQueue := { q with senders := 0 }

/-- No receiving end is left; what waits is lost. -/
def dropReceiver (q : TranscriptQueue) : TranscriptQueue :=
  { q with waiting := [], receiving := false }

/-- The outlet that a queue is. -/
def outlet : Outlet TranscriptQueue := ⟨emit⟩

end TranscriptQueue

end SpeechRelay
