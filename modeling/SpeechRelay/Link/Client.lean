import SpeechRelay.Intake
import SpeechRelay.Link.Envelope
import SpeechRelay.Link.Message
import SpeechRelay.Stepwise

/-!
# The gateway client

The client keeps a session with the gateway. During a session it reports the audio that comes in and
sends the transcripts that wait in its queue; when a session ends or cannot be started, it says so,
waits, and tries again. Told to stop, it sends what still comes into the queue, says goodbye, counts
what is left, and stops.

The client is a machine that takes one step at a time. What the gateway, the clock and the holders
of the queue do is part of the step that sees it, and a step that cannot be taken now is refused.
Whatever the client does that others see is an `Action`; everything it reports is one.
-/

set_option autoImplicit false

namespace SpeechRelay.Link

/-- Where the client is. -/
inductive Phase where
  /-- About to look whether to stop, and else to connect. -/
  | starting
  | connecting
  /-- In a session. -/
  | session
  /-- In a session, writing a transcript that was taken from the queue. -/
  | sending (t : Transcript)
  /-- Told to stop in a session, waiting for last transcripts. -/
  | draining
  /-- Writing a last transcript that was taken from the queue. -/
  | flushing (t : Transcript)
  /-- Saying goodbye. -/
  | closing
  /-- Between two sessions. -/
  | pausing
  /-- Counting what is left in the queue. -/
  | discarding (count : Nat)
  | stopped
  deriving DecidableEq

/-- What the client is told at its start. -/
structure Setup where
  url : String
  /-- The name of the event that brings audio. -/
  audioEvent : String
  /-- The name of the event that transcripts are sent as. -/
  transcriptEvent : String

/-- The client, its queue, and the stop signal as it sees it. -/
structure Client where
  phase : Phase
  queue : TranscriptQueue
  stopRequested : Bool
  deriving DecidableEq

/-- A step of the client or of one of those around it. -/
inductive Step where
  /-- A transcript is put into the queue. -/
  | emit (t : Transcript)
  /-- The last sending end of the queue is dropped. -/
  | closeQueue
  /-- The stop signal is given. -/
  | cancel
  /-- The client looks at the stop signal before it connects. -/
  | look
  /-- The client, waiting for something else, finds that the stop signal was given. -/
  | noticeStop
  | connected
  | connectFailed (why : WireError)
  /-- The client takes the oldest transcript from the queue. -/
  | take
  /-- What is being written has been written. -/
  | written
  | writeFailed (why : WireError)
  | received (m : Message)
  | readFailed (why : WireError)
  /-- The messages of the gateway have ended without a goodbye. -/
  | streamEnded
  /-- The queue is empty and nothing will come any more. -/
  | queueFinished
  /-- Nothing came into the queue for as long as the client waits for a last transcript. -/
  | graceOver
  /-- The pause between two sessions is over. -/
  | pauseOver
  /-- The client takes what is next in the queue, to count it. -/
  | discard
  deriving DecidableEq

/-- Something that others see. -/
inductive Action where
  /-- An event for the intake. -/
  | report (e : InboundEvent)
  | note (entry : JournalEntry)
  /-- A transcript has been written to the session as that frame. -/
  | wrote (t : Transcript) (frame : String)
  /-- A goodbye has been written to the session. -/
  | wroteGoodbye

namespace Client

/-- A client that has not started, with an empty queue. -/
def create : Client := ⟨.starting, .create, false⟩

/-- The client in another phase. -/
def enter (c : Client) (phase : Phase) : Client := { c with phase }

/-- The end of a session with something to say about it. -/
def lose (c : Client) (reason : String) : Client × List Action :=
  (c.enter .pausing, [.report (.disconnected reason)])

/-- What a text message makes the client do. -/
def onText (s : Setup) (text : String) : List Action :=
  match Envelope.decode s.audioEvent text with
  | .ok (.audio bytes) => [.report (.audio bytes)]
  | .ok (.other event) => [.note (.eventIgnored event)]
  | .error why => [.note (.messageUnreadable why)]

/-- What a message makes the client do. -/
def onMessage (s : Setup) (c : Client) : Message → Client × List Action
  | .binary bytes => (c, [.report (.audio bytes)])
  | .text text => (c, onText s text)
  | .keepAlive => (c, [])
  | .close goodbye => c.lose (closeReason goodbye)

/-- The client with the oldest transcript taken out of its queue. -/
def takeNext (c : Client) (phase : Transcript → Phase) : Option Client :=
  match c.queue.receive with
  | (.transcript t, queue) => some { c with queue, phase := phase t }
  | _ => none

/-- The end of the client, with what is noted about transcripts that are left. -/
def halt (c : Client) (count : Nat) : Client × List Action :=
  ({ c with phase := .stopped, queue := c.queue.dropReceiver },
    (if count = 0 then [] else [.note (.undelivered count)]) ++ [.note .clientStopped])

/-- A step of those around the client. -/
def stepAround (c : Client) : Step → Option Client
  | .emit t => if c.queue.senders = 0 then none else some { c with queue := (c.queue.emit t).2 }
  | .closeQueue => some { c with queue := c.queue.dropSenders }
  | .cancel => some { c with stopRequested := true }
  | _ => none

/-- A step of the client itself. -/
def stepOwn (s : Setup) (c : Client) : Step → Option (Client × List Action)
  | .look =>
    if c.phase = .starting then
      some (c.enter (if c.stopRequested then .discarding 0 else .connecting), [])
    else none
  | .noticeStop =>
    if c.stopRequested then
      match c.phase with
      | .connecting | .pausing => some (c.enter (.discarding 0), [])
      | .session => some (c.enter .draining, [])
      | _ => none
    else none
  | .connected =>
    if c.phase = .connecting then some (c.enter .session, [.report (.connected s.url)]) else none
  | .connectFailed why =>
    if c.phase = .connecting then
      some (c.enter .pausing,
        [.report (.connectError (TransportError.connect s.url why).message)])
    else none
  | .take =>
    match c.phase with
    | .session => (c.takeNext .sending).map (·, [])
    | .draining => (c.takeNext .flushing).map (·, [])
    | _ => none
  | .written =>
    match c.phase with
    | .sending t => some (c.enter .session, [.wrote t (t.frame s.transcriptEvent)])
    | .flushing t => some (c.enter .draining, [.wrote t (t.frame s.transcriptEvent)])
    | .closing => some (c.enter (.discarding 0), [.wroteGoodbye])
    | _ => none
  | .writeFailed why =>
    match c.phase with
    | .sending _ | .flushing _ | .closing => some (c.lose (TransportError.broken why).message)
    | _ => none
  | .received m => if c.phase = .session then some (c.onMessage s m) else none
  | .readFailed why =>
    if c.phase = .session then some (c.lose (TransportError.broken why).message) else none
  | .streamEnded => if c.phase = .session then some (c.lose endedReason) else none
  | .queueFinished =>
    if c.phase = .draining ∧ c.queue.waiting = [] ∧ c.queue.senders = 0 then
      some (c.enter .closing, [])
    else none
  | .graceOver =>
    if c.phase = .draining ∧ c.queue.waiting = [] ∧ c.queue.senders ≠ 0 then
      some (c.enter .closing, [])
    else none
  | .pauseOver => if c.phase = .pausing then some (c.enter .starting, []) else none
  | .discard =>
    match c.phase with
    | .discarding count =>
      some (((c.takeNext fun _ => .discarding (count + 1)).map (·, [])).getD (c.halt count))
    | _ => none
  | _ => none

/-- The client after a step and what others see of it, if the step can be taken. -/
def step (s : Setup) (c : Client) (e : Step) : Option (Client × List Action) :=
  match e with
  | .emit _ | .closeQueue | .cancel => (c.stepAround e).map (·, [])
  | _ => c.stepOwn s e

/-- The client after steps and what others see of them, if all can be taken. -/
def run (s : Setup) (c : Client) (es : List Step) : Option (Client × List Action) :=
  Stepwise.run (step s) c es

end Client

end SpeechRelay.Link
