import Mathlib.Tactic.Common
import SpeechRelay.Link.Client

/-!
# What the client can do

`Client.Transition` lists every step that the client and those around it can take, with the client
before and after it and with what others see. `Client.transition_of_step` says that there are no
others, so that whatever holds of every line of the list holds of every step.
-/

set_option autoImplicit false

namespace SpeechRelay.Link

namespace Phase

/-- The transcript that is being written, which is no longer in the queue. -/
def inHand : Phase → Option Transcript
  | .sending t => some t
  | .flushing t => some t
  | _ => none

/-- Whether a session is open. -/
def inSession : Phase → Bool
  | .session | .sending _ | .draining | .flushing _ | .closing => true
  | _ => false

/-- Whether no session is open and one may still be. -/
def mayConnect : Phase → Bool
  | .starting | .connecting | .pausing => true
  | _ => false

/-- Whether the client is writing to the session. -/
def isWriting : Phase → Bool
  | .sending _ | .flushing _ | .closing => true
  | _ => false

/-- Where a session is open, none can be opened. -/
theorem not_mayConnect_of_inSession {p : Phase} (h : p.inSession) : ¬ p.mayConnect := by
  cases p <;> simp_all [inSession, mayConnect]

end Phase

namespace Client

/-- The steps of the client and of those around it. -/
inductive Transition (s : Setup) : Client → Step → Client → List Action → Prop where
  | emit (c : Client) (t : Transcript) (h : c.queue.senders ≠ 0) :
    Transition s c (.emit t) { c with queue := (c.queue.emit t).2 } []
  | closeQueue (c : Client) : Transition s c .closeQueue { c with queue := c.queue.dropSenders } []
  | cancel (c : Client) : Transition s c .cancel { c with stopRequested := true } []
  | stopStarting (q : TranscriptQueue) :
    Transition s ⟨.starting, q, true⟩ .look ⟨.discarding 0, q, true⟩ []
  | start (q : TranscriptQueue) :
    Transition s ⟨.starting, q, false⟩ .look ⟨.connecting, q, false⟩ []
  | stopConnecting (q : TranscriptQueue) :
    Transition s ⟨.connecting, q, true⟩ .noticeStop ⟨.discarding 0, q, true⟩ []
  | stopPausing (q : TranscriptQueue) :
    Transition s ⟨.pausing, q, true⟩ .noticeStop ⟨.discarding 0, q, true⟩ []
  | stopSession (q : TranscriptQueue) :
    Transition s ⟨.session, q, true⟩ .noticeStop ⟨.draining, q, true⟩ []
  | connected (q : TranscriptQueue) (stop : Bool) :
    Transition s ⟨.connecting, q, stop⟩ .connected ⟨.session, q, stop⟩ [.report (.connected s.url)]
  | connectFailed (q : TranscriptQueue) (stop : Bool) (why : WireError) :
    Transition s ⟨.connecting, q, stop⟩ (.connectFailed why) ⟨.pausing, q, stop⟩
      [.report (.connectError (TransportError.connect s.url why).message)]
  | take (q : TranscriptQueue) (stop : Bool) (t : Transcript) (ts : List Transcript)
      (h : q.waiting = t :: ts) :
    Transition s ⟨.session, q, stop⟩ .take ⟨.sending t, { q with waiting := ts }, stop⟩ []
  | takeLast (q : TranscriptQueue) (stop : Bool) (t : Transcript) (ts : List Transcript)
      (h : q.waiting = t :: ts) :
    Transition s ⟨.draining, q, stop⟩ .take ⟨.flushing t, { q with waiting := ts }, stop⟩ []
  | written (q : TranscriptQueue) (stop : Bool) (t : Transcript) :
    Transition s ⟨.sending t, q, stop⟩ .written ⟨.session, q, stop⟩
      [.wrote t (t.frame s.transcriptEvent)]
  | writtenLast (q : TranscriptQueue) (stop : Bool) (t : Transcript) :
    Transition s ⟨.flushing t, q, stop⟩ .written ⟨.draining, q, stop⟩
      [.wrote t (t.frame s.transcriptEvent)]
  | writtenGoodbye (q : TranscriptQueue) (stop : Bool) :
    Transition s ⟨.closing, q, stop⟩ .written ⟨.discarding 0, q, stop⟩ [.wroteGoodbye]
  | writeFailed (p : Phase) (q : TranscriptQueue) (stop : Bool) (why : WireError)
      (h : p.isWriting) :
    Transition s ⟨p, q, stop⟩ (.writeFailed why) ⟨.pausing, q, stop⟩
      [.report (.disconnected (TransportError.broken why).message)]
  | receivedBinary (q : TranscriptQueue) (stop : Bool) (bytes : List UInt8) :
    Transition s ⟨.session, q, stop⟩ (.received (.binary bytes)) ⟨.session, q, stop⟩
      [.report (.audio bytes)]
  | receivedText (q : TranscriptQueue) (stop : Bool) (text : String) :
    Transition s ⟨.session, q, stop⟩ (.received (.text text)) ⟨.session, q, stop⟩ (onText s text)
  | receivedKeepAlive (q : TranscriptQueue) (stop : Bool) :
    Transition s ⟨.session, q, stop⟩ (.received .keepAlive) ⟨.session, q, stop⟩ []
  | receivedClose (q : TranscriptQueue) (stop : Bool) (goodbye : Option Goodbye) :
    Transition s ⟨.session, q, stop⟩ (.received (.close goodbye)) ⟨.pausing, q, stop⟩
      [.report (.disconnected (closeReason goodbye))]
  | readFailed (q : TranscriptQueue) (stop : Bool) (why : WireError) :
    Transition s ⟨.session, q, stop⟩ (.readFailed why) ⟨.pausing, q, stop⟩
      [.report (.disconnected (TransportError.broken why).message)]
  | streamEnded (q : TranscriptQueue) (stop : Bool) :
    Transition s ⟨.session, q, stop⟩ .streamEnded ⟨.pausing, q, stop⟩
      [.report (.disconnected endedReason)]
  | queueFinished (q : TranscriptQueue) (stop : Bool) (h : q.waiting = []) (hs : q.senders = 0) :
    Transition s ⟨.draining, q, stop⟩ .queueFinished ⟨.closing, q, stop⟩ []
  | graceOver (q : TranscriptQueue) (stop : Bool) (h : q.waiting = []) (hs : q.senders ≠ 0) :
    Transition s ⟨.draining, q, stop⟩ .graceOver ⟨.closing, q, stop⟩ []
  | pauseOver (q : TranscriptQueue) (stop : Bool) :
    Transition s ⟨.pausing, q, stop⟩ .pauseOver ⟨.starting, q, stop⟩ []
  | discard (count : Nat) (q : TranscriptQueue) (stop : Bool) (t : Transcript)
      (ts : List Transcript) (h : q.waiting = t :: ts) :
    Transition s ⟨.discarding count, q, stop⟩ .discard
      ⟨.discarding (count + 1), { q with waiting := ts }, stop⟩ []
  | halt (count : Nat) (q : TranscriptQueue) (stop : Bool) (h : q.waiting = []) :
    Transition s ⟨.discarding count, q, stop⟩ .discard ⟨.stopped, q.dropReceiver, stop⟩
      ((if count = 0 then [] else [.note (.undelivered count)]) ++ [.note .clientStopped])

/-! ## Steps that can be taken -/

/-- Something is taken from the queue if something waits in it: the oldest transcript. -/
theorem takeNext_eq_some {c c' : Client} {phase : Transcript → Phase} :
    c.takeNext phase = some c' ↔ ∃ t ts, c.queue.waiting = t :: ts ∧
      c' = { c with queue := { c.queue with waiting := ts }, phase := phase t } := by
  unfold takeNext TranscriptQueue.receive
  cases hq : c.queue.waiting with
  | nil => by_cases hs : c.queue.senders = 0 <;> simp [hs]
  | cons t ts => simp [eq_comm]

/-- Nothing is taken from the queue if nothing waits in it. -/
theorem takeNext_eq_none {c : Client} {phase : Transcript → Phase} :
    c.takeNext phase = none ↔ c.queue.waiting = [] := by
  unfold takeNext TranscriptQueue.receive
  cases hq : c.queue.waiting with
  | nil => by_cases hs : c.queue.senders = 0 <;> simp [hs]
  | cons t ts => simp

end Client

/-- What a step of the client has to do with. -/
inductive Step.Concern where
  /-- A step of those around the client. -/
  | around
  /-- The way into a session, and the stop signal. -/
  | session
  /-- Taking from the queue, and the end of it. -/
  | queue
  /-- Writing to the session. -/
  | output
  /-- Reading from the session. -/
  | input

/-- What a step has to do with. -/
def Step.concern : Step → Concern
  | .emit _ | .closeQueue | .cancel => .around
  | .look | .noticeStop | .connected | .connectFailed _ | .pauseOver => .session
  | .take | .queueFinished | .graceOver | .discard => .queue
  | .written | .writeFailed _ => .output
  | .received _ | .readFailed _ | .streamEnded => .input

namespace Client

section Cases

variable {s : Setup} {c c' : Client} {e : Step} {seen : List Action}

/-- The steps of those around the client are on the list. -/
theorem transition_of_around (he : e.concern = .around) (h : c.step s e = some (c', seen)) :
    Transition s c e c' seen := by
  cases e with
  | emit t =>
    simp only [step, stepAround] at h
    split at h
    · cases h
    · next hs =>
      cases h
      exact .emit c t hs
  | closeQueue =>
    cases h
    exact .closeQueue c
  | cancel =>
    cases h
    exact .cancel c
  | _ => cases he

/-- The steps into a session, and those that see the stop signal, are on the list. -/
theorem transition_of_session (he : e.concern = .session) (h : c.step s e = some (c', seen)) :
    Transition s c e c' seen := by
  obtain ⟨p, q, stop⟩ := c
  cases e with
  | look =>
    cases p <;> simp [step, stepOwn, enter] at h
    obtain ⟨rfl, rfl⟩ := h
    cases stop
    · exact .start q
    · exact .stopStarting q
  | noticeStop =>
    cases stop
    · simp [step, stepOwn] at h
    · cases p <;> simp [step, stepOwn, enter] at h <;> obtain ⟨rfl, rfl⟩ := h
      · exact .stopConnecting q
      · exact .stopSession q
      · exact .stopPausing q
  | connected =>
    cases p <;> simp [step, stepOwn, enter] at h
    obtain ⟨rfl, rfl⟩ := h
    exact .connected q stop
  | connectFailed why =>
    cases p <;> simp [step, stepOwn, enter] at h
    obtain ⟨rfl, rfl⟩ := h
    exact .connectFailed q stop why
  | pauseOver =>
    cases p <;> simp [step, stepOwn, enter] at h
    obtain ⟨rfl, rfl⟩ := h
    exact .pauseOver q stop
  | _ => cases he

/-- What is next in the queue is taken, or counted; nothing else is done to the queue. -/
theorem transition_of_queue (he : e.concern = .queue) (h : c.step s e = some (c', seen)) :
    Transition s c e c' seen := by
  obtain ⟨p, q, stop⟩ := c
  cases e with
  | take =>
    cases p <;> simp only [step, stepOwn, reduceCtorEq, Option.map_eq_some_iff] at h
    · obtain ⟨taken, htaken, heq⟩ := h
      obtain ⟨t, ts, hq, rfl⟩ := takeNext_eq_some.mp htaken
      cases heq
      exact .take q stop t ts hq
    · obtain ⟨taken, htaken, heq⟩ := h
      obtain ⟨t, ts, hq, rfl⟩ := takeNext_eq_some.mp htaken
      cases heq
      exact .takeLast q stop t ts hq
  | queueFinished =>
    cases p <;> simp [step, stepOwn, enter] at h
    obtain ⟨⟨hq, hs⟩, rfl, rfl⟩ := h
    exact .queueFinished q stop hq hs
  | graceOver =>
    cases p <;> simp [step, stepOwn, enter] at h
    obtain ⟨⟨hq, hs⟩, rfl, rfl⟩ := h
    exact .graceOver q stop hq hs
  | discard =>
    cases p <;> simp only [step, stepOwn, reduceCtorEq] at h
    next count =>
      cases htaken : takeNext ⟨.discarding count, q, stop⟩ fun _ => .discarding (count + 1) with
      | none =>
        rw [htaken] at h
        cases h
        exact .halt count q stop (takeNext_eq_none.mp htaken)
      | some taken =>
        obtain ⟨t, ts, hq, rfl⟩ := takeNext_eq_some.mp htaken
        rw [htaken] at h
        cases h
        exact .discard count q stop t ts hq
  | _ => cases he

/-- The steps that end a write are on the list. -/
theorem transition_of_output (he : e.concern = .output) (h : c.step s e = some (c', seen)) :
    Transition s c e c' seen := by
  obtain ⟨p, q, stop⟩ := c
  cases e with
  | written =>
    cases p <;> simp [step, stepOwn, enter] at h <;> obtain ⟨rfl, rfl⟩ := h
    · exact .written q stop _
    · exact .writtenLast q stop _
    · exact .writtenGoodbye q stop
  | writeFailed why =>
    cases p <;> simp [step, stepOwn, lose, enter] at h <;> obtain ⟨rfl, rfl⟩ := h
    all_goals exact .writeFailed _ q stop why rfl
  | _ => cases he

/-- Only in a session something is read. -/
theorem transition_of_input (he : e.concern = .input) (h : c.step s e = some (c', seen)) :
    Transition s c e c' seen := by
  obtain ⟨p, q, stop⟩ := c
  cases e with
  | received m =>
    cases p <;> simp [step, stepOwn] at h
    cases m with
    | binary bytes =>
      cases h
      exact .receivedBinary q stop bytes
    | text text =>
      cases h
      exact .receivedText q stop text
    | close goodbye =>
      cases h
      exact .receivedClose q stop goodbye
    | keepAlive =>
      cases h
      exact .receivedKeepAlive q stop
  | readFailed why =>
    cases p <;> simp [step, stepOwn, lose, enter] at h
    obtain ⟨rfl, rfl⟩ := h
    exact .readFailed q stop why
  | streamEnded =>
    cases p <;> simp [step, stepOwn, lose, enter] at h
    obtain ⟨rfl, rfl⟩ := h
    exact .streamEnded q stop
  | _ => cases he

/-- A step that can be taken is in the list. -/
theorem transition_of_step (h : c.step s e = some (c', seen)) : Transition s c e c' seen := by
  cases he : e.concern with
  | around => exact transition_of_around he h
  | session => exact transition_of_session he h
  | queue => exact transition_of_queue he h
  | output => exact transition_of_output he h
  | input => exact transition_of_input he h

end Cases

/-! ## Runs -/

/-- What every transition keeps, a run keeps, and what all of them show then, the run shows. -/
theorem run_seen {s : Setup} {P : Client → Prop} {Q : Action → Prop}
    (hstep : ∀ {c c' e seen}, Transition s c e c' seen → P c → P c' ∧ ∀ a ∈ seen, Q a)
    {c c' : Client} {es : List Step} {seen : List Action} (h : c.run s es = some (c', seen))
    (hc : P c) : P c' ∧ ∀ a ∈ seen, Q a :=
  Stepwise.run_seen (fun hnext => hstep (transition_of_step hnext)) h hc

/-- What every transition keeps, a run keeps. -/
theorem run_invariant {s : Setup} {P : Client → Prop}
    (hstep : ∀ {c c' e seen}, Transition s c e c' seen → P c → P c') {c c' : Client}
    {es : List Step} {seen : List Action} (h : c.run s es = some (c', seen)) (hc : P c) : P c' :=
  (run_seen (fun ht hc => ⟨hstep ht hc, fun _ _ => trivial⟩) h hc).1

end Client

end SpeechRelay.Link
