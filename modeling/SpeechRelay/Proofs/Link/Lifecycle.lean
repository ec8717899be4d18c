import Mathlib.Data.List.Induction
import SpeechRelay.Proofs.Link.Farewell

/-!
# The life of the link

Seen through the events that the client reports, the life of the link is a list of marks. A whole
life is made of attempts that failed and of sessions, each of which starts, brings chunks and ends
(`Whole`). In an unfinished one, the last session has not ended (`Unfinished`).

`follow` reads the marks one by one and knows only whether a session is open. It reads just the
whole and the unfinished lives (`whole_or_unfinished`, `follow_of_whole`, `follow_of_unfinished`).
What a step of the client reports can always be read on from where the client is
(`agrees_transition`), and a session is left open only by a client that has said goodbye
(`goodbye_mem_transition`).
-/

set_option autoImplicit false

namespace SpeechRelay

/-- What an event is in the life of the link. -/
inductive Mark where
  | opened
  | chunk
  | closed
  /-- No session could be started. -/
  | failed
  deriving DecidableEq

/-- The mark of an event. -/
def InboundEvent.mark : InboundEvent → Mark
  | .connected _ => .opened
  | .audio _ => .chunk
  | .disconnected _ => .closed
  | .connectError _ => .failed

namespace Lifecycle

/-- A session that has started and has brought that many chunks. -/
def session (chunks : Nat) : List Mark := .opened :: List.replicate chunks .chunk

/-- Failed attempts and sessions that have ended, one after the other. -/
inductive Whole : List Mark → Prop where
  | nil : Whole []
  | failed {marks : List Mark} (h : Whole marks) : Whole (marks ++ [.failed])
  | session {marks : List Mark} (h : Whole marks) (chunks : Nat) :
    Whole (marks ++ session chunks ++ [.closed])

/-- A whole life, and a session that has not ended. -/
def Unfinished (marks : List Mark) : Prop :=
  ∃ before chunks, Whole before ∧ marks = before ++ session chunks

/-! ## Reading marks -/

/-- Whether a session is open behind a mark, if the mark may stand there. -/
def next : Bool → Mark → Option Bool
  | false, .opened => some true
  | false, .failed => some false
  | true, .chunk => some true
  | true, .closed => some false
  | _, _ => none

/-- Whether a session is open behind marks, if they may stand there. -/
def follow (isOpen : Bool) : List Mark → Option Bool
  | [] => some isOpen
  | mark :: marks => (next isOpen mark).bind fun isOpen => follow isOpen marks

/-- Marks in two stretches are followed one stretch after the other. -/
theorem follow_append (isOpen : Bool) (marks more : List Mark) :
    follow isOpen (marks ++ more) = (follow isOpen marks).bind fun isOpen => follow isOpen more := by
  induction marks generalizing isOpen with
  | nil => rfl
  | cons mark marks ih =>
    rw [List.cons_append, follow, follow]
    cases next isOpen mark with
    | none => rfl
    | some isOpen => exact ih isOpen

/-- Marks that can be followed can be followed in two stretches. -/
theorem follow_append_eq_some {isOpen last : Bool} {marks more : List Mark}
    (h : follow isOpen (marks ++ more) = some last) :
    ∃ middle, follow isOpen marks = some middle ∧ follow middle more = some last := by
  rw [follow_append] at h
  exact Option.bind_eq_some_iff.mp h

/-- A session that has not ended leaves a session open. -/
theorem follow_session (chunks : Nat) : follow false (session chunks) = some true := by
  unfold session
  rw [follow]
  show follow true (List.replicate chunks .chunk) = some true
  induction chunks with
  | zero => rfl
  | succ chunks ih => exact ih

/-- A whole life can be followed, and no session is open behind it. -/
theorem follow_of_whole {marks : List Mark} (h : Whole marks) : follow false marks = some false := by
  induction h with
  | nil => rfl
  | failed h ih =>
    rw [follow_append, ih]
    rfl
  | session h chunks ih =>
    rw [follow_append, follow_append, ih, Option.bind_some, follow_session]
    rfl

/-- An unfinished life can be followed, and a session is open behind it. -/
theorem follow_of_unfinished {marks : List Mark} (h : Unfinished marks) :
    follow false marks = some true := by
  obtain ⟨before, chunks, hbefore, rfl⟩ := h
  rw [follow_append, follow_of_whole hbefore, Option.bind_some, follow_session]

/-- Marks that can be read are a whole or an unfinished life. -/
theorem whole_or_unfinished {marks : List Mark} {isOpen : Bool}
    (h : follow false marks = some isOpen) :
    (isOpen = false ∧ Whole marks) ∨ (isOpen = true ∧ Unfinished marks) := by
  -- On the marks from their end: the last one says what the life before it was.
  induction marks using List.reverseRecOn generalizing isOpen with
  | nil =>
    cases h
    exact Or.inl ⟨rfl, .nil⟩
  | append_singleton marks mark ih =>
    obtain ⟨middle, hmarks, hlast⟩ := follow_append_eq_some h
    rcases ih hmarks with ⟨rfl, hwhole⟩ | ⟨rfl, before, chunks, hbefore, rfl⟩
    · cases mark with
      | opened =>
        cases hlast
        exact Or.inr ⟨rfl, marks, 0, hwhole, rfl⟩
      | failed =>
        cases hlast
        exact Or.inl ⟨rfl, hwhole.failed⟩
      | chunk => cases hlast
      | closed => cases hlast
    · cases mark with
      | chunk =>
        cases hlast
        refine Or.inr ⟨rfl, before, chunks + 1, hbefore, ?_⟩
        rw [session, session, List.append_assoc, List.replicate_succ']
        rfl
      | closed =>
        cases hlast
        exact Or.inl ⟨rfl, hbefore.session chunks⟩
      | opened => cases hlast
      | failed => cases hlast

/-- A session is open just behind an unfinished life. -/
theorem follow_eq_true_iff {marks : List Mark} :
    follow false marks = some true ↔ Unfinished marks := by
  refine ⟨fun h => ?_, follow_of_unfinished⟩
  rcases whole_or_unfinished h with ⟨hopen, -⟩ | ⟨-, hunfinished⟩
  · cases hopen
  · exact hunfinished

end Lifecycle

namespace Link

open Lifecycle

/-! ## The client -/

/-- The event that is reported, if one is. -/
def Action.event? : Action → Option InboundEvent
  | .report e => some e
  | _ => none

/-- The marks of what the client reports. -/
def reported (seen : List Action) : List Mark :=
  (seen.filterMap Action.event?).map InboundEvent.mark

/-- Where nothing is seen, nothing is reported. -/
@[simp] theorem reported_nil : reported [] = [] := rfl

/-- A report has the mark of its event. -/
@[simp] theorem reported_report (e : InboundEvent) : reported [.report e] = [e.mark] := rfl

/-- Writing a transcript is no report. -/
@[simp] theorem reported_wrote (t : Transcript) (frame : String) :
    reported [.wrote t frame] = [] := rfl

/-- The goodbye is no report. -/
@[simp] theorem reported_wroteGoodbye : reported [.wroteGoodbye] = [] := rfl

/-- What is reported in two stretches is put together. -/
@[simp] theorem reported_append (seen more : List Action) :
    reported (seen ++ more) = reported seen ++ reported more := by
  unfold reported
  rw [List.filterMap_append, List.map_append]

/-- In a session there is one open, and before one there is none. -/
def Phase.Agrees (p : Phase) (isOpen : Bool) : Prop :=
  (p.inSession → isOpen = true) ∧ (p.mayConnect → isOpen = false)

namespace Client

variable {s : Setup} {c c' : Client} {e : Step} {seen : List Action}

/-- A text reports a chunk at most. -/
theorem reported_onText (s : Setup) (text : String) :
    reported (onText s text) = [] ∨ reported (onText s text) = [.chunk] := by
  unfold onText
  split
  · exact Or.inr rfl
  · exact Or.inl rfl
  · exact Or.inl rfl

/-- The end of the client is noted and not reported. -/
theorem reported_halt (count : Nat) :
    reported ((if count = 0 then [] else [.note (.undelivered count)]) ++ [.note .clientStopped]) =
      [] := by
  split <;> rfl

/-- What a step reports can be read on from where the client is. -/
theorem agrees_transition (h : Transition s c e c' seen) {isOpen : Bool}
    (hc : c.phase.Agrees isOpen) :
    ∃ after, follow isOpen (reported seen) = some after ∧ c'.phase.Agrees after := by
  cases h with
  | writeFailed p q stop why h =>
    have hopen : isOpen = true := hc.1 (by cases p <;> simp_all [Phase.isWriting, Phase.inSession])
    subst hopen
    exact ⟨false, rfl, fun h => (by cases h), fun _ => rfl⟩
  | receivedText q stop text =>
    have hopen : isOpen = true := hc.1 rfl
    subst hopen
    rcases reported_onText s text with hnone | hchunk
    · exact ⟨true, by rw [hnone]; rfl, hc⟩
    · exact ⟨true, by rw [hchunk]; rfl, hc⟩
  | halt count q stop h =>
    refine ⟨isOpen, ?_, fun h => (by cases h), fun h => (by cases h)⟩
    rw [reported_halt]
    rfl
  | _ =>
    cases isOpen <;> simp_all [Phase.Agrees, Phase.inSession, Phase.mayConnect,
      InboundEvent.mark, follow, next]

/-- A step that leaves a session open for good says goodbye. -/
theorem goodbye_mem_transition (h : Transition s c e c' seen) (hc : c.phase.Agrees true)
    (hbefore : c.phase.isOver = false) (hafter : c'.phase.isOver) : .wroteGoodbye ∈ seen := by
  cases h with
  | writtenGoodbye q stop => exact List.mem_cons_self
  | _ => simp_all [Phase.Agrees, Phase.isOver, Phase.mayConnect]

/-- Getting over is not reported, however the client gets there. -/
theorem reported_of_isOver (h : Transition s c e c' seen) (hafter : c'.phase.isOver) :
    reported seen = [] := by
  cases h with
  | halt count q stop h => exact reported_halt count
  | _ => simp_all [Phase.isOver]

end Client

end Link

end SpeechRelay
