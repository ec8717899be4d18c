import SpeechRelay.Proofs.Link.Farewell
import SpeechRelay.Proofs.Link.Fates

/-!
# A queue that is drained

A client that was told to stop in a session takes what is in the queue and what still comes into it
until the queue is finished: nothing waits, and nobody is left who could add anything. If no write
fails, all that the queue has accepted has been written by then, and nothing is left to be counted
(`written_of_queueFinished`). And once a client has been told to stop, it opens no other session
(`no_session_run`).
-/

set_option autoImplicit false

namespace SpeechRelay.Link.Client

variable {s : Setup} {c c' : Client} {e : Step} {es : List Step} {seen : List Action}

/-! ## No other session -/

/-- The client was told to stop, and is not on the way into a session. -/
def Retiring (c : Client) : Prop := c.stopRequested ∧ c.phase ≠ .connecting

/-- A client in a session that was told to stop is retiring. -/
theorem retiring_of_inSession (hstop : c.stopRequested) (hin : c.phase.inSession) :
    c.Retiring := by
  refine ⟨hstop, fun hphase => ?_⟩
  rw [hphase] at hin
  cases hin

/-- A retiring client stays so and opens no session with any step. -/
theorem no_session_transition (h : Transition s c e c' seen) (hc : c.Retiring) :
    c'.Retiring ∧ ∀ a ∈ seen, ∀ peer, a ≠ .report (.connected peer) := by
  obtain ⟨hstop, hphase⟩ := hc
  cases h with
  | connected => exact absurd rfl hphase
  | start => cases hstop
  | receivedText q stop text =>
    refine ⟨⟨hstop, hphase⟩, fun a hmem peer ha => ?_⟩
    subst ha
    unfold onText at hmem
    split at hmem <;> simp at hmem
  | halt count => by_cases hcount : count = 0 <;> simp_all [Retiring]
  | _ => simp_all [Retiring]

/-- A retiring client opens no session in any run. -/
theorem no_session_run (h : c.run s es = some (c', seen)) (hc : c.Retiring) :
    c'.Retiring ∧ ∀ a ∈ seen, ∀ peer, a ≠ .report (.connected peer) :=
  run_seen no_session_transition h hc

/-! ## Up to the end of the queue -/

/-- Only a write that fails loses a transcript. -/
theorem withFate_lost_eq_nil (c : Client) (h : ∀ why, .writeFailed why ∉ es) :
    withFate .lost (departures s c es) = [] := by
  induction es generalizing c with
  | nil => rfl
  | cons e es ih =>
    have hrest : ∀ why, Step.writeFailed why ∉ es := fun why hmem =>
      h why (List.mem_cons_of_mem e hmem)
    rw [departures, along]
    cases hstep : c.step s e with
    | none => rfl
    | some moved =>
      have hfirst : withFate .lost (c.departing e) = [] := by
        cases e with
        | writeFailed why => exact absurd List.mem_cons_self (h why)
        | written => simp [departing, withFate]
        | discard => simp [departing, withFate]
        | _ => rfl
      rw [withFate_append, hfirst]
      exact ih moved.1 hrest

/-- Nothing is noted as not delivered before the client counts what is left. -/
theorem undelivered_transition (h : Transition s c e c' seen) (hc' : c'.phase.isOver = false) :
    undelivered seen = 0 := by
  cases h with
  | receivedText q stop text =>
    unfold onText
    split <;> rfl
  | halt => cases hc'
  | _ => rfl

/-- Nothing is noted as not delivered before the client is over. -/
theorem undelivered_run (h : c.run s es = some (c', seen)) (hc' : c'.phase.isOver = false) :
    undelivered seen = 0 := by
  induction es generalizing c seen with
  | nil =>
    cases h
    rfl
  | cons e es ih =>
    obtain ⟨next, now, later, hnext, hrun, rfl⟩ := Stepwise.run_cons_eq_some.mp h
    have hopen : next.phase.isOver = false := by
      by_contra hover
      have hend := (isOver_run hrun (by simpa using hover)).1
      rw [hc'] at hend
      cases hend
    rw [undelivered_append, undelivered_transition (transition_of_step hnext) hopen, ih hrun]

/-- If no transcript was lost or counted, all that left were written. -/
theorem map_fst_eq_withFate_written {left : List (Transcript × Fate)}
    (hlost : withFate .lost left = []) (hcounted : withFate .counted left = []) :
    left.map Prod.fst = withFate .written left := by
  have hall : ∀ departure ∈ left, departure.2 = .written := by
    intro departure hmem
    obtain ⟨t, fate⟩ := departure
    have hfate : t ∈ withFate fate left :=
      List.mem_map.mpr ⟨(t, fate), List.mem_filter.mpr ⟨hmem, by simp⟩, rfl⟩
    cases fate with
    | written => rfl
    | lost =>
      rw [hlost] at hfate
      cases hfate
    | counted =>
      rw [hcounted] at hfate
      cases hfate
  rw [withFate, List.filter_eq_self.mpr]
  intro departure hmem
  exact decide_eq_true (hall departure hmem)

/-- As long as no write fails and nothing is counted, what the queue has accepted is what has been
written and what the client still holds. -/
theorem accepted_eq_written_append_held (h : create.run s es = some (c, seen))
    (hfail : ∀ why, .writeFailed why ∉ es) (hopen : c.phase.isOver = false) :
    accepted s create es = written seen ++ c.held := by
  have hbalance := balance_run h
  have hcounting : c.phase.counted = 0 := by
    cases hphase : c.phase with
    | discarding count =>
      rw [hphase] at hopen
      cases hopen
    | _ => rfl
  have hcounted : withFate .counted (departures s create es) = [] := by
    have hnumber := hbalance.counted
    rw [undelivered_run h hopen, hcounting] at hnumber
    exact List.eq_nil_of_length_eq_zero (by simpa [create, Phase.counted] using hnumber)
  have hkept : accepted s create es = _ := hbalance.kept
  rw [hkept, map_fst_eq_withFate_written (withFate_lost_eq_nil create hfail) hcounted,
    hbalance.written]

/-! ## Behind the end of the queue -/

/-- The queue is finished, and the client is on the way from there to its end. -/
structure Finished (c : Client) : Prop where
  waiting : c.queue.waiting = []
  senders : c.queue.senders = 0
  phase : c.phase = .closing ∨ c.phase = .discarding 0 ∨ c.phase = .stopped

/-- Once the queue is finished, a step writes no transcript, and leaves closing only with the
goodbye. -/
theorem finished_transition (h : Transition s c e c' seen) (hc : c.Finished)
    (hfail : ∀ why, e ≠ .writeFailed why) :
    c'.Finished ∧ c.arriving e = [] ∧ written seen = [] ∧ undelivered seen = 0 ∧
      (c.phase = .closing → c'.phase = .closing ∨ .wroteGoodbye ∈ seen) := by
  obtain ⟨hwaiting, hsenders, hphase⟩ := hc
  cases h with
  | emit c t hopen => exact absurd hsenders hopen
  | closeQueue => exact ⟨⟨hwaiting, rfl, hphase⟩, rfl, rfl, rfl, Or.inl⟩
  | cancel => exact ⟨⟨hwaiting, hsenders, hphase⟩, rfl, rfl, rfl, Or.inl⟩
  | writtenGoodbye q stop =>
    exact ⟨⟨hwaiting, hsenders, Or.inr (Or.inl rfl)⟩, rfl, rfl, rfl,
      fun _ => Or.inr List.mem_cons_self⟩
  | writeFailed p q stop why => exact absurd rfl (hfail why)
  | halt count q stop h =>
    -- Nothing has been counted, so that nothing is noted about it.
    have hcount : count = 0 := by simpa using hphase
    subst hcount
    exact ⟨⟨rfl, hsenders, Or.inr (Or.inr rfl)⟩, rfl, rfl, rfl, fun hclosing => by cases hclosing⟩
  | discard count q stop t ts h => simp [h] at hwaiting
  | _ => simp at hphase

/-- Once the queue is finished, a run without failed writes writes no transcript, and leaves closing
only with the goodbye. -/
theorem finished_run (h : c.run s es = some (c', seen)) (hc : c.Finished)
    (hfail : ∀ why, .writeFailed why ∉ es) :
    c'.Finished ∧ c.accepted s es = [] ∧ written seen = [] ∧ undelivered seen = 0 ∧
      (c.phase = .closing → c'.phase = .closing ∨ .wroteGoodbye ∈ seen) := by
  induction es generalizing c seen with
  | nil =>
    cases h
    exact ⟨hc, rfl, rfl, rfl, Or.inl⟩
  | cons e es ih =>
    obtain ⟨next, now, later, hnext, hrun, rfl⟩ := Stepwise.run_cons_eq_some.mp h
    obtain ⟨hfinished, harriving, hwritten, hcounted, hgoodbye⟩ :=
      finished_transition (transition_of_step hnext) hc
        (fun why he => hfail why (he ▸ List.mem_cons_self))
    obtain ⟨hend, haccepted, hwritten', hcounted', hgoodbye'⟩ :=
      ih hrun hfinished fun why hmem => hfail why (List.mem_cons_of_mem e hmem)
    refine ⟨hend, ?_, ?_, ?_, ?_⟩
    · rw [accepted, along_cons _ hnext, harriving]
      exact haccepted
    · rw [written_append, hwritten, hwritten']
      rfl
    · rw [undelivered_append, hcounted, hcounted']
    · intro hclosing
      rcases hgoodbye hclosing with hnext | hmem
      · exact (hgoodbye' hnext).imp_right (List.mem_append_right _)
      · exact Or.inr (List.mem_append_left _ hmem)

/-- A goodbye is the only one, and nothing is written behind it. -/
theorem goodbye_once {before after : List Action}
    (h : c.run s es = some (c', before ++ .wroteGoodbye :: after)) :
    .wroteGoodbye ∉ before ∧ ∀ a ∈ after, a.isWrite = false := by
  obtain ⟨early, late, closing, last, -, hearly, hclosing, hover, hlate⟩ := run_goodbye h
  have hopen : closing.phase.isOver = false := by
    rw [hclosing]
    rfl
  exact ⟨goodbye_not_mem hearly hopen, (isOver_run hlate hover).2⟩

/-- Where nothing is written to the session, no transcript is. -/
theorem written_eq_nil (h : ∀ a ∈ seen, a.isWrite = false) : written seen = [] := by
  apply List.filterMap_eq_nil_iff.mpr
  intro a hmem
  cases a with
  | wrote t frame => cases h _ hmem
  | _ => rfl

/-- If no write fails and the client has seen the end of the queue, then everything that the queue
has accepted has been written, in this order, the client is closing or has said goodbye, and it
finds nothing to count. -/
theorem written_of_queueFinished (h : create.run s es = some (c, seen))
    (hfail : ∀ why, .writeFailed why ∉ es) (hfinished : .queueFinished ∈ es) :
    c.Finished ∧ written seen = accepted s create es ∧ undelivered seen = 0 ∧
      (c.phase = .closing ∨ .wroteGoodbye ∈ seen) := by
  obtain ⟨early, late, rfl⟩ := List.append_of_mem hfinished
  obtain ⟨draining, now, later, hearly, hrest, rfl⟩ := Stepwise.run_append_eq_some.mp h
  obtain ⟨closing, first, rest, hstep, hlate, rfl⟩ := Stepwise.run_cons_eq_some.mp hrest
  have hfailEarly : ∀ why, Step.writeFailed why ∉ early := fun why hmem =>
    hfail why (List.mem_append_left _ hmem)
  have hfailLate : ∀ why, Step.writeFailed why ∉ late := fun why hmem =>
    hfail why (List.mem_append_right _ (List.mem_cons_of_mem _ hmem))
  -- When the queue is finished, the client holds nothing.
  have hstart := transition_of_step hstep
  have hsplit : draining.held = [] ∧ draining.phase.isOver = false ∧
      closing.Finished ∧ closing.phase = .closing ∧ first = [] ∧
      draining.arriving .queueFinished = [] := by
    cases hstart with
    | queueFinished q stop hwaiting hsenders =>
      exact ⟨by simp [held, Phase.inHand, hwaiting], rfl,
        ⟨hwaiting, hsenders, Or.inl rfl⟩, rfl, rfl, rfl⟩
  obtain ⟨hheld, hopen, hclosing, hphase, rfl, harriving⟩ := hsplit
  have hearlyWritten : written now = accepted s create early := by
    rw [accepted_eq_written_append_held hearly hfailEarly hopen, hheld, List.append_nil]
  -- Behind that nothing is accepted, written or counted any more.
  obtain ⟨hend, haccepted, hwritten, hnoted, hgoodbye⟩ := finished_run hlate hclosing hfailLate
  refine ⟨hend, ?_, ?_, ?_⟩
  · have hall : accepted s create (early ++ .queueFinished :: late) = accepted s create early := by
      rw [accepted, along_append _ hearly, along_cons _ hstep, harriving]
      show _ ++ ([] ++ accepted s closing late) = _
      rw [haccepted]
      exact List.append_nil _
    rw [written_append, hearlyWritten, hall, List.nil_append, hwritten, List.append_nil]
  · rw [undelivered_append, undelivered_run hearly hopen, List.nil_append, hnoted]
  · exact (hgoodbye hphase).imp_right (List.mem_append_right _)

end SpeechRelay.Link.Client
