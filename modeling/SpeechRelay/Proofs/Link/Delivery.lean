import SpeechRelay.Proofs.Link.Farewell
import SpeechRelay.Proofs.Link.Fates

/-!
# Delivery to the gateway

What a client writes over all its sessions is, in order, among what its queue accepted, and nothing
follows its goodbye (`written_in_order`). Once the client has stopped, every accepted transcript
has been written, counted as not delivered, or lost: a transcript that has been taken from the
queue is gone if writing it fails, so that the account is complete if and only if no such write
failed (`accounted_iff_none_lost`).
-/

set_option autoImplicit false

namespace SpeechRelay.Link.Client

variable {s : Setup} {c c' : Client} {e : Step} {es : List Step} {seen : List Action}

/-! ## In order and at most once -/

/-- What a step writes of a transcript is its frame. -/
theorem frame_transition (h : Transition s c e c' seen) :
    ∀ a ∈ seen, ∀ t frame, a = .wrote t frame → frame = t.frame s.transcriptEvent := by
  intro a hmem t frame ha
  subst ha
  cases h with
  | written => simp_all
  | writtenLast => simp_all
  | receivedText q stop text =>
    unfold onText at hmem
    split at hmem <;> simp at hmem
  | halt count => by_cases hcount : count = 0 <;> simp [hcount] at hmem
  | _ => simp at hmem

/-- The client never writes a transcript again, whether it had been written or had failed to be, nor
one before another that was accepted earlier; and what it writes are the frames of the transcripts.
It says goodbye only after the stop signal was given, at most once, and writes nothing after that.
-/
theorem written_in_order (h : create.run s es = some (c, seen)) :
    (written seen).Sublist (attempted (departures s create es)) ∧
    (attempted (departures s create es)).Sublist (accepted s create es) ∧
    (((accepted s create es).map Transcript.id).Nodup →
      ((written seen).map Transcript.id).Nodup) ∧
    (∀ t frame, .wrote t frame ∈ seen → frame = t.frame s.transcriptEvent) ∧
    ∀ before after, seen = before ++ .wroteGoodbye :: after →
      (∃ early late, es = early ++ .written :: late ∧
        (create.run s early).map Prod.snd = some before ∧ .cancel ∈ early) ∧
      .wroteGoodbye ∉ before ∧ ∀ a ∈ after, a.isWrite = false := by
  have hbalance := balance_run h
  have hkept : accepted s create es = (departures s create es).map Prod.fst ++ c.held :=
    hbalance.kept
  have hwritten : (written seen).Sublist (attempted (departures s create es)) := by
    rw [hbalance.written]
    exact withFate_written_sublist _
  have hattempted : (attempted (departures s create es)).Sublist (accepted s create es) := by
    rw [hkept]
    exact (attempted_sublist _).trans (List.sublist_append_left _ _)
  refine ⟨hwritten, hattempted, ((hwritten.trans hattempted).map Transcript.id).nodup, ?_, ?_⟩
  · intro t frame hmem
    have hframes := run_seen (P := fun _ => True) (fun ht _ => ⟨trivial, frame_transition ht⟩) h
      trivial
    exact hframes.2 _ hmem t frame rfl
  · rintro before after rfl
    obtain ⟨early, late, closing, last, rfl, hearly, hclosing, hover, hlate⟩ := run_goodbye h
    -- Only a client that has seen the stop signal gets to the goodbye.
    have hasked : closing.stopRequested := by
      apply run_invariant (P := fun c => c.phase.isStopping → c.stopRequested)
        isStopping_transition hearly
      · intro hstart
        cases hstart
      · rw [hclosing]
        rfl
    refine ⟨⟨early, late, rfl, ?_, ?_⟩, ?_, (isOver_run hlate hover).2⟩
    · rw [hearly]
      rfl
    · refine (cancel_mem_of_stopRequested hearly hasked).resolve_left ?_
      simp [create]
    · -- A goodbye before would have been the end already.
      intro hmem
      obtain ⟨first, rest, rfl⟩ := List.append_of_mem hmem
      obtain ⟨-, later, -, last, -, -, -, hover', hrest⟩ := run_goodbye hearly
      have hend := (isOver_run hrest hover').1
      rw [hclosing] at hend
      cases hend

/-- A transcript is written in a first session, another one is lost at its end, and a third one goes
out before the goodbye of a second session. -/
theorem written_in_order_twice :
    let s : Setup := ⟨"ws://gateway", "audio", "transcript"⟩
    let t (n : Nat) : Transcript := ⟨⟨BitVec.ofNat 128 n⟩, "text", ⟨0, 0⟩, 0⟩
    let es : List Step :=
      [.look, .connected, .emit (t 1), .emit (t 2), .take, .written, .take, .writeFailed .cut,
        .pauseOver, .look, .emit (t 3), .connected, .cancel, .noticeStop, .take, .written,
        .closeQueue, .queueFinished, .written, .discard]
    ∃ c seen, create.run s es = some (c, seen) ∧ accepted s create es = [t 1, t 2, t 3] ∧
      written seen = [t 1, t 3] ∧ (written seen).Sublist (attempted (departures s create es)) := by
  intro s t es
  have hrun : create.run s es = some _ := rfl
  exact ⟨_, _, hrun, rfl, rfl, (written_in_order hrun).1⟩

/-! ## What is accounted for at the end -/

/-- A client that has stopped holds nothing, and its queue accepts nothing. -/
def Released (c : Client) : Prop :=
  c.phase = .stopped → c.queue.waiting = [] ∧ c.queue.receiving = false

/-- A client that stops lets go of all it holds, and a stopped one gets nothing more. -/
theorem released_transition (h : Transition s c e c' seen) (hc : c.Released) : c'.Released := by
  intro hstopped
  cases h with
  | emit c t =>
    obtain ⟨hwaiting, hreceiving⟩ := hc hstopped
    simp [TranscriptQueue.emit, hwaiting, hreceiving]
  | closeQueue => exact hc hstopped
  | cancel => exact hc hstopped
  | halt => exact ⟨rfl, rfl⟩
  | _ => cases hstopped

/-- When the client has stopped, each accepted transcript has left in one of three ways: it was
written, it was lost with a write that failed, or it is one of those noted as not delivered. So all
that are not written are noted if and only if no write of a transcript failed. -/
theorem accounted_iff_none_lost (h : create.run s es = some (c, seen)) (hc : c.phase = .stopped) :
    let left := departures s create es
    accepted s create es = left.map Prod.fst ∧
    written seen = withFate .written left ∧
    undelivered seen = (withFate .counted left).length ∧
    ((∃ noted : List Transcript, noted.length = undelivered seen ∧
      (accepted s create es).Perm (written seen ++ noted)) ↔ withFate .lost left = []) := by
  intro left
  have hbalance := balance_run h
  have hreleased : c.queue.waiting = [] ∧ c.queue.receiving = false :=
    run_invariant (P := Released) released_transition h (fun hstart => by cases hstart) hc
  have hheld : c.held = [] := by simp [held, hc, hreleased.1, Phase.inHand]
  have haccepted : accepted s create es = left.map Prod.fst := by
    have hkept := hbalance.kept
    rw [hheld, List.append_nil] at hkept
    exact hkept
  have hcounted : undelivered seen = (withFate .counted left).length := by
    have hcount := hbalance.counted
    simp only [hc, Phase.counted, create, Nat.zero_add, Nat.add_zero] at hcount
    exact hcount.symm
  have hwritten : written seen = withFate .written left := hbalance.written
  have hways := perm_withFate left
  refine ⟨haccepted, hwritten, hcounted, ?_, ?_⟩
  · -- By their numbers, the transcripts that are noted leave no room for lost ones.
    rintro ⟨noted, hlength, hperm⟩
    have hfirst := hperm.length_eq
    have hsecond := hways.length_eq
    rw [haccepted, hwritten] at hfirst
    simp only [List.length_append] at hfirst hsecond
    apply List.eq_nil_of_length_eq_zero
    omega
  · intro hnone
    refine ⟨withFate .counted left, hcounted.symm, ?_⟩
    rw [hnone, List.append_nil] at hways
    rw [haccepted, hwritten]
    exact hways

/-- Of three transcripts one is written, one is lost at the end of the session, and one is left. -/
theorem accounted_iff_none_lost_three :
    let s : Setup := ⟨"ws://gateway", "audio", "transcript"⟩
    let t (n : Nat) : Transcript := ⟨⟨BitVec.ofNat 128 n⟩, "text", ⟨0, 0⟩, 0⟩
    let es : List Step :=
      [.look, .connectFailed .cut, .pauseOver, .look, .connected, .emit (t 1), .emit (t 2), .take,
        .written, .take, .writeFailed .cut, .emit (t 3), .cancel, .closeQueue, .noticeStop,
        .discard, .discard]
    ∃ c seen, create.run s es = some (c, seen) ∧ c.phase = .stopped ∧ written seen = [t 1] ∧
      undelivered seen = 1 ∧ withFate .lost (departures s create es) = [t 2] ∧
      ¬ ∃ noted : List Transcript, noted.length = undelivered seen ∧
        (accepted s create es).Perm (written seen ++ noted) := by
  intro s t es
  have hrun : create.run s es = some _ := rfl
  refine ⟨_, _, hrun, rfl, rfl, rfl, rfl, fun hnoted => ?_⟩
  have hlost := (accounted_iff_none_lost hrun rfl).2.2.2.mp hnoted
  cases hlost

/-- Not all that is accepted is written or noted as not delivered: a client that takes a transcript
before it sees that the session was cut forgets it, though it connects again before it is stopped.
-/
theorem not_all_accounted :
    let s : Setup := ⟨"ws://gateway", "audio", "transcript"⟩
    let t : Transcript := ⟨⟨0⟩, "q", ⟨0, 0⟩, 0⟩
    let es : List Step :=
      [.look, .connected, .emit t, .take, .writeFailed .cut, .pauseOver, .look, .connected, .cancel,
        .closeQueue, .noticeStop, .queueFinished, .written, .discard]
    ∃ c seen, create.run s es = some (c, seen) ∧ c.phase = .stopped ∧
      accepted s create es = [t] ∧ written seen = [] ∧ undelivered seen = 0 := by
  intro s t es
  exact ⟨_, _, rfl, rfl, rfl, rfl, rfl⟩

end SpeechRelay.Link.Client
