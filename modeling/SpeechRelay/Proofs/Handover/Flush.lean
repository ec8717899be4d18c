import SpeechRelay.Proofs.Handover.Basic

/-!
# The last transcripts reach the gateway

When the stop signal is given in a session, the feeder may be anywhere: its last transcripts may be
offered before the client starts to drain the queue, while it does so, or between two of its writes.
If no write fails and the client drains the queue to its end, all of them are written in this
session before the goodbye (`flushed_before_goodbye`).

What has been written before a moment, what the client holds then, and what the feeder adds to it
later are the three parts of what the queue accepts in all. The run up to the moment gives the first
two (`Link.Client.accepted_eq_written_append_held`), the whole run that everything has been written
(`Link.Client.written_of_queueFinished`).
-/

set_option autoImplicit false

namespace SpeechRelay.Handover

open Audio Feeder Link.Client

variable {σ ω : Type}

/-- At the start the feeder has an end of the queue. -/
theorem holding_start (f : Feeder σ TranscriptQueue ω) : (start f).Holding := by
  show (1 : Nat) = 0 ↔ false = true
  decide

/-- From a moment on at which the stop signal is given in a session, in whatever order the client and
the feeder go on: if no write fails and the client drains its queue until it is finished, then
it writes in this session what it held, and behind that what the queue still accepts from the feeder,
with the transcript of the flush. All of it is written before the only goodbye, and nothing is left
to be counted. -/
theorem flushed_before_goodbye (s : Setup σ ω) (f : Feeder σ TranscriptQueue ω)
    {before after : List Move} {mid final : Handover σ ω} {early late : List Link.Action}
    (hbefore : (start f).run s before = some (mid, early))
    (hafter : mid.run s after = some (final, late))
    (hstop : mid.client.stopRequested) (hsession : mid.client.phase.inSession)
    (hwrites : ∀ why, .link (.writeFailed why) ∉ before ++ after)
    (hfinished : .link .queueFinished ∈ after) :
    final.task.isGone ∧
    mid.accepted = written early ++ mid.client.held ∧
    (∃ new, final.accepted = mid.accepted ++ new ∧
      written late = mid.client.held ++ new ∧
      ∀ t, final.task.last? = some t → mid.task.last? = some t ∨ t ∈ new) ∧
    (∀ peer, .report (.connected peer) ∉ late) ∧
    .wroteGoodbye ∉ early ∧
    (∀ x y, late = x ++ .wroteGoodbye :: y →
      written x = written late ∧ .wroteGoodbye ∉ x ∧ ∀ a ∈ y, a.isWrite = false) ∧
    (final.client.phase = .closing ∨ .wroteGoodbye ∈ late) ∧
    final.client.queue.waiting = [] ∧ undelivered (early ++ late) = 0 ∧
    final.client.phase.counted = 0 := by
  obtain ⟨es, offers, hmid⟩ := mirrored_run (holding_start f) hbefore
  obtain ⟨es', offers', hfinal⟩ := mirrored_run hmid.holding hafter
  have hrun : Link.Client.create.run s.link es = some (mid.client, early) := hmid.client
  have hall : Link.Client.create.run s.link (es ++ es') = some (final.client, early ++ late) :=
    Stepwise.run_append_eq_some.mpr ⟨_, _, _, hrun, hfinal.client, rfl⟩
  have hearly : ∀ why, Link.Step.writeFailed why ∉ es := fun why hmem =>
    hwrites why (List.mem_append_left _ ((hmid.own _ rfl).mp hmem))
  have hlate : ∀ why, Link.Step.writeFailed why ∉ es' := fun why hmem =>
    hwrites why (List.mem_append_right _ ((hfinal.own _ rfl).mp hmem))
  have hfail : ∀ why, Link.Step.writeFailed why ∉ es ++ es' := fun why hmem =>
    (List.mem_append.mp hmem).elim (hearly why) (hlate why)
  have hopen := Link.Phase.isOver_eq_false_of_inSession hsession
  -- What the queue has accepted, up to the moment and behind it.
  have hmidAccepted : mid.accepted = Link.Client.accepted s.link .create es := by
    rw [accepted, hmid.offers]
    exact hmid.accepted.symm
  have hfinalAccepted : final.accepted = mid.accepted ++ Feeder.accepted offers' := by
    rw [accepted, hfinal.offers, accepted_append]
    rfl
  have hkept := accepted_eq_written_append_held hrun hearly hopen
  obtain ⟨hdone, hwritten, hcounted, hgoodbye⟩ := written_of_queueFinished hall hfail
    (List.mem_append_right _ ((hfinal.own _ rfl).mpr hfinished))
  have hlateWritten : written late = mid.client.held ++ Feeder.accepted offers' := by
    have hnew : mid.client.accepted s.link es' = Feeder.accepted offers' := hfinal.accepted
    rw [written_append, Link.Client.accepted, along_append _ hrun] at hwritten
    rw [← hnew]
    have hsum : written early ++ written late =
        (written early ++ mid.client.held) ++ mid.client.accepted s.link es' := by
      rw [← hkept]
      exact hwritten
    rw [List.append_assoc] at hsum
    exact List.append_cancel_left hsum
  have hnone := goodbye_not_mem hrun hopen
  refine ⟨hfinal.holding.mp hdone.senders, hmidAccepted.trans hkept,
    ⟨_, hfinalAccepted, hlateWritten, hfinal.last⟩, ?_, hnone, ?_, ?_, hdone.waiting, hcounted, ?_⟩
  · intro peer hmem
    have hretiring := retiring_of_inSession hstop hsession
    exact (no_session_run hfinal.client hretiring).2 _ hmem peer rfl
  · intro x y heq
    subst heq
    obtain ⟨hfirst, hrest⟩ := goodbye_once hfinal.client
    refine ⟨?_, hfirst, hrest⟩
    have hnothing : written (.wroteGoodbye :: y) = [] :=
      (List.filterMap_cons_none rfl).trans (written_eq_nil hrest)
    rw [written_append, hnothing, List.append_nil]
  · refine hgoodbye.imp_right fun hmem => ?_
    exact (List.mem_append.mp hmem).resolve_left hnone
  · rcases hdone.phase with hphase | hphase | hphase <;> rw [hphase] <;> rfl

/-- The stop signal is given while the feeder is in a round and the client is writing; the round
ends when the client drains already, and the flush comes when the queue has been empty once. -/
theorem flushed_before_goodbye_three :
    let script : Recognizer Nat :=
      { name := "scripted"
        accept := fun _ n => (.ok true, n + 1)
        result := fun n => (.ok (if n = 1 then "[\"un\"]" else "[\"deux\"]"), n)
        partialResult := fun n => (.ok "[\"\"]", n)
        finalResult := fun n => (.ok "[\"trois\"]", n) }
    let s : Setup Nat Disk :=
      ⟨⟨"ws://relay", "audio", "text"⟩,
        ⟨.stereo, 8, true, script, TranscriptQueue.outlet, Disk.medium⟩, rfl⟩
    let f : Feeder Nat TranscriptQueue Disk :=
      .create 0 .create (.file []) (.create ⟨4, 4, [], by decide⟩)
    let r : Reading := ⟨⟨0⟩, ⟨0, 0⟩, 0⟩
    let before : List Move :=
      [.link .look, .link .connected, .settle (.append [1, 0, 3, 0]), .listen, .conclude r,
        .link .take, .listen, .link .cancel]
    let after : List Move :=
      [.link .written, .link .noticeStop, .conclude r, .link .take, .leave, .link .written, .flush r,
        .drop, .link .take, .link .written, .link .queueFinished, .link .written, .link .discard]
    ∃ mid final early late, (start f).run s before = some (mid, early) ∧
      mid.run s after = some (final, late) ∧ mid.client.held.map Transcript.text = ["un"] ∧
      final.task.last?.map Transcript.text = some "trois" ∧
      (∃ new, written late = mid.client.held ++ new ∧
        new.map Transcript.text = ["deux", "trois"] ∧
        ∀ t, final.task.last? = some t → t ∈ new) ∧
      .wroteGoodbye ∈ late := by
  intro script s f r before after
  have hends : ((start f).run s before).map (fun m =>
      (m.1.client.stopRequested, m.1.client.phase.inSession, m.1.task.last?.isNone,
        m.1.client.held.map Transcript.text)) = some (true, true, true, ["un"]) ∧
      (((start f).run s before).bind fun m => m.1.run s after).map (fun m =>
        (m.1.task.last?.map Transcript.text, m.1.client.phase,
          (written m.2).map Transcript.text)) =
        some (some "trois", .stopped, ["un", "deux", "trois"]) := by
    decide +kernel
  obtain ⟨⟨mid, early⟩, hbefore, hmid⟩ := Option.map_eq_some_iff.mp hends.1
  obtain ⟨⟨final, late⟩, hafter, hfinal⟩ := Option.map_eq_some_iff.mp hends.2
  rw [hbefore] at hafter
  simp only [Prod.mk.injEq] at hmid hfinal
  obtain ⟨hstop, hsession, hlast, hheld⟩ := hmid
  obtain ⟨hemitted, hphase, htexts⟩ := hfinal
  obtain ⟨-, -, ⟨new, -, hwritten, hnew⟩, -, -, -, hgoodbye, -⟩ := flushed_before_goodbye s f hbefore
    hafter hstop hsession (fun why => by simp [before, after]) (by simp [after])
  refine ⟨mid, final, early, late, hbefore, hafter, hheld, hemitted, ⟨new, hwritten, ?_, ?_⟩, ?_⟩
  · rw [hwritten, List.map_append, hheld] at htexts
    exact (List.cons_eq_cons.mp htexts).2
  · intro t ht
    refine (hnew t ht).resolve_left fun hmem => ?_
    rw [hmem] at hlast
    cases hlast
  · refine hgoodbye.resolve_left fun hclosing => ?_
    rw [hphase] at hclosing
    cases hclosing

end SpeechRelay.Handover
