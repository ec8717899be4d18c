import SpeechRelay.Proofs.Feeder.Bookkeeping
import SpeechRelay.Proofs.Link.Lifecycle
import SpeechRelay.Proofs.Relay.Basic
import SpeechRelay.Recognizer.Backend
import SpeechRelay.Status.Report

/-!
# The link as the counters show it

What the client reports takes effect on the counters bit by bit, while the feeder counts what it
does. At every moment the counters agree with the life of the link as far as it has taken effect:
they say that the link is up if and only if a session is open in it, and then there was one more
connect than disconnects (`Consistent`). Only audio lets the buffer and the number of chunks grow,
and it takes effect only in a session.

The invariant ties three things together: the reports of the client are what has taken effect and
what is pending; what has taken effect leads to what the counters say; and all reports lead to the
phase of the client. A move of the client adds to the last, an effect moves from the second to the
first, and a round of the feeder touches none of them (`consistent_step`).
-/

set_option autoImplicit false

namespace SpeechRelay

open Lifecycle

/-! ## What the feeder leaves alone -/

namespace Counters

/-- What is counted about the link is the same. -/
structure SameLink (c d : Counters) : Prop where
  connection : d.connection = c.connection
  connects : d.connects = c.connects
  disconnects : d.disconnects = c.disconnects
  connectErrors : d.connectErrors = c.connectErrors
  chunksIngested : d.chunksIngested = c.chunksIngested

/-- Counters have the same link as themselves. -/
theorem SameLink.refl (c : Counters) : SameLink c c := ⟨rfl, rfl, rfl, rfl, rfl⟩

/-- The link stays the same over two stretches. -/
theorem SameLink.trans {c d e : Counters} (hfirst : SameLink c d) (hsecond : SameLink d e) :
    SameLink c e where
  connection := hsecond.connection.trans hfirst.connection
  connects := hsecond.connects.trans hfirst.connects
  disconnects := hsecond.disconnects.trans hfirst.disconnects
  connectErrors := hsecond.connectErrors.trans hfirst.connectErrors
  chunksIngested := hsecond.chunksIngested.trans hfirst.chunksIngested

end Counters

/-- What a happening is in the life of the link, if it has to do with it. -/
def Happening.mark? : Happening → Option Mark
  | .ingested _ => some .chunk
  | .linked .connected => some .opened
  | .linked .disconnected => some .closed
  | .connectFailed => some .failed
  | _ => none

/-- What the feeder counts is not about the link. -/
theorem Counters.sameLink_counted (c : Counters) {h : Happening} (hh : h.isOfFeeder) :
    SameLink c (c.counted h) := by
  cases h with
  | ingested bytes => cases hh
  | linked connection => cases hh
  | connectFailed => cases hh
  | _ => exact ⟨rfl, rfl, rfl, rfl, rfl⟩

namespace Feeder

open Audio Counters

variable {σ τ ω : Type}

/-- No part of a round counts anything about the link, also if it halts half-way. -/
theorem Touches.sameLink {s : Setup σ τ ω} {aspects : List Aspect} {f g : Feeder σ τ ω}
    (h : Touches s aspects f g) : SameLink f.pipeline.counters g.pipeline.counters := by
  induction h with
  | refl => exact SameLink.refl _
  | tail _ hlast ih =>
    obtain ⟨aspect, -, ht⟩ := hlast
    apply ih.trans
    cases ht with
    | counters f h c hh hc =>
      have hcounted := eq_counted_of_record hc
      subst hcounted
      exact sameLink_counted _ hh
    | _ => exact SameLink.refl _

end Feeder

/-! ## What takes effect -/

/-- Whether the counters say that the link is up. -/
def Counters.isUp (c : Counters) : Bool := c.connection = .connected

/-- The link is up just if it is reported as connected. -/
theorem Counters.isUp_iff {c : Counters} : c.isUp = true ↔ c.connection = .connected :=
  decide_eq_true_iff

/-- The link is not up just if it is reported as anything else. -/
theorem Counters.isUp_eq_false_iff {c : Counters} : c.isUp = false ↔ c.connection ≠ .connected :=
  decide_eq_false_iff_not

/-- While the link is up, it was set up once more than it was lost. -/
def Counters.Balanced (c : Counters) : Prop := c.connects = c.disconnects + c.isUp.toNat

/-- A mark that may stand where the counters are leads to the counters behind it. -/
theorem Counters.isUp_counted {c : Counters} {h : Happening} {mark : Mark} {isUp : Bool}
    (hmark : h.mark? = some mark) (hnext : next c.isUp mark = some isUp) (hc : c.Balanced) :
    (c.counted h).isUp = isUp ∧ (c.counted h).Balanced := by
  unfold Balanced at hc ⊢
  cases hup : c.isUp with
  | false =>
    rw [hup] at hnext hc
    cases h with
    | linked connection =>
      cases connection <;> cases hmark <;> cases hnext
      exact ⟨rfl, congrArg (· + 1) hc⟩
    | connectFailed =>
      cases hmark
      cases hnext
      exact ⟨rfl, hc⟩
    | ingested bytes =>
      cases hmark
      cases hnext
    | _ => cases hmark
  | true =>
    rw [hup] at hnext hc
    cases h with
    | linked connection =>
      cases connection <;> cases hmark <;> cases hnext
      exact ⟨rfl, hc⟩
    | ingested bytes =>
      cases hmark
      cases hnext
      refine ⟨hup, ?_⟩
      rw [show (c.counted (.ingested bytes)).isUp = c.isUp from rfl, hup]
      exact hc
    | connectFailed =>
      cases hmark
      cases hnext
    | _ => cases hmark

namespace Intake

/-- What an effect is in the life of the link, if it counts something. -/
def Effect.mark? : Effect → Option Mark
  | .record h => h.mark?
  | _ => none

/-- Bytes are appended right before they are counted, and all that is counted has to do with the
link. -/
def Orderly : List Effect → Prop
  | [] => True
  | .append _ :: effects =>
    (∃ bytes rest, effects = .record (.ingested bytes) :: rest) ∧ Orderly effects
  | .record h :: effects => h.mark?.isSome ∧ Orderly effects
  | .note _ :: effects => Orderly effects
  | .noteCleared :: effects => Orderly effects
  | .clear :: effects => Orderly effects

/-- Orderly effects may follow on each other. -/
theorem Orderly.append {effects more : List Effect} (h : Orderly effects) (hmore : Orderly more) :
    Orderly (effects ++ more) := by
  induction effects with
  | nil => exact hmore
  | cons effect effects ih =>
    cases effect with
    | append bytes =>
      obtain ⟨⟨count, rest, rfl⟩, hrest⟩ := h
      exact ⟨⟨count, rest ++ more, rfl⟩, ih hrest⟩
    | record happening => exact ⟨h.1, ih h.2⟩
    | note entry => exact ih h
    | noteCleared => exact ih h
    | clear => exact ih h

/-- The effects of an event are orderly. -/
theorem orderly_effects (clearOnDisconnect : Bool) (e : InboundEvent) :
    Orderly (effects clearOnDisconnect e) := by
  cases e with
  | audio bytes => exact ⟨⟨bytes.length, [], rfl⟩, rfl, trivial⟩
  | connected peer => exact ⟨rfl, trivial⟩
  | disconnected reason => cases clearOnDisconnect <;> exact ⟨rfl, trivial⟩
  | connectError message => exact ⟨rfl, trivial⟩

/-- The effects of an event count it once. -/
theorem marks_effects (clearOnDisconnect : Bool) (e : InboundEvent) :
    (effects clearOnDisconnect e).filterMap Effect.mark? = [e.mark] := by
  cases e with
  | disconnected reason => cases clearOnDisconnect <;> rfl
  | _ => rfl

end Intake

namespace Relay

open Intake

variable {σ τ ω : Type}

/-- The effects of all that the client reports are orderly. -/
theorem orderly_effects (clearOnDisconnect : Bool) (seen : List Link.Action) :
    Orderly (effects clearOnDisconnect seen) := by
  induction seen with
  | nil => trivial
  | cons a seen ih =>
    unfold effects at ih ⊢
    rw [List.flatMap_cons]
    refine Orderly.append ?_ ih
    cases a with
    | report e => exact Intake.orderly_effects clearOnDisconnect e
    | note entry => trivial
    | wrote t frame => trivial
    | wroteGoodbye => trivial

/-- What is pending is what was reported. -/
theorem marks_effects (clearOnDisconnect : Bool) (seen : List Link.Action) :
    (effects clearOnDisconnect seen).filterMap Effect.mark? = Link.reported seen := by
  induction seen with
  | nil => rfl
  | cons a seen ih =>
    unfold effects at ih ⊢
    rw [List.flatMap_cons, List.filterMap_append, ih]
    cases a with
    | report e =>
      dsimp only
      rw [Intake.marks_effects]
      rfl
    | note entry => rfl
    | wrote t frame => rfl
    | wroteGoodbye => rfl

/-! ## The story of a run -/

/-- What was seen of the client, and what the intake has counted. -/
structure Story where
  seen : List Link.Action
  counted : List Happening

/-- The part of the life of the link that has taken effect. -/
def Story.marks (story : Story) : List Mark := story.counted.filterMap Happening.mark?

/-- The story after a move that can be made. -/
def Story.after (story : Story) (s : Setup σ τ ω) (relay : Relay σ τ ω) : Move → Story
  | .link e =>
    { story with seen := story.seen ++ (relay.client.step s.link e).elim [] Prod.snd }
  | .settle =>
    match relay.pending with
    | .record h :: _ => { story with counted := story.counted ++ [h] }
    | _ => story
  | .tick _ => story

/-- The relay and its story after moves, of which those that cannot be made are left out. -/
def tell (s : Setup σ τ ω) (relay : Relay σ τ ω) (story : Story) : List Move → Relay σ τ ω × Story
  | [] => (relay, story)
  | m :: ms =>
    match relay.step s m with
    | none => tell s relay story ms
    | some (next, _) => tell s next (story.after s relay m) ms

/-- Whoever tells the story sees the run as it is. -/
theorem tell_eq_run (s : Setup σ τ ω) (moves : List Move) (relay : Relay σ τ ω) (story : Story)
    (sessions : Sessions) : (relay.tell s story moves).1 = (relay.run s sessions moves).1 := by
  induction moves generalizing relay story sessions with
  | nil => rfl
  | cons m moves ih =>
    rw [tell, run]
    cases relay.step s m with
    | none => exact ih relay story sessions
    | some made => exact ih made.1 _ _

/-- Reports, counters and phase agree. -/
structure Consistent (relay : Relay σ τ ω) (story : Story) : Prop where
  reported : Link.reported story.seen = story.marks ++ relay.pending.filterMap Effect.mark?
  counted : follow false story.marks = some relay.feeder.pipeline.counters.isUp
  balanced : relay.feeder.pipeline.counters.Balanced
  phase : ∃ isOpen, follow false (Link.reported story.seen) = some isOpen ∧
    relay.client.phase.Agrees isOpen ∧
    (isOpen = true → relay.client.phase.isOver → .wroteGoodbye ∈ story.seen)
  stopping : relay.client.phase.isStopping → relay.client.stopRequested
  orderly : Orderly relay.pending

namespace Consistent

variable {s : Setup σ τ ω} {relay next : Relay σ τ ω} {story : Story}
  {rounds : List Feeder.Round}

/-- A move of the client is a step of it, and its effects come behind those that are still to come.
-/
theorem link_eq_some {e : Link.Step} (h : relay.step s (.link e) = some (next, rounds)) :
    ∃ client now, relay.client.step s.link e = some (client, now) ∧
      next = { relay with
        client, pending := relay.pending ++ effects s.clearOnDisconnect now } := by
  simp only [step] at h
  split at h
  · obtain ⟨⟨client, now⟩, hstep, heq⟩ := Option.map_eq_some_iff.mp h
    cases heq
    exact ⟨client, now, hstep, rfl⟩
  · cases h

/-- A step of the client keeps reports, counters and phase in agreement. -/
theorem link {e : Link.Step} (h : relay.step s (.link e) = some (next, rounds))
    (hc : Consistent relay story) : Consistent next (story.after s relay (.link e)) := by
  obtain ⟨client, now, hstep, rfl⟩ := link_eq_some h
  have htransition := Link.Client.transition_of_step hstep
  obtain ⟨isOpen, hfollow, hagrees, hgoodbye⟩ := hc.phase
  obtain ⟨after, hafter, hagreesAfter⟩ := Link.Client.agrees_transition htransition hagrees
  have hseen : (story.after s relay (.link e)).seen = story.seen ++ now := by
    show story.seen ++ (relay.client.step s.link e).elim [] Prod.snd = _
    rw [hstep]
    rfl
  have hmarks : (story.after s relay (.link e)).marks = story.marks := rfl
  refine ⟨?_, hc.counted, hc.balanced, ⟨after, ?_, hagreesAfter, fun hopen hover => ?_⟩, ?_, ?_⟩
  · rw [hseen, hmarks, Link.reported_append, hc.reported]
    show _ = story.marks ++ (relay.pending ++ effects s.clearOnDisconnect now).filterMap _
    rw [List.filterMap_append, marks_effects, List.append_assoc]
  · rw [hseen, Link.reported_append, follow_append, hfollow]
    exact hafter
  · -- Nothing was reported by a step that is over behind it, so the session was open before.
    rw [Link.Client.reported_of_isOver htransition hover] at hafter
    obtain rfl : isOpen = after := Option.some.inj hafter
    rw [hseen]
    cases hbefore : relay.client.phase.isOver with
    | true => exact List.mem_append_left _ (hgoodbye hopen hbefore)
    | false =>
      rw [hopen] at hagrees
      exact List.mem_append_right _
        (Link.Client.goodbye_mem_transition htransition hagrees hbefore hover)
  · exact Link.Client.isStopping_transition htransition hc.stopping
  · exact hc.orderly.append (orderly_effects s.clearOnDisconnect now)

/-- An effect that is carried out keeps reports, counters and phase in agreement. -/
theorem settle (h : relay.step s .settle = some (next, rounds)) (hc : Consistent relay story) :
    Consistent next (story.after s relay .settle) := by
  obtain ⟨effect, pending, pipeline, hpending, hrun, rfl, -⟩ := step_settle_eq_some h
  have hreported := hc.reported
  have horderly := hc.orderly
  obtain ⟨isOpen, hfollow, hagrees, hgoodbye⟩ := hc.phase
  rw [hpending] at hreported horderly
  unfold Story.after
  rw [hpending]
  cases effect with
  | append bytes =>
    cases hrun
    exact ⟨hreported, hc.counted, hc.balanced, ⟨isOpen, hfollow, hagrees, hgoodbye⟩, hc.stopping,
      horderly.2⟩
  | record happening =>
    obtain ⟨hmark, hrest⟩ := horderly
    obtain ⟨mark, hmark⟩ := Option.isSome_iff_exists.mp hmark
    obtain ⟨c, hrecord, rfl⟩ := Pipeline.record_eq_ok.mp hrun
    obtain rfl := Counters.eq_counted_of_record hrecord
    -- The mark stands behind what has taken effect, so it may stand where the counters are.
    have hmarks : (Story.mk story.seen (story.counted ++ [happening])).marks =
        story.marks ++ [mark] := by
      unfold Story.marks
      rw [List.filterMap_append]
      simp [hmark]
    have hhead : (.record happening :: pending : List Effect).filterMap Effect.mark? =
        mark :: pending.filterMap Effect.mark? :=
      List.filterMap_cons_some hmark
    rw [hhead] at hreported
    rw [hreported, follow_append, hc.counted, Option.bind_some] at hfollow
    obtain ⟨isUp, hnext, hlater⟩ := Option.bind_eq_some_iff.mp hfollow
    obtain ⟨hup, hbalanced⟩ := Counters.isUp_counted hmark hnext hc.balanced
    refine ⟨?_, ?_, hbalanced, ⟨isOpen, ?_, hagrees, hgoodbye⟩, hc.stopping, hrest⟩
    · rw [hmarks, hreported, List.append_assoc]
      rfl
    · rw [hmarks, follow_append, hc.counted]
      show (next relay.feeder.pipeline.counters.isUp mark).bind _ = some _
      rw [hnext, hup]
      rfl
    · rw [hreported, follow_append, hc.counted, Option.bind_some, follow, hnext]
      exact hlater
  | note | noteCleared | clear =>
    cases hrun
    exact ⟨hreported, hc.counted, hc.balanced, ⟨isOpen, hfollow, hagrees, hgoodbye⟩, hc.stopping,
      horderly⟩

/-- A tick has nothing to do with the link, and leaves reports, counters and phase in agreement. -/
theorem tick {r : Feeder.Reading} (h : relay.step s (.tick r) = some (next, rounds))
    (hc : Consistent relay story) : Consistent next (story.after s relay (.tick r)) := by
  have hsame := (Feeder.touches_tick s.feeder.recorded r relay.feeder).sameLink
  obtain ⟨rfl, -⟩ := Prod.mk.inj (Option.some.inj h)
  have hcounted : follow false story.marks = some
      (Feeder.tick s.feeder.recorded r relay.feeder).2.pipeline.counters.isUp := by
    rw [hc.counted]
    unfold Counters.isUp
    rw [hsame.connection]
  have hbalanced : (Feeder.tick s.feeder.recorded r relay.feeder).2.pipeline.counters.Balanced := by
    have hbefore := hc.balanced
    unfold Counters.Balanced Counters.isUp at hbefore ⊢
    rw [hsame.connection, hsame.connects, hsame.disconnects]
    exact hbefore
  exact ⟨hc.reported, hcounted, hbalanced, hc.phase, hc.stopping, hc.orderly⟩

end Consistent

/-- Every move keeps reports, counters and phase in agreement. -/
theorem consistent_step {s : Setup σ τ ω} {relay next : Relay σ τ ω} {story : Story} {m : Move}
    {rounds : List Feeder.Round} (h : relay.step s m = some (next, rounds))
    (hc : Consistent relay story) : Consistent next (story.after s relay m) := by
  cases m with
  | link e => exact hc.link h
  | settle => exact hc.settle h
  | tick r => exact hc.tick h

/-- Reports, counters and phase agree after any moves. -/
theorem consistent_tell (s : Setup σ τ ω) (moves : List Move) {relay : Relay σ τ ω} {story : Story}
    (hc : Consistent relay story) :
    Consistent (relay.tell s story moves).1 (relay.tell s story moves).2 := by
  induction moves generalizing relay story with
  | nil => exact hc
  | cons m moves ih =>
    rw [tell]
    cases hstep : relay.step s m with
    | none => exact ih hc
    | some made =>
      obtain ⟨next, rounds⟩ := made
      exact ih (consistent_step hstep hc)

/-! ## What grows when -/

section Grow

variable {s : Setup σ τ ω} {relay next : Relay σ τ ω} {story : Story} {rounds : List Feeder.Round}

/-- What is pending can be read on from what the counters say. -/
theorem Consistent.follow_pending (hc : Consistent relay story) :
    ∃ last, follow relay.feeder.pipeline.counters.isUp
      (relay.pending.filterMap Effect.mark?) = some last := by
  obtain ⟨isOpen, hfollow, -⟩ := hc.phase
  rw [hc.reported, follow_append, hc.counted] at hfollow
  exact ⟨isOpen, hfollow⟩

/-- A chunk that is to be counted next finds the link up. -/
theorem isUp_of_chunk_pending {rest : List Mark}
    (hpending : relay.pending.filterMap Effect.mark? = .chunk :: rest)
    (hc : Consistent relay story) : relay.feeder.pipeline.counters.isUp = true := by
  obtain ⟨last, hlast⟩ := hc.follow_pending
  rw [hpending] at hlast
  cases hup : relay.feeder.pipeline.counters.isUp with
  | true => rfl
  | false =>
    rw [hup] at hlast
    cases hlast

/-- A failure that is to be counted next finds the link down. -/
theorem not_isUp_of_failure_pending {rest : List Mark}
    (hpending : relay.pending.filterMap Effect.mark? = .failed :: rest)
    (hc : Consistent relay story) : relay.feeder.pipeline.counters.isUp = false := by
  obtain ⟨last, hlast⟩ := hc.follow_pending
  rw [hpending] at hlast
  cases hup : relay.feeder.pipeline.counters.isUp with
  | false => rfl
  | true =>
    rw [hup] at hlast
    cases hlast

/-- Chunks are counted and bytes are buffered only while the link is up, and failures to connect are
counted only while it is not. -/
structure GrowsRight (relay next : Relay σ τ ω) : Prop where
  chunks : next.feeder.pipeline.counters.chunksIngested ≠
    relay.feeder.pipeline.counters.chunksIngested →
      relay.feeder.pipeline.counters.connection = .connected
  buffer : relay.feeder.pipeline.buffer.size < next.feeder.pipeline.buffer.size →
    relay.feeder.pipeline.counters.connection = .connected
  failures : next.feeder.pipeline.counters.connectErrors ≠
    relay.feeder.pipeline.counters.connectErrors →
      relay.feeder.pipeline.counters.connection ≠ .connected

/-- What neither counts a chunk or a failure nor buffers anything. -/
theorem GrowsRight.of_quiet
    (hchunks : next.feeder.pipeline.counters.chunksIngested =
      relay.feeder.pipeline.counters.chunksIngested)
    (hsize : next.feeder.pipeline.buffer.size ≤ relay.feeder.pipeline.buffer.size)
    (hfailures : next.feeder.pipeline.counters.connectErrors =
      relay.feeder.pipeline.counters.connectErrors) : GrowsRight relay next :=
  ⟨fun hne => absurd hchunks hne, fun hlt => absurd hlt (Nat.not_lt.mpr hsize),
    fun hne => absurd hfailures hne⟩

/-- An effect lets chunks, bytes and failures grow only where they may. -/
theorem growsRight_settle (h : relay.step s .settle = some (next, rounds))
    (hc : Consistent relay story) : GrowsRight relay next := by
  obtain ⟨effect, pending, pipeline, hpending, hrun, rfl, -⟩ := step_settle_eq_some h
  have horderly := hc.orderly
  rw [hpending] at horderly
  cases effect with
  | append bytes =>
    obtain ⟨⟨count, rest, rfl⟩, -⟩ := horderly
    cases hrun
    have hmarks : relay.pending.filterMap Effect.mark? = .chunk :: rest.filterMap Effect.mark? := by
      rw [hpending]
      rfl
    have hconnected := Counters.isUp_iff.mp (isUp_of_chunk_pending hmarks hc)
    exact ⟨fun _ => hconnected, fun _ => hconnected, fun hne => absurd rfl hne⟩
  | record happening =>
    obtain ⟨c, hrecord, rfl⟩ := Pipeline.record_eq_ok.mp hrun
    obtain rfl := Counters.eq_counted_of_record hrecord
    refine ⟨fun hne => ?_, fun hlt => absurd hlt (Nat.lt_irrefl _), fun hne => ?_⟩
    · cases happening with
      | ingested bytes =>
        have hmarks : relay.pending.filterMap Effect.mark? =
            .chunk :: pending.filterMap Effect.mark? := by
          rw [hpending]
          rfl
        exact Counters.isUp_iff.mp (isUp_of_chunk_pending hmarks hc)
      | _ => exact absurd rfl hne
    · cases happening with
      | connectFailed =>
        have hmarks : relay.pending.filterMap Effect.mark? =
            .failed :: pending.filterMap Effect.mark? := by
          rw [hpending]
          rfl
        exact Counters.isUp_eq_false_iff.mp (not_isUp_of_failure_pending hmarks hc)
      | _ => exact absurd rfl hne
  | note entry =>
    cases hrun
    exact .of_quiet rfl (Nat.le_refl _) rfl
  | noteCleared =>
    cases hrun
    exact .of_quiet rfl (Nat.le_refl _) rfl
  | clear =>
    cases hrun
    exact .of_quiet rfl (Nat.zero_le _) rfl

/-- No move lets chunks, bytes or failures grow where they may not. -/
theorem growsRight_step {m : Move} (h : relay.step s m = some (next, rounds))
    (hc : Consistent relay story) : GrowsRight relay next := by
  cases m with
  | link e =>
    obtain ⟨client, now, -, rfl⟩ := Consistent.link_eq_some h
    exact .of_quiet rfl (Nat.le_refl _) rfl
  | settle => exact growsRight_settle h hc
  | tick r =>
    have hsame := (Feeder.touches_tick s.feeder.recorded r relay.feeder).sameLink
    have hbuffer := Feeder.buffer_tick s.feeder.recorded r relay.feeder
    have hsize : (Feeder.tick s.feeder.recorded r relay.feeder).2.pipeline.buffer.size ≤
        relay.feeder.pipeline.buffer.size := by
      have hbytes := congrArg List.length relay.feeder.pipeline.buffer.bytes_take
      rw [List.length_append] at hbytes
      rw [hbuffer]
      unfold Audio.Buffer.size
      omega
    obtain ⟨rfl, -⟩ := Prod.mk.inj (Option.some.inj h)
    exact .of_quiet hsame.chunksIngested hsize hsame.connectErrors

end Grow

/-- A fresh relay is consistent. -/
theorem consistent_start {relay : Relay σ τ ω} (hphase : relay.client.phase = .starting)
    (hpending : relay.pending = []) {b : Audio.Buffer}
    (hfresh : relay.feeder.pipeline = .create b) : Consistent relay ⟨[], []⟩ := by
  refine ⟨?_, ?_, ?_, ⟨false, rfl, ?_, fun hopen => (by cases hopen)⟩, fun hstop => ?_, ?_⟩
  · rw [hpending]
    rfl
  · rw [hfresh]
    rfl
  · rw [hfresh]
    rfl
  · rw [hphase]
    exact ⟨fun hsession => (by cases hsession), fun _ => rfl⟩
  · rw [hphase] at hstop
    cases hstop
  · rw [hpending]
    trivial

/-- Whatever the gateway does, whenever the signal to stop is given, and however the effects of the
reports and the rounds of the feeder follow each other: what the client reports is a whole life of
the link or one whose last session is open, and a session is left open only if the client is in it
or has said goodbye after the signal. What has taken effect is the beginning of that. The counters
show that the link is up, and the status is healthy, if and only if a session is open in what has
taken effect; there is one connect more than disconnects then, and there are as many otherwise.
Chunks are counted and bytes are buffered only while the link is up, and failures to connect only
while it is not. -/
theorem lifecycle (s : Setup σ τ ω) {relay : Relay σ τ ω}
    (hphase : relay.client.phase = .starting) (hpending : relay.pending = []) {b : Audio.Buffer}
    (hfresh : relay.feeder.pipeline = .create b) (moves : List Move) :
    let now := (relay.tell s ⟨[], []⟩ moves).1
    let story := (relay.tell s ⟨[], []⟩ moves).2
    let counters := now.feeder.pipeline.counters
    let reported := Link.reported story.seen
    now = (relay.run s .start moves).1 ∧
    (Whole reported ∨ Unfinished reported) ∧
    (Unfinished reported → now.client.phase.inSession ∨
      now.client.phase.isOver ∧ now.client.stopRequested ∧ .wroteGoodbye ∈ story.seen) ∧
    story.marks <+: reported ∧
    (counters.connection = .connected → counters.connects = counters.disconnects + 1) ∧
    (counters.connection ≠ .connected → counters.connects = counters.disconnects) ∧
    (counters.connection = .connected ↔ Unfinished story.marks) ∧
    (Status.health counters = "healthy" ↔ Unfinished story.marks) ∧
    ∀ m next rounds, now.step s m = some (next, rounds) → GrowsRight now next := by
  intro now story counters reported
  have hc : Consistent now story := consistent_tell s moves (consistent_start hphase hpending hfresh)
  obtain ⟨isOpen, hfollow, hagrees, hgoodbye⟩ := hc.phase
  have hbalanced := hc.balanced
  have hup : counters.connection = .connected ↔ Unfinished story.marks := by
    rw [← Counters.isUp_iff, ← follow_eq_true_iff, hc.counted, Option.some_inj]
  refine ⟨tell_eq_run s moves relay _ _, ?_, fun hunfinished => ?_, ?_, fun hconnected => ?_,
    fun hdisconnected => ?_, hup, ?_, fun m next rounds hstep => growsRight_step hstep hc⟩
  · rcases whole_or_unfinished hfollow with ⟨-, hwhole⟩ | ⟨-, hunfinished⟩
    · exact Or.inl hwhole
    · exact Or.inr hunfinished
  · -- A client that is in no session and not over has none open.
    have hopen : isOpen = true := by
      rw [follow_of_unfinished hunfinished] at hfollow
      exact (Option.some.inj hfollow).symm
    cases hover : now.client.phase.isOver with
    | true =>
      have hstopping : now.client.phase.isStopping := by
        cases hp : now.client.phase <;> simp_all [Link.Phase.isOver, Link.Phase.isStopping]
      exact Or.inr ⟨rfl, hc.stopping hstopping, hgoodbye hopen hover⟩
    | false =>
      left
      cases hp : now.client.phase <;>
        simp_all [Link.Phase.Agrees, Link.Phase.isOver, Link.Phase.inSession, Link.Phase.mayConnect]
  · rw [show reported = _ from hc.reported]
    exact List.prefix_append _ _
  · unfold Counters.Balanced at hbalanced
    rwa [Counters.isUp_iff.mpr hconnected] at hbalanced
  · unfold Counters.Balanced at hbalanced
    rwa [Counters.isUp_eq_false_iff.mpr hdisconnected] at hbalanced
  · rw [← hup]
    unfold Status.health
    by_cases hconnected : counters.connection = .connected
    · rw [if_pos hconnected]
      exact ⟨fun _ => hconnected, fun _ => rfl⟩
    · rw [if_neg hconnected]
      exact ⟨fun hword => absurd hword (by decide), fun h => absurd h hconnected⟩

/-- An attempt that failed, a session with a chunk that the gateway ended, and a session that the
signal to stop left open, with the goodbye written. -/
theorem lifecycle_stopped :
    let s : Setup Unit TranscriptQueue Audio.Disk :=
      ⟨⟨"ws://gateway", "audio", "transcript"⟩,
        ⟨.stereo, 2, false, Recognizer.null, TranscriptQueue.outlet, Audio.Disk.medium⟩, true⟩
    let f : Feeder (Unit × List RecognizerCall) TranscriptQueue Audio.Disk :=
      .create ((), []) .create (.file []) (.create ⟨4, 4, [], by decide⟩)
    let relay : Relay Unit TranscriptQueue Audio.Disk := ⟨.create, [], f⟩
    let moves : List Move :=
      [.link .look, .link (.connectFailed .cut), .settle, .settle, .link .pauseOver, .link .look,
        .link .connected, .settle, .settle, .link (.received (.binary [1, 2])), .settle, .settle,
        .link .streamEnded, .settle, .settle, .tick ⟨⟨0⟩, ⟨0, 0⟩, 0⟩, .settle, .settle,
        .link .pauseOver, .link .look, .link .connected, .settle, .settle, .link .cancel,
        .link .noticeStop, .link .graceOver, .link .written]
    let now := (relay.tell s ⟨[], []⟩ moves).1
    let story := (relay.tell s ⟨[], []⟩ moves).2
    relay.client.phase = .starting ∧ relay.pending = [] ∧
    Link.reported story.seen = [.failed, .opened, .chunk, .closed, .opened] ∧
    Unfinished (Link.reported story.seen) ∧ now.client.phase = .discarding 0 ∧
    now.feeder.pipeline.counters.connects = now.feeder.pipeline.counters.disconnects + 1 ∧
    Status.health now.feeder.pipeline.counters = "healthy" := by
  intro s f relay moves now story
  have hstarted : relay.feeder.pipeline = .create ⟨4, 4, [], by decide⟩ := rfl
  obtain ⟨-, -, -, -, hconnected, -, -, hhealth, -⟩ := lifecycle s rfl rfl hstarted moves
  have hreported : Link.reported story.seen = [.failed, .opened, .chunk, .closed, .opened] := by
    decide +kernel
  have hmarks : story.marks = [.failed, .opened, .chunk, .closed, .opened] := by decide +kernel
  have hopen : Unfinished [.failed, .opened, .chunk, .closed, .opened] :=
    follow_eq_true_iff.mp rfl
  refine ⟨rfl, rfl, hreported, ?_, by decide +kernel, hconnected (by decide +kernel), ?_⟩
  · rw [hreported]
    exact hopen
  · apply hhealth.mpr
    rw [show (relay.tell s ⟨[], []⟩ moves).2.marks = _ from hmarks]
    exact hopen

end Relay

end SpeechRelay
