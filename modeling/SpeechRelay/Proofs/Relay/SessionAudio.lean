import SpeechRelay.Proofs.Relay.Budget
import SpeechRelay.Recognizer.Backend

/-!
# No audio of one session in another

If the end of a session clears the buffer, the samples that are fed between the start of one
session and the start of the next are mixed from the beginning of the audio of the first, unit by
unit from its first byte on (`session_samples_are_own`). That holds whenever the feeder ticks, also
between the report that a session has ended and the effect that clears the buffer.

The invariant is `Isolated`. Its point is that wherever the client can open a session, either a
clear is still to come, and then the client does not go on before it has come, or the buffer is
empty.
-/

set_option autoImplicit false

namespace SpeechRelay.Relay

open Audio Feeder

variable {σ τ ω : Type}

/-! ## What is still to come -/

/-- The audio that effects will add to the buffer. -/
def audioIn (pending : List Intake.Effect) : List UInt8 :=
  pending.flatMap fun
    | .append bytes => bytes
    | _ => []

/-- Whether the buffer will be cleared by effects. -/
def clears (pending : List Intake.Effect) : Bool :=
  pending.any fun
    | .clear => true
    | _ => false

/-- Bytes to be appended come before the audio of the effects behind them. -/
theorem audioIn_append_cons (bytes : List UInt8) (pending : List Intake.Effect) :
    audioIn (.append bytes :: pending) = bytes ++ audioIn pending := rfl

/-- Effects that start with a clear will clear the buffer. -/
theorem clears_clear_cons (pending : List Intake.Effect) : clears (.clear :: pending) = true := rfl

section Transition

variable {s : Link.Setup} {c c' : Link.Client} {e : Link.Step} {seen : List Link.Action}

/-- What comes in with a step is what its effects will add to the buffer. -/
theorem audioIn_effects (h : Link.Client.Transition s c e c' seen) (clearOnDisconnect : Bool) :
    audioIn (effects clearOnDisconnect seen) = audioOf s.audioEvent e := by
  cases h with
  | receivedText q stop text =>
    simp only [Link.Client.onText, audioOf]
    cases Link.Envelope.decode s.audioEvent text with
    | error why => rfl
    | ok envelope => cases envelope <;> simp [audioIn, effects, Intake.effects]
  | halt count q stop h => by_cases hcount : count = 0 <;> simp [audioIn, effects, audioOf, hcount]
  | _ => cases clearOnDisconnect <;> simp [audioIn, effects, Intake.effects, audioOf]

/-- A step that ends outside a session brings no audio. -/
theorem audioOf_eq_nil (h : Link.Client.Transition s c e c' seen)
    (hc : c'.phase.inSession = false) : audioOf s.audioEvent e = [] := by
  cases h with
  | receivedBinary => cases hc
  | receivedText => cases hc
  | _ => rfl

/-- A step that stays in a session, or opens one, does not clear the buffer. -/
theorem clears_effects_of_inSession (h : Link.Client.Transition s c e c' seen)
    (hc : c'.phase.inSession) (clearOnDisconnect : Bool) :
    clears (effects clearOnDisconnect seen) = false := by
  cases h with
  | receivedText q stop text =>
    simp only [Link.Client.onText]
    cases Link.Envelope.decode s.audioEvent text with
    | error why => rfl
    | ok envelope => cases envelope <;> rfl
  | _ => simp_all [Link.Phase.inSession, clears, effects, Intake.effects]

/-- A session goes on or is opened by connecting. -/
theorem inSession_of_inSession (h : Link.Client.Transition s c e c' seen)
    (hc : c'.phase.inSession) (he : e ≠ .connected) : c.phase.inSession := by
  cases h <;> simp_all [Link.Phase.inSession]

/-- A client that may connect again could do so before, or clears the buffer. -/
theorem clears_effects_of_mayConnect (h : Link.Client.Transition s c e c' seen)
    (hc : c'.phase.mayConnect) : c.phase.mayConnect ∨ clears (effects true seen) := by
  cases h <;> simp_all [Link.Phase.mayConnect, clears, effects, Intake.effects]

/-- Connecting leads from where a session may be opened into one. -/
theorem phase_of_connected (h : Link.Client.Transition s c .connected c' seen) :
    c.phase.mayConnect ∧ c'.phase = .session := by
  cases h
  exact ⟨rfl, rfl⟩

/-- What happens around the client is not seen, and leaves it where it is. -/
theorem eq_of_isAround (h : Link.Client.Transition s c e c' seen) (ha : isAround e) :
    c'.phase = c.phase ∧ seen = [] := by
  cases h with
  | emit => exact ⟨rfl, rfl⟩
  | closeQueue => exact ⟨rfl, rfl⟩
  | cancel => exact ⟨rfl, rfl⟩
  | _ => cases ha

end Transition

/-! ## The invariant -/

/-- The samples that were fed since a session started are mixed from the beginning of its audio. -/
def Session.Own (format : SampleFormat) (session : Session) : Prop :=
  ∃ rest, format.FedFrom session.audio rest session.fed

/-- What keeps the sessions apart, where the client is in a phase, effects are still to come, the
buffer is as it is, and a session was the latest to start. -/
structure Isolated (format : SampleFormat) (phase : Link.Phase) (pending : List Intake.Effect)
    (buffer : Buffer) (latest : Session) : Prop where
  unit : buffer.unit = format.unitBytes
  /-- The buffer holds what is not yet fed of the audio that has reached it. In a session, all other
  audio of the session is still to come. -/
  fed : ∃ audio, audio <+: latest.audio ∧ format.FedFrom audio buffer.bytes latest.fed ∧
    (phase.inSession → latest.audio = audio ++ audioIn pending)
  /-- Outside a session no audio is still to come. -/
  quiet : phase.inSession = false → audioIn pending = []
  /-- In a session the buffer will not be cleared. -/
  kept : phase.inSession → clears pending = false
  /-- Where a session can be opened, the buffer is empty, or it will be before that. -/
  emptied : phase.mayConnect → clears pending ∨ buffer.bytes = []

namespace Isolated

variable {format : SampleFormat} {phase : Link.Phase} {pending : List Intake.Effect}
  {buffer : Buffer} {latest : Session}

/-- In isolation, the samples of the latest session are its own. -/
theorem own (h : Isolated format phase pending buffer latest) : latest.Own format := by
  obtain ⟨audio, ⟨more, hmore⟩, hfed, -⟩ := h.fed
  rw [Session.Own, ← hmore]
  exact ⟨_, hfed.append more⟩

/-- A new session finds an empty buffer. -/
theorem connect {s : Link.Setup} {c c' : Link.Client} {seen : List Link.Action}
    (h : Isolated format c.phase [] buffer latest)
    (ht : Link.Client.Transition s c .connected c' seen) :
    Isolated format c'.phase (effects true seen) buffer ⟨[], []⟩ := by
  obtain ⟨hmay, hphase⟩ := phase_of_connected ht
  have hempty : buffer.bytes = [] := (h.emptied hmay).resolve_left (by simp [clears])
  have haudio : audioIn (effects true seen) = [] := audioIn_effects ht true
  refine ⟨h.unit, ⟨[], List.prefix_refl _, ?_, fun _ => ?_⟩, fun _ => haudio,
    fun hin => clears_effects_of_inSession ht hin true, fun _ => Or.inr hempty⟩
  · rw [hempty]
    exact SampleFormat.FedFrom.start format []
  · rw [haudio]
    rfl

/-- Another step of the client adds its audio to the latest session. -/
theorem advance {s : Link.Setup} {c c' : Link.Client} {e : Link.Step} {seen : List Link.Action}
    (h : Isolated format c.phase [] buffer latest)
    (ht : Link.Client.Transition s c e c' seen) (he : e ≠ .connected) :
    Isolated format c'.phase (effects true seen) buffer
      { latest with audio := latest.audio ++ audioOf s.audioEvent e } := by
  obtain ⟨audio, hprefix, hfed, hall⟩ := h.fed
  have haudio := audioIn_effects ht true
  refine ⟨h.unit, ⟨audio, hprefix.trans (List.prefix_append _ _), hfed, fun hin => ?_⟩,
    fun hout => ?_, fun hin => clears_effects_of_inSession ht hin true, fun hmay => ?_⟩
  · show latest.audio ++ audioOf s.audioEvent e = audio ++ audioIn (effects true seen)
    rw [haudio, hall (inSession_of_inSession ht hin he)]
    simp [audioIn]
  · rw [haudio]
    exact audioOf_eq_nil ht hout
  · rcases clears_effects_of_mayConnect ht hmay with hbefore | hclears
    · exact Or.inr ((h.emptied hbefore).resolve_left (by simp [clears]))
    · exact Or.inl hclears

/-- What happens around the client does not touch the isolation. -/
theorem around {s : Link.Setup} {c c' : Link.Client} {e : Link.Step} {seen : List Link.Action}
    (h : Isolated format c.phase pending buffer latest)
    (ht : Link.Client.Transition s c e c' seen) (ha : isAround e) :
    Isolated format c'.phase (pending ++ effects true seen) buffer
      { latest with audio := latest.audio ++ audioOf s.audioEvent e } := by
  obtain ⟨hphase, rfl⟩ := eq_of_isAround ht ha
  have haudio : audioOf s.audioEvent e = [] := (audioIn_effects ht true).symm
  have hnone : effects true [] = [] := rfl
  rw [hphase, haudio, hnone, List.append_nil, List.append_nil]
  exact h

/-- Carrying out an effect brings audio of the latest session into the buffer, or clears a buffer
from which nothing is needed any more. -/
theorem settle {p p' : Pipeline} {effect : Intake.Effect}
    (h : Isolated format phase (effect :: pending) p.buffer latest)
    (hrun : effect.run p = .ok p') : Isolated format phase pending p'.buffer latest := by
  obtain ⟨hunit, ⟨audio, hprefix, hfed, hall⟩, hquiet, hkept, hemptied⟩ := h
  cases effect with
  | append bytes =>
    cases hrun
    rw [audioIn_append_cons] at hquiet hall
    by_cases hin : phase.inSession
    · -- The bytes are the next ones of the audio of the session.
      have haudio : latest.audio = audio ++ bytes ++ audioIn pending := by
        rw [hall hin, List.append_assoc]
      refine ⟨hunit, ⟨audio ++ bytes, ⟨_, haudio.symm⟩, hfed.append bytes, fun _ => haudio⟩,
        fun hout => ?_, hkept, fun hmay => ?_⟩
      · rw [hin] at hout
        cases hout
      · exact absurd hmay (Link.Phase.not_mayConnect_of_inSession hin)
    · -- No audio is still to come, so that these bytes are none.
      have hnone := hquiet (Bool.eq_false_iff.mpr hin)
      obtain ⟨rfl, hpending⟩ := List.append_eq_nil_iff.mp hnone
      refine ⟨hunit, ⟨audio, hprefix, ?_, fun hin' => absurd hin' hin⟩, fun _ => hpending, hkept,
        fun hmay => ?_⟩
      · simpa using hfed
      · exact (hemptied hmay).imp_right fun hempty => by simp [hempty]
  | clear =>
    cases hrun
    -- The session whose audio is dropped is over.
    have hout : ¬ phase.inSession := fun hin => by
      have := hkept hin
      rw [clears_clear_cons] at this
      cases this
    obtain ⟨fedBytes, hfirst, hcleared⟩ := hfed.clear
    exact ⟨hunit, ⟨fedBytes, hfirst.trans hprefix, hcleared, fun hin => absurd hin hout⟩, hquiet,
      fun hin => absurd hin hout, fun _ => Or.inr rfl⟩
  | record happening =>
    obtain ⟨c, -, rfl⟩ := Pipeline.record_eq_ok.mp hrun
    exact ⟨hunit, ⟨audio, hprefix, hfed, hall⟩, hquiet, hkept, hemptied⟩
  | note entry =>
    cases hrun
    exact ⟨hunit, ⟨audio, hprefix, hfed, hall⟩, hquiet, hkept, hemptied⟩
  | noteCleared =>
    cases hrun
    exact ⟨hunit, ⟨audio, hprefix, hfed, hall⟩, hquiet, hkept, hemptied⟩

/-- A tick feeds audio of the latest session alone. -/
theorem tick {s : Feeder.Setup σ τ ω} (hf : s.format.IsPcm16) (r : Reading)
    {f : Feeder (σ × List RecognizerCall) τ ω}
    (h : Isolated s.format phase pending f.pipeline.buffer latest) :
    Isolated s.format phase pending (round s r f).2.pipeline.buffer
      { latest with rounds := latest.rounds ++ [(round s r f).1] } := by
  obtain ⟨hunit, ⟨audio, hprefix, hfed, hall⟩, hquiet, hkept, hemptied⟩ := h
  have hbuffer : (round s r f).2.pipeline.buffer = f.pipeline.buffer.take.2 :=
    buffer_tick s.recorded r f
  refine ⟨?_, ⟨audio, hprefix, ?_, hall⟩, hquiet, hkept, fun hmay => ?_⟩
  · rw [hbuffer, Buffer.unit_take, hunit]
  · rw [Session.fed, bufferedSamples_append, bufferedSamples_singleton]
    exact fedFrom_round hf r hunit hfed
  · refine (hemptied hmay).imp_right fun hempty => ?_
    have htake := f.pipeline.buffer.bytes_take
    rw [hempty] at htake
    rw [hbuffer]
    exact (List.append_eq_nil_iff.mp htake).2

end Isolated

/-! ## Runs -/

/-- The latest session is isolated, the earlier ones have fed their own audio, and all rounds are
faithful. -/
structure Separate (s : Setup σ τ ω) (relay : Relay σ τ ω) (sessions : Sessions) : Prop where
  isolated : Isolated s.feeder.format relay.client.phase relay.pending relay.feeder.pipeline.buffer
    sessions.latest
  earlier : ∀ session ∈ sessions.earlier, session.Own s.feeder.format
  faithful : ∀ session ∈ sessions.all, ∀ round ∈ session.rounds, round.Faithful

namespace Separate

variable {s : Setup σ τ ω} {relay next : Relay σ τ ω} {sessions : Sessions}

/-- The samples of every session are its own. -/
theorem own (h : Separate s relay sessions) :
    ∀ session ∈ sessions.all, session.Own s.feeder.format := by
  intro session hmem
  rcases List.mem_cons.mp hmem with rfl | hmem
  · exact h.isolated.own
  · exact h.earlier session hmem

/-- At the start there is no session to be kept apart. -/
theorem start {gate : Nat} {f : Feeder (σ × List RecognizerCall) τ ω}
    (hf : s.feeder.format.IsPcm16)
    (hcreate : Buffer.create s.feeder.format gate = .ok f.pipeline.buffer) :
    Separate s ⟨.create, [], f⟩ .start := by
  obtain ⟨-, hunit, hbytes⟩ := Buffer.create_eq_ok hcreate
  have hpos := hf.unitBytes_pos
  refine ⟨⟨?_, ⟨[], List.prefix_refl _, ?_, fun hin => ?_⟩, fun _ => rfl, fun _ => rfl,
    fun _ => Or.inr hbytes⟩, fun _ hmem => ?_, Sessions.rounds_start⟩
  · rw [hunit]
    exact Nat.max_eq_left hpos
  · rw [hbytes]
    exact SampleFormat.FedFrom.start _ []
  · cases hin
  · cases hmem

/-- Every move keeps the sessions apart. -/
theorem step (hf : s.feeder.format.IsPcm16) (hclear : s.clearOnDisconnect = true) {m : Move}
    {rounds : List Round} (h : Separate s relay sessions)
    (hstep : relay.step s m = some (next, rounds)) :
    Separate s next (sessions.after s.link.audioEvent m rounds) := by
  cases m with
  | link e =>
    obtain ⟨client, seen, ht, hwait, rfl, rfl⟩ := step_link_eq_some hstep
    have hfaithful := Sessions.rounds_after s.link.audioEvent (.link e) h.faithful
      (fun round (hround : round ∈ []) => by cases hround)
    rw [hclear]
    by_cases he : e = .connected
    · -- A session is opened when nothing is pending, so that the one before it is left as it is.
      subst he
      have hnone : relay.pending = [] := hwait.resolve_left (by simp [isAround])
      have hisolated := h.isolated
      rw [hnone] at hisolated
      refine ⟨?_, h.own, hfaithful⟩
      rw [hnone]
      exact hisolated.connect ht
    · rw [Sessions.after_link _ _ he] at hfaithful ⊢
      refine ⟨?_, h.earlier, hfaithful⟩
      rcases hwait with ha | hnone
      · exact h.isolated.around ht ha
      · have hisolated := h.isolated
        rw [hnone] at hisolated ⊢
        exact hisolated.advance ht he
  | settle =>
    obtain ⟨effect, pending, pipeline, hpending, hrun, rfl, rfl⟩ := step_settle_eq_some hstep
    have hisolated := h.isolated
    rw [hpending] at hisolated
    rw [Sessions.after_settle]
    exact ⟨hisolated.settle hrun, h.earlier, h.faithful⟩
  | tick r =>
    cases hstep
    refine ⟨h.isolated.tick hf r, h.earlier,
      Sessions.rounds_after _ _ h.faithful fun round hround => ?_⟩
    rw [List.mem_singleton.mp hround]
    exact faithful_round s.feeder r relay.feeder

/-- All moves keep the sessions apart. -/
theorem run (hf : s.feeder.format.IsPcm16) (hclear : s.clearOnDisconnect = true)
    (moves : List Move) (h : Separate s relay sessions) :
    Separate s (relay.run s sessions moves).1 (relay.run s sessions moves).2 := by
  induction moves generalizing relay sessions with
  | nil => exact h
  | cons m moves ih =>
    rw [Relay.run]
    cases hstep : relay.step s m with
    | none => exact ih h
    | some moved => exact ih (h.step hf hclear hstep)

end Separate

/-- Whatever the client goes through and whenever the feeder ticks: the samples of the rounds
between the start of a session and the start of the next are the mono samples of the first units of
the audio of that session, each of them is mixed from one unit of it, and what is left in the buffer
at the end is audio of the latest session from its next unit on. Every round comes to its end,
unless the counters do not have room for the cost of the moves or memory not for a frame of silence.
-/
theorem session_samples_are_own {s : Setup σ τ ω} (hf : s.feeder.format.IsPcm16)
    (hclear : s.clearOnDisconnect = true) {gate : Nat}
    {f : Feeder (σ × List RecognizerCall) τ ω}
    (hcreate : Buffer.create s.feeder.format gate = .ok f.pipeline.buffer) (moves : List Move) :
    let format := s.feeder.format
    let final := run s ⟨.create, [], f⟩ .start moves
    (∀ session ∈ final.2.all,
      session.fed.length * format.unitBytes ≤ session.audio.length ∧
      format.downmix (session.audio.take (session.fed.length * format.unitBytes)) =
        .ok session.fed ∧
      (∀ (i : Nat) (hi : i < session.fed.length),
        mixUnit format.channels.toNat (Pcm.decode
          ((session.audio.drop (i * format.unitBytes)).take format.unitBytes)) =
            .ok session.fed[i]) ∧
      ∀ round ∈ session.rounds, round.Faithful) ∧
    final.1.feeder.pipeline.buffer.bytes <+:
      final.2.latest.audio.drop (final.2.latest.fed.length * format.unitBytes) ∧
    (s.feeder.silenceSamples * 2 ≤ Machine.maxBytes → ∀ n, f.pipeline.counters.AtMost n →
      n + (moves.map (Move.cost s)).sum < Machine.wordSize →
        ∀ session ∈ final.2.all, ∀ round ∈ session.rounds, ∃ o, round.outcome = .ok o) := by
  intro format final
  have hfinal := (Separate.start hf hcreate).run hf hclear moves
  refine ⟨fun session hmem => ?_, ?_, fun hsilence n hcounters hroom => ?_⟩
  · obtain ⟨rest, hfed⟩ := hfinal.own session hmem
    have hlength := hfed.length_eq
    refine ⟨?_, (hfed.downmix_take hf).1, fun i hi => hfed.mixUnit_unit hf hi,
      hfinal.faithful session hmem⟩
    rw [hlength]
    exact Nat.le_add_right _ _
  · obtain ⟨audio, ⟨more, hmore⟩, hfed, -⟩ := hfinal.isolated.fed
    have hrest := ((hfed.append more).downmix_take hf).2
    rw [hmore] at hrest
    exact ⟨more, hrest.symm⟩
  · exact ((Solvent.start hf hcreate hcounters).run hf hsilence moves hroom).ended

/-- Two sessions of two channels, the first of which leaves a byte behind and sees a tick between
the report of its end and the clearing. -/
theorem session_samples_are_own_twice :
    let s : Setup Unit TranscriptQueue Disk :=
      ⟨⟨"ws://gateway", "audio", "transcript"⟩,
        ⟨.stereo, 8192, false, Recognizer.null, TranscriptQueue.outlet, Disk.medium⟩, true⟩
    let f : Feeder (Unit × List RecognizerCall) TranscriptQueue Disk :=
      .create ((), []) .create (.file []) (.create ⟨0, 4, [], by decide⟩)
    let r : Reading := ⟨⟨0⟩, ⟨0, 0⟩, 0⟩
    let moves : List Move :=
      [.link .look, .link .connected, .settle, .settle,
        .link (.received (.binary [100, 0, 200, 0, 1])), .settle, .settle, .tick r,
        .link .streamEnded, .settle, .settle, .tick r, .settle, .settle,
        .link .pauseOver, .link .look, .link .connected, .settle, .settle,
        .link (.received (.binary [4, 0, 8, 0, 7])), .settle, .settle, .tick r]
    let final := run s ⟨.create, [], f⟩ .start moves
    (s.feeder.format.IsPcm16 ∧ s.clearOnDisconnect = true ∧
      Buffer.create s.feeder.format 0 = .ok f.pipeline.buffer) ∧
    final.2.all.map Session.audio = [[4, 0, 8, 0, 7], [100, 0, 200, 0, 1], []] ∧
    final.2.all.map Session.fed = [[6], [150], []] ∧
    (∀ session ∈ final.2.all, s.feeder.format.downmix
      (session.audio.take (session.fed.length * s.feeder.format.unitBytes)) = .ok session.fed) ∧
    ∀ session ∈ final.2.all, ∀ round ∈ session.rounds, ∃ o, round.outcome = .ok o := by
  intro s f r moves final
  have hf : s.feeder.format.IsPcm16 := ⟨rfl, by decide⟩
  have hcreate : Buffer.create s.feeder.format 0 = .ok f.pipeline.buffer := rfl
  have h := session_samples_are_own (s := s) hf rfl hcreate moves
  exact ⟨⟨hf, rfl, hcreate⟩, by decide +kernel, by decide +kernel,
    fun session hmem => (h.1 session hmem).2.1,
    h.2.2 (by decide) 0 (Counters.atMost_zero 0) (by decide)⟩

end SpeechRelay.Relay
