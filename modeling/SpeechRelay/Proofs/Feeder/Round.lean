import SpeechRelay.Proofs.Audio.Mixing
import SpeechRelay.Proofs.Feeder.Touches

/-!
# What a round does to the audio

A round takes what it feeds from the front of the buffer and touches the buffer nowhere else,
whatever the recognizer, the outlet and the log of samples do, and also if a limit of the machine
halts it half-way (`buffer_tick`). With samples of 16 bits, what it takes are whole units, and the
frame it makes of them is their mono form (`fedFrom_round`).

`round` is a tick seen from outside: the frame it made, how it ended, and the samples its recognizer
heard. A round that came to its end reports that frame, and the recognizer heard just its samples
(`faithful_round`).
-/

set_option autoImplicit false

namespace SpeechRelay.Feeder

open Audio

variable {σ τ ω : Type}

/-! ## The frame of a round -/

section NextFrame

variable {s : Setup σ τ ω} {f : Feeder σ τ ω}

/-- With the gate open, a frame is mixed from all whole units, and the rest is left behind. -/
theorem nextFrame_of_le (hf : s.format.IsPcm16)
    (h : f.pipeline.buffer.gate ≤ f.pipeline.buffer.size) :
    (nextFrame s f).1 =
      .ok (⟨s.format.mono (f.pipeline.buffer.bytes.take f.pipeline.buffer.wholeBytes), .buffered⟩,
        (f.pipeline.buffer.bytes.drop f.pipeline.buffer.wholeBytes).length) := by
  unfold nextFrame
  rw [Buffer.take_of_le h]
  dsimp only
  rw [SampleFormat.downmix_eq_ok hf]

/-- With the gate shut, a frame is silence. -/
theorem nextFrame_of_lt (h : f.pipeline.buffer.size < f.pipeline.buffer.gate) :
    (nextFrame s f).1 = (silence s.silenceSamples).map fun samples => (⟨samples, .silence⟩, 0) := by
  unfold nextFrame
  rw [Buffer.take_of_lt h]
  dsimp only
  cases silence s.silenceSamples <;> rfl

end NextFrame

/-! ## The calls of a round -/

/-- The setup whose recognizer also keeps the calls it got. -/
def Setup.recorded (s : Setup σ τ ω) : Setup (σ × List RecognizerCall) τ ω where
  format := s.format
  silenceSamples := s.silenceSamples
  logHypotheses := s.logHypotheses
  recognizer := s.recognizer.recorded
  outlet := s.outlet
  medium := s.medium

/-- The samples that a recognizer was given in some calls. -/
def samplesHeard (calls : List RecognizerCall) : List Int16 :=
  calls.flatMap fun
    | .accept samples => samples
    | _ => []

section Calls

variable (s : Setup σ τ ω) (f : Feeder (σ × List RecognizerCall) τ ω)

/-- Asking for a hypothesis is one call. -/
theorem calls_askHypothesis :
    (askHypothesis s.recorded f).2.recognizer.2 = f.recognizer.2 ++ [.partialResult] := by
  unfold askHypothesis
  split
  · next heq => exact (congrArg (fun p => p.2.2) heq).symm
  · next heq =>
    split <;> exact (congrArg (fun p => p.2.2) heq).symm

/-- Asking for an utterance is one call. -/
theorem calls_askUtterance :
    (askUtterance s.recorded f).2.recognizer.2 = f.recognizer.2 ++ [.result] := by
  unfold askUtterance
  split
  · next heq => exact (congrArg (fun p => p.2.2) heq).symm
  · next heq =>
    split <;> exact (congrArg (fun p => p.2.2) heq).symm

/-- Among the calls made for samples, one gives the recognizer the samples, unless there are none.
-/
theorem calls_hear (samples : List Int16) :
    ∃ calls, (hear s.recorded samples f).2.recognizer.2 = f.recognizer.2 ++ calls ∧
      samplesHeard calls = samples := by
  unfold hear
  split
  · next hempty =>
    refine ⟨[], (List.append_nil _).symm, ?_⟩
    rw [List.isEmpty_iff.mp hempty]
    rfl
  · split
    · next state heq =>
      have hcalls : state.2 = f.recognizer.2 ++ [.accept samples] :=
        (congrArg (fun p => p.2.2) heq).symm
      exact ⟨[.accept samples], hcalls, by simp [samplesHeard]⟩
    · next state heq =>
      have hcalls : state.2 = f.recognizer.2 ++ [.accept samples] :=
        (congrArg (fun p => p.2.2) heq).symm
      split
      · refine ⟨[.accept samples, .partialResult], ?_, by simp [samplesHeard]⟩
        rw [calls_askHypothesis]
        show state.2 ++ _ = _
        rw [hcalls, List.append_assoc]
        rfl
      · exact ⟨[.accept samples], hcalls, by simp [samplesHeard]⟩
    · next state heq =>
      have hcalls : state.2 = f.recognizer.2 ++ [.accept samples] :=
        (congrArg (fun p => p.2.2) heq).symm
      refine ⟨[.accept samples, .result], ?_, by simp [samplesHeard]⟩
      rw [calls_askUtterance]
      show state.2 ++ _ = _
      rw [hcalls, List.append_assoc]
      rfl

end Calls

/-! ## Rounds seen from outside -/

/-- What one round did. -/
structure Round where
  /-- The frame that the round made, unless it halted before. -/
  frame : Except Halt MonoFrame
  outcome : Except Halt Outcome
  /-- The samples that the recognizer was given. -/
  heard : List Int16

/-- The samples of the frame, if they come from the buffer. -/
def Round.buffered (round : Round) : List Int16 :=
  match round.frame with
  | .ok ⟨samples, .buffered⟩ => samples
  | _ => []

/-- All samples from the buffer that rounds have fed. -/
def bufferedSamples (rounds : List Round) : List Int16 := rounds.flatMap Round.buffered

/-- No rounds have fed nothing. -/
@[simp] theorem bufferedSamples_nil : bufferedSamples [] = [] := rfl

/-- Rounds in a row feed one after the other. -/
@[simp] theorem bufferedSamples_append (rounds more : List Round) :
    bufferedSamples (rounds ++ more) = bufferedSamples rounds ++ bufferedSamples more :=
  List.flatMap_append

/-- A single round has fed what it took from the buffer. -/
@[simp] theorem bufferedSamples_singleton (round : Round) :
    bufferedSamples [round] = round.buffered := List.append_nil _

/-- If the round came to its end, it reports its frame, and the recognizer heard that frame. -/
def Round.Faithful (round : Round) : Prop :=
  ∀ o, round.outcome = .ok o → ∃ frame, round.frame = .ok frame ∧ o.source = frame.source ∧
    o.samples = frame.samples.length ∧ round.heard = frame.samples

/-- A tick as a round, and the feeder after it. -/
def round (s : Setup σ τ ω) (r : Reading) (f : Feeder (σ × List RecognizerCall) τ ω) :
    Round × Feeder (σ × List RecognizerCall) τ ω :=
  match tick s.recorded r f with
  | (outcome, g) =>
    (⟨(nextFrame s.recorded f).1.map Prod.fst, outcome,
      samplesHeard (g.recognizer.2.drop f.recognizer.2.length)⟩, g)

/-- What a tick that came to its end did before the verdict of the recognizer. -/
theorem tick_eq_ok {s : Setup σ τ ω} {r : Reading} {f g : Feeder σ τ ω} {o : Outcome}
    (h : tick s r f = (.ok o, g)) :
    ∃ frame remainder made c, nextFrame s f = (.ok (frame, remainder), made) ∧
      made.pipeline.counters.record (.fed frame.source frame.samples.length remainder) = .ok c ∧
      (let heard := hear s frame.samples
        ((logSamples s frame.samples (made.counting c)).enter .recognizing)
      conclude s r frame heard.1 heard.2 = (.ok o, g)) := by
  unfold tick at h
  split at h
  · cases h
  · next frame remainder made hframe =>
    rcases record_cases made (.fed frame.source frame.samples.length remainder) with
      ⟨c, hc, hrecord⟩ | ⟨halt, -, hrecord⟩
    · rw [hrecord] at h
      exact ⟨frame, remainder, made, c, hframe, hc, h⟩
    · rw [hrecord] at h
      cases h

/-- A round that comes to its end reports the frame that it was about. -/
theorem conclude_eq_ok {s : Setup σ τ ω} {r : Reading} {frame : MonoFrame} {v : Verdict}
    {f g : Feeder σ τ ω} {o : Outcome} (h : conclude s r frame v f = (.ok o, g)) :
    o.source = frame.source ∧ o.samples = frame.samples.length := by
  unfold conclude at h
  split at h
  · cases h
    exact ⟨rfl, rfl⟩
  · split at h <;> cases h
    exact ⟨rfl, rfl⟩
  · split at h <;> cases h
    exact ⟨rfl, rfl⟩

/-- Every round is faithful. -/
theorem faithful_round (s : Setup σ τ ω) (r : Reading) (f : Feeder (σ × List RecognizerCall) τ ω) :
    (round s r f).1.Faithful := by
  intro o ho
  obtain ⟨g, htick⟩ : ∃ g, tick s.recorded r f = (.ok o, g) :=
    ⟨(tick s.recorded r f).2, Prod.ext ho rfl⟩
  obtain ⟨frame, remainder, made, c, hframe, -, hend⟩ := tick_eq_ok htick
  obtain ⟨hsource, hsamples⟩ := conclude_eq_ok hend
  refine ⟨frame, ?_, hsource, hsamples, ?_⟩
  · simp [round, hframe, Except.map]
  · obtain ⟨calls, hcalls, hheard⟩ := calls_hear s
      ((logSamples s.recorded frame.samples (made.counting c)).enter .recognizing) frame.samples
    have hstart : ((logSamples s.recorded frame.samples (made.counting c)).enter
        .recognizing).recognizer = f.recognizer := by
      have hmade := (touches_nextFrame s.recorded f).recognizer (by simp)
      rw [hframe] at hmade
      exact ((touches_ready s.recorded (made.counting c) frame.samples).recognizer
        (by simp)).trans hmade
    have hfinal : g.recognizer.2 = f.recognizer.2 ++ calls := by
      have h := (touches_conclude s.recorded r (hear s.recorded frame.samples
        ((logSamples s.recorded frame.samples (made.counting c)).enter .recognizing)).2 frame
        (hear s.recorded frame.samples
          ((logSamples s.recorded frame.samples (made.counting c)).enter
            .recognizing)).1).recognizer (by simp)
      rw [hend] at h
      rw [h, hcalls, hstart]
    simp [round, htick, hfinal, hheard]

/-- A round feeds the whole units that it takes, and leaves the rest in the buffer. -/
theorem fedFrom_round {s : Setup σ τ ω} (hf : s.format.IsPcm16) (r : Reading)
    {f : Feeder (σ × List RecognizerCall) τ ω}
    (hunit : f.pipeline.buffer.unit = s.format.unitBytes) {audio : List UInt8} {fed : List Int16}
    (h : s.format.FedFrom audio f.pipeline.buffer.bytes fed) :
    s.format.FedFrom audio (round s r f).2.pipeline.buffer.bytes
      (fed ++ (round s r f).1.buffered) := by
  have hbuffer : (round s r f).2.pipeline.buffer = f.pipeline.buffer.take.2 :=
    buffer_tick s.recorded r f
  rw [hbuffer]
  by_cases hgate : f.pipeline.buffer.gate ≤ f.pipeline.buffer.size
  · have hframe := nextFrame_of_le (s := s.recorded) hf hgate
    have hbuffered : (round s r f).1.buffered =
        s.format.mono (f.pipeline.buffer.bytes.take f.pipeline.buffer.wholeBytes) := by
      simp only [Round.buffered, round, hframe, Except.map]
      rfl
    rw [hbuffered, Buffer.take_of_le hgate]
    apply SampleFormat.FedFrom.feed hf
    · rw [Buffer.length_take_wholeBytes, ← hunit]
      exact f.pipeline.buffer.unit_dvd_wholeBytes
    · rw [List.take_append_drop]
      exact h
  · have hlt := Nat.not_le.mp hgate
    have hbuffered : (round s r f).1.buffered = [] := by
      simp only [Round.buffered, round, nextFrame_of_lt hlt]
      cases silence s.recorded.silenceSamples <;> rfl
    rw [hbuffered, Buffer.take_of_lt hlt, List.append_nil]
    exact h

end SpeechRelay.Feeder
