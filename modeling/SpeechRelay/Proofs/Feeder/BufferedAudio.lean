import SpeechRelay.Proofs.Feeder.Calls
import SpeechRelay.Recognizer.Backend

/-!
# Buffered audio is fed once and in order

Bytes may be added to the buffer in pieces of any size, and the feeder may tick at any time between
them. However that is, the samples of all rounds that take from the buffer are, one after the other,
what mixing down the stream at once gives for its beginning, and the buffer holds the rest
(`buffered_samples_eq_downmix`). The schedule decides only how far the feeder has come.

The invariant of a run is `SampleFormat.FedFrom`: it holds of the bytes added so far, the bytes in
the buffer and the samples fed, and each of the two kinds of events keeps it. All rounds of a run
come to their end as long as the events together cost less than a word (`play_completes`).
-/

set_option autoImplicit false

namespace SpeechRelay.Feeder

open Audio

variable {σ τ ω : Type}

/-- What happens to the audio of a feeder. -/
inductive AudioEvent where
  /-- Bytes are added to the buffer. -/
  | append (bytes : List UInt8)
  | tick (r : Reading)

/-- The stream of all bytes that are added. -/
def appended : List AudioEvent → List UInt8
  | [] => []
  | .append bytes :: events => bytes ++ appended events
  | .tick _ :: events => appended events

/-- The rounds of a feeder while events happen, and the feeder after them. -/
def play (s : Setup σ τ ω) (f : Feeder (σ × List RecognizerCall) τ ω) :
    List AudioEvent → List Round × Feeder (σ × List RecognizerCall) τ ω
  | [] => ([], f)
  | .append bytes :: events =>
    play s { f with pipeline := { f.pipeline with
      buffer := f.pipeline.buffer.append bytes } } events
  | .tick r :: events =>
    match round s r f with
    | (this, f) =>
      match play s f events with
      | (more, f) => (this :: more, f)

/-- All rounds of a run are faithful. -/
theorem faithful_play (s : Setup σ τ ω) (events : List AudioEvent)
    (f : Feeder (σ × List RecognizerCall) τ ω) :
    ∀ round ∈ (play s f events).1, round.Faithful := by
  induction events generalizing f with
  | nil =>
    intro round h
    cases h
  | cons event events ih =>
    cases event with
    | append bytes => exact ih _
    | tick r =>
      intro this h
      rcases List.mem_cons.mp h with rfl | h
      · exact faithful_round s r f
      · exact ih _ this h

/-- Along a run, what was fed and what is buffered stay the beginning and the rest of the stream. -/
theorem fedFrom_play {s : Setup σ τ ω} (hf : s.format.IsPcm16) (events : List AudioEvent)
    {f : Feeder (σ × List RecognizerCall) τ ω}
    (hunit : f.pipeline.buffer.unit = s.format.unitBytes) {audio : List UInt8} {fed : List Int16}
    (h : s.format.FedFrom audio f.pipeline.buffer.bytes fed) :
    s.format.FedFrom (audio ++ appended events) (play s f events).2.pipeline.buffer.bytes
      (fed ++ bufferedSamples (play s f events).1) := by
  induction events generalizing f audio fed with
  | nil => simpa [play, appended, bufferedSamples] using h
  | cons event events ih =>
    cases event with
    | append bytes =>
      have hnext := ih (f := { f with pipeline :=
        { f.pipeline with buffer := f.pipeline.buffer.append bytes } }) hunit (h.append bytes)
      rwa [List.append_assoc] at hnext
    | tick r =>
      have hbuffer : (round s r f).2.pipeline.buffer = f.pipeline.buffer.take.2 :=
        buffer_tick s.recorded r f
      have hnext := ih (f := (round s r f).2) (by rw [hbuffer, Buffer.unit_take, hunit])
        (fedFrom_round hf r hunit h)
      rwa [List.append_assoc] at hnext

/-- What a run from an empty buffer has fed and buffered is the beginning and the rest of the
stream. -/
theorem fedFrom_play_of_create {s : Setup σ τ ω} (hf : s.format.IsPcm16) {gate : Nat}
    {f : Feeder (σ × List RecognizerCall) τ ω}
    (hcreate : Buffer.create s.format gate = .ok f.pipeline.buffer) (events : List AudioEvent) :
    s.format.FedFrom (appended events) (play s f events).2.pipeline.buffer.bytes
      (bufferedSamples (play s f events).1) := by
  obtain ⟨-, hunit, hbytes⟩ := Buffer.create_eq_ok hcreate
  have hpos := hf.unitBytes_pos
  have h := fedFrom_play hf events (f := f) (by omega)
    (SampleFormat.FedFrom.start s.format f.pipeline.buffer.bytes)
  rwa [hbytes, List.nil_append, List.nil_append] at h

/-- How much of a counter an event can use up. -/
def AudioEvent.cost (silenceSamples : Nat) : AudioEvent → Nat
  | .append bytes => bytes.length
  | .tick _ => silenceSamples + 2

/-- Every round of a run comes to its end if the budget has the cost of all events. -/
theorem play_completes {s : Setup σ τ ω} (hf : s.format.IsPcm16)
    (hsilence : s.silenceSamples * 2 ≤ Machine.maxBytes) (events : List AudioEvent) {n : Nat}
    {f : Feeder (σ × List RecognizerCall) τ ω}
    (hunit : f.pipeline.buffer.unit = s.format.unitBytes) (hw : Within f n)
    (hroom : n + (events.map (AudioEvent.cost s.silenceSamples)).sum < Machine.wordSize) :
    ∀ round ∈ (play s f events).1, ∃ o, round.outcome = .ok o := by
  induction events generalizing f n with
  | nil =>
    intro round h
    cases h
  | cons event events ih =>
    rw [List.map_cons, List.sum_cons, ← Nat.add_assoc] at hroom
    cases event with
    | append bytes =>
      exact ih (f := { f with pipeline :=
        { f.pipeline with buffer := f.pipeline.buffer.append bytes } }) hunit (hw.append bytes) hroom
    | tick r =>
      have htick : n + (s.silenceSamples + 2) < Machine.wordSize :=
        Nat.lt_of_le_of_lt (Nat.le_add_right _ _) hroom
      obtain ⟨o, g, hg, hwithin, hsame⟩ :=
        within_tick_plain (s := s.recorded) r hf hsilence hunit hw htick
      have hnext : (round s r f).2 = g := congrArg Prod.snd hg
      intro this h
      rcases List.mem_cons.mp h with rfl | h
      · exact ⟨o, congrArg Prod.fst hg⟩
      · have hlater : this ∈ (play s (round s r f).2 events).1 := h
        rw [hnext] at hlater
        exact ih (hsame.trans hunit) hwithin hroom this hlater

/-- Whatever the recognizer, the outlet and the log do, and however bytes are added and rounds come
between them: the samples of all rounds that took from the buffer are the mono samples of the first
units of the stream, and the buffer holds the bytes behind these units. Of the samples of two runs
over the same stream, one is the beginning of the other. Every round comes to its end, unless the
counters do not have room for the cost of the events or memory not for a frame of silence. -/
theorem buffered_samples_eq_downmix {σ τ ω σ' τ' ω' : Type} {s : Setup σ τ ω} {s' : Setup σ' τ' ω'}
    (hf : s.format.IsPcm16) (hformat : s'.format = s.format) {gate gate' : Nat}
    {f : Feeder (σ × List RecognizerCall) τ ω} {f' : Feeder (σ' × List RecognizerCall) τ' ω'}
    (hcreate : Buffer.create s.format gate = .ok f.pipeline.buffer)
    (hcreate' : Buffer.create s.format gate' = .ok f'.pipeline.buffer)
    (events events' : List AudioEvent) :
    let samples := bufferedSamples (play s f events).1
    let consumed := samples.length * s.format.unitBytes
    (consumed ≤ (appended events).length ∧
      s.format.downmix ((appended events).take consumed) = .ok samples ∧
      (play s f events).2.pipeline.buffer.bytes = (appended events).drop consumed ∧
      ∀ round ∈ (play s f events).1, round.Faithful) ∧
    (appended events' = appended events →
      samples <+: bufferedSamples (play s' f' events').1 ∨
        bufferedSamples (play s' f' events').1 <+: samples) ∧
    (s.silenceSamples * 2 ≤ Machine.maxBytes → ∀ n, f.pipeline.counters.AtMost n →
      n + (events.map (AudioEvent.cost s.silenceSamples)).sum < Machine.wordSize →
        ∀ round ∈ (play s f events).1, ∃ o, round.outcome = .ok o) := by
  intro samples consumed
  have hfed := fedFrom_play_of_create hf hcreate events
  have hlength := hfed.length_eq
  obtain ⟨hmix, hrest⟩ := hfed.downmix_take hf
  refine ⟨⟨?_, hmix, hrest.symm, faithful_play s events f⟩, ?_, ?_⟩
  · rw [hlength]
    exact Nat.le_add_right _ _
  · intro hstream
    rw [← hformat] at hcreate' hf
    have hfed' := fedFrom_play_of_create hf hcreate' events'
    rw [hstream, hformat] at hfed'
    rw [hformat] at hf
    exact hfed.comparable hf hfed'
  · intro hsilence n hcounters hroom
    have hunit : f.pipeline.buffer.unit = s.format.unitBytes :=
      (Buffer.create_eq_ok hcreate).2.1.trans (Nat.max_eq_left hf.unitBytes_pos)
    exact play_completes hf hsilence events hunit (within_of_create hcreate hcounters) hroom

/-- Two feeders of two channels: one with a gate of a unit gets its bytes split inside samples, the
other has no gate and gets them at once. -/
theorem buffered_samples_eq_downmix_stereo :
    let s : Setup Unit TranscriptQueue Disk :=
      ⟨.stereo, 8192, false, Recognizer.null, TranscriptQueue.outlet, Disk.medium⟩
    let start (gate : Nat) : Feeder (Unit × List RecognizerCall) TranscriptQueue Disk :=
      .create ((), []) .create (.file []) (.create ⟨gate, 4, [], by decide⟩)
    let r : Reading := ⟨⟨0⟩, ⟨0, 0⟩, 0⟩
    let split : List AudioEvent :=
      [.append [100, 0, 200], .tick r, .append [0, 156, 255, 100], .tick r, .append [0, 7], .tick r]
    let whole : List AudioEvent := [.append [100, 0, 200, 0, 156, 255, 100, 0, 7], .tick r]
    let samples := bufferedSamples (play s (start 4) split).1
    (s.format.IsPcm16 ∧ Buffer.create s.format 4 = .ok (start 4).pipeline.buffer ∧
      Buffer.create s.format 0 = .ok (start 0).pipeline.buffer ∧ appended whole = appended split) ∧
    samples = [150, 0] ∧
    s.format.downmix ((appended split).take (samples.length * s.format.unitBytes)) = .ok samples ∧
    (samples <+: bufferedSamples (play s (start 0) whole).1 ∨
      bufferedSamples (play s (start 0) whole).1 <+: samples) ∧
    ∀ round ∈ (play s (start 4) split).1, ∃ o, round.outcome = .ok o := by
  intro s start r split whole samples
  have hf : s.format.IsPcm16 := ⟨rfl, by decide⟩
  have hgate : Buffer.create s.format 4 = .ok (start 4).pipeline.buffer := rfl
  have hnone : Buffer.create s.format 0 = .ok (start 0).pipeline.buffer := rfl
  have hsame : s.format = s.format := rfl
  have h := buffered_samples_eq_downmix hf hsame hgate hnone split whole
  exact ⟨⟨hf, hgate, hnone, rfl⟩, by decide +kernel, h.1.2.1, h.2.1 rfl,
    h.2.2 (by decide) 0 (Counters.atMost_zero 0) (by decide)⟩

end SpeechRelay.Feeder
