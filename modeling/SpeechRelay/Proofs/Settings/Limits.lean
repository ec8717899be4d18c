import SpeechRelay.Proofs.Feeder.Calls
import SpeechRelay.Recognizer.Backend
import SpeechRelay.Settings.Check

/-!
# Settings and the limits of the machine

A check of the settings leaves no room for a fault in the work itself: the recognizer can be built,
and mixing never halts. But the check sets lower bounds only, and two settings also need upper ones.
The buffer sets room aside for four times its gate, and a frame of silence has room for two bytes a
sample. `Settings.Fits` says that both are within the address space.

Settings that pass the check and fit give a feeder that completes every call, within the budget that
the counters have in any case. Settings that pass the check and do not fit give none: the buffer
cannot be made, or the first tick halts (`completes_iff_fits`). Such settings exist
(`exists_checked_not_fits`).
-/

set_option autoImplicit false

namespace SpeechRelay.Settings

open Audio

/-! ## What the check says -/

/-- A check that passed has met its first demand and all the others. -/
theorem demand_bind_eq_ok {holds : Bool} {fault : Fault} {rest : Unit → Except Fault Unit}
    (h : (demand holds fault >>= rest) = .ok ()) : holds = true ∧ rest () = .ok () := by
  unfold demand at h
  split at h
  · next hholds => exact ⟨hholds, h⟩
  · cases h

/-- What settings that passed the check have to do with the audio and the recognizer. -/
structure Sensible (s : Settings) : Prop where
  format : s.audio.format.IsPcm16
  gate : s.audio.unitBytes ≤ s.audio.consumeGateBytes.toNat
  silence : 0 < s.audio.silenceFrameSamples.toNat
  backend : s.recognizer.backend = "vosk" ∨ s.recognizer.backend = "null"

/-- Settings that pass the check are sensible. -/
theorem sensible_of_check {s : Settings} (h : s.check = .ok ()) : s.Sensible := by
  unfold check at h
  obtain ⟨-, h⟩ := demand_bind_eq_ok h
  obtain ⟨-, h⟩ := demand_bind_eq_ok h
  obtain ⟨hchannels, h⟩ := demand_bind_eq_ok h
  obtain ⟨hwidth, h⟩ := demand_bind_eq_ok h
  obtain ⟨hgate, h⟩ := demand_bind_eq_ok h
  obtain ⟨hsilence, h⟩ := demand_bind_eq_ok h
  obtain ⟨-, h⟩ := demand_bind_eq_ok h
  obtain ⟨-, h⟩ := demand_bind_eq_ok h
  unfold demand at h
  split at h
  · next hbackend =>
    refine ⟨⟨of_decide_eq_true hwidth, ?_⟩, of_decide_eq_true hgate, ?_, by simpa using hbackend⟩
    · have hne : s.audio.channels ≠ 0 := by simpa using hchannels
      show 1 ≤ s.audio.channels
      rw [UInt16.le_iff_toNat_le]
      exact Nat.one_le_iff_ne_zero.mpr fun hzero => hne (UInt16.toNat_inj.mp hzero)
    · have hne : s.audio.silenceFrameSamples ≠ 0 := by simpa using hsilence
      exact Nat.pos_of_ne_zero fun hzero => hne (UInt64.toNat_inj.mp hzero)
  · cases h

/-- Each backend that passes the check can be built. -/
theorem exists_build {s : Settings} (h : s.Sensible) :
    ∃ built, Recognizer.build s.recognizer.backend s.recognizer.modelPath = .ok built := by
  unfold Recognizer.build
  rcases h.backend with hvosk | hnull
  · rw [hvosk]
    exact ⟨_, rfl⟩
  · rw [hnull]
    exact ⟨_, rfl⟩

/-! ## Upper bounds -/

/-- What the settings make the machine set aside is within the address space. -/
structure Fits (s : Settings) : Prop where
  gate : s.audio.consumeGateBytes.toNat * 4 ≤ Machine.maxBytes
  silence : s.audio.silenceFrameSamples.toNat * 2 ≤ Machine.maxBytes

/-- The feeder's part of the settings. -/
def setup {σ τ ω : Type} (s : Settings) (recognizer : Recognizer σ) (outlet : Outlet τ)
    (medium : Medium ω) : Feeder.Setup σ τ ω where
  format := s.audio.format
  silenceSamples := s.audio.silenceFrameSamples.toNat
  logHypotheses := s.recognizer.logPartials
  recognizer := recognizer
  outlet := outlet
  medium := medium

/-- The buffer of the settings. -/
def buffer (s : Settings) : Except Halt Buffer :=
  Buffer.create s.audio.format s.audio.consumeGateBytes.toNat

/-- The buffer of the settings can be created just if four times its gate fits into memory. -/
theorem exists_buffer_iff (s : Settings) :
    (∃ b, s.buffer = .ok b) ↔ s.audio.consumeGateBytes.toNat * 4 ≤ Machine.maxBytes := by
  unfold buffer Buffer.create
  constructor
  · intro h
    obtain ⟨b, hb⟩ := h
    split at hb
    · cases hb
    · next room hroom =>
      split at hb
      · cases hb
      · next hreserve =>
        unfold Machine.reserve at hreserve
        split at hreserve
        · obtain ⟨-, rfl⟩ := Machine.word_eq_ok.mp hroom
          omega
        · cases hreserve
  · intro h
    have hword : Machine.word (s.audio.consumeGateBytes.toNat * 4) =
        .ok (s.audio.consumeGateBytes.toNat * 4) :=
      Machine.word_of_lt (Nat.lt_of_le_of_lt h (by decide))
    have hreserve : Machine.reserve (s.audio.consumeGateBytes.toNat * 4) 1 = .ok () := by
      unfold Machine.reserve
      rw [if_pos (by omega)]
    rw [hword]
    dsimp only
    rw [hreserve]
    exact ⟨_, rfl⟩

/-- With an empty buffer and a gate that is shut, a tick needs a frame of silence. -/
theorem tick_of_large_silence {σ τ ω : Type} {s : Feeder.Setup σ τ ω} {f : Feeder σ τ ω}
    (hshut : f.pipeline.buffer.size < f.pipeline.buffer.gate)
    (hlarge : Machine.maxBytes < s.silenceSamples * 2) (r : Feeder.Reading) :
    (Feeder.tick s r f).1 = .error .capacity := by
  have hsilence : silence s.silenceSamples = .error .capacity := by
    unfold silence Machine.reserve
    rw [if_neg (Nat.not_le.mpr hlarge)]
    rfl
  have hframe := Feeder.nextFrame_of_lt (s := s) hshut
  rw [hsilence] at hframe
  unfold Feeder.tick
  generalize Feeder.nextFrame s f = framed at hframe ⊢
  obtain ⟨result, made⟩ := framed
  cases hframe
  rfl

/-- Settings that pass the check give a recognizer. If they also fit the machine, they give a buffer
with which every call comes to its end while the costs of the calls stay below the size of a word,
whatever the recognizer, the outlet and the medium do. If they do not fit, then there is no buffer,
or every first tick halts. -/
theorem completes_iff_fits {settings : Settings} (hcheck : settings.check = .ok ()) {σ τ ω : Type}
    (recognizer : Recognizer σ) (outlet : Outlet τ) (medium : Medium ω) (f : Feeder σ τ ω) :
    let s := settings.setup recognizer outlet medium
    (∃ built, Recognizer.build settings.recognizer.backend settings.recognizer.modelPath =
      .ok built) ∧
    (settings.Fits → ∃ b, settings.buffer = .ok b ∧
      ∀ (clearOnDisconnect : Bool) (calls : List Feeder.Call),
        (calls.map (Feeder.Call.cost s)).sum < Machine.wordSize →
          ∃ replies g, Feeder.completeAll s clearOnDisconnect { f with pipeline := .create b } calls =
            .ok (replies, g)) ∧
    (¬ settings.Fits → (∃ halt, settings.buffer = .error halt) ∨
      ∃ b, settings.buffer = .ok b ∧
        ∀ r, (Feeder.tick s r { f with pipeline := .create b }).1 = .error .capacity) := by
  intro s
  have hsensible := sensible_of_check hcheck
  refine ⟨exists_build hsensible, fun hfits => ?_, fun hnot => ?_⟩
  · obtain ⟨b, hb⟩ := settings.exists_buffer_iff.mpr hfits.gate
    refine ⟨b, hb, fun clearOnDisconnect calls hcost => ?_⟩
    exact Feeder.completes_of_cost (s := s) hsensible.format hfits.silence hb rfl clearOnDisconnect
      hcost
  · cases hb : settings.buffer with
    | error halt => exact Or.inl ⟨halt, rfl⟩
    | ok b =>
      have hgate := settings.exists_buffer_iff.mp ⟨b, hb⟩
      have hlarge : Machine.maxBytes < settings.audio.silenceFrameSamples.toNat * 2 := by
        by_contra hsmall
        exact hnot ⟨hgate, Nat.not_lt.mp hsmall⟩
      obtain ⟨hsame, -, hempty⟩ := Buffer.create_eq_ok hb
      -- The buffer is empty, and its gate is at least a unit.
      have hshut : b.size < b.gate := by
        have hunit : 0 < settings.audio.unitBytes := hsensible.format.unitBytes_pos
        have hopens := hsensible.gate
        rw [Buffer.size, hempty, hsame, List.length_nil]
        omega
      exact Or.inr ⟨b, rfl, fun r => tick_of_large_silence hshut hlarge r⟩

/-- The default settings with the null recognizer. -/
theorem completes_iff_fits_default :
    let s := default.setup Recognizer.null TranscriptQueue.outlet Disk.medium
    let f : Feeder Unit TranscriptQueue Disk :=
      .create () .create (.file []) (.create ⟨512, 4, [], by decide⟩)
    let r : Feeder.Reading := ⟨⟨0⟩, ⟨0, 0⟩, 0⟩
    default.check = .ok () ∧ default.Fits ∧ ∃ b, default.buffer = .ok b ∧
      ∃ replies g, Feeder.completeAll s false { f with pipeline := .create b }
        [.handle (.audio [1, 2, 3]), .tick r, .finish r] = .ok (replies, g) := by
  intro s f r
  have hcheck : default.check = .ok () := by decide
  have hfits : default.Fits := ⟨by decide, by decide⟩
  obtain ⟨b, hb, hcompletes⟩ :=
    (completes_iff_fits hcheck Recognizer.null TranscriptQueue.outlet Disk.medium f).2.1 hfits
  exact ⟨hcheck, hfits, b, hb, hcompletes false _ (by decide)⟩

/-- The default settings with a gate of 2⁶¹ bytes. -/
def wideGate : Settings :=
  { default with audio := { default.audio with consumeGateBytes := 2305843009213693952 } }

/-- The default settings with 2⁶² samples of silence. -/
def longSilence : Settings :=
  { default with audio := { default.audio with silenceFrameSamples := 4611686018427387904 } }

/-- A gate of 2⁶¹ bytes is more than memory can be set aside for. -/
theorem buffer_wideGate : wideGate.buffer = .error .capacity := by
  have hword : Machine.word (wideGate.audio.consumeGateBytes.toNat * 4) =
      .ok 9223372036854775808 :=
    Machine.word_of_lt (by decide)
  have hreserve : Machine.reserve 9223372036854775808 1 = .error .capacity := if_neg (by decide)
  unfold buffer Buffer.create
  rw [hword]
  dsimp only
  rw [hreserve]

/-- With 2⁶² samples of silence, a tick halts whatever recognizer, outlet and medium there are. -/
theorem tick_longSilence {σ τ ω : Type} (recognizer : Recognizer σ) (outlet : Outlet τ)
    (medium : Medium ω) (f : Feeder σ τ ω) (r : Feeder.Reading) :
    ∃ b, longSilence.buffer = .ok b ∧
      (Feeder.tick (longSilence.setup recognizer outlet medium) r
        { f with pipeline := .create b }).1 = .error .capacity := by
  obtain ⟨b, hb⟩ := longSilence.exists_buffer_iff.mpr (by decide)
  obtain ⟨hgate, -, hempty⟩ := Buffer.create_eq_ok hb
  have hshut : b.size < b.gate := by
    rw [Buffer.size, hempty, hgate]
    decide
  have hlarge : Machine.maxBytes < longSilence.audio.silenceFrameSamples.toNat * 2 := by decide
  exact ⟨b, hb, tick_of_large_silence hshut hlarge r⟩

/-- Not all settings that pass the check give a feeder that runs: there is no room for the buffer of
the first, and the first tick of the second halts. -/
theorem exists_checked_not_fits :
    wideGate.check = .ok () ∧ wideGate.buffer = .error .capacity ∧
    longSilence.check = .ok () ∧ ∃ b, longSilence.buffer = .ok b ∧
      (Feeder.tick (longSilence.setup Recognizer.null TranscriptQueue.outlet Disk.medium)
        ⟨⟨0⟩, ⟨0, 0⟩, 0⟩
        (.create () .create (.file []) (.create b))).1 = .error .capacity := by
  obtain ⟨b, hb, htick⟩ := tick_longSilence Recognizer.null TranscriptQueue.outlet Disk.medium
    (.create () .create (.file []) (.create ⟨512, 4, [], by decide⟩)) ⟨⟨0⟩, ⟨0, 0⟩, 0⟩
  exact ⟨by decide, buffer_wideGate, by decide, b, hb, htick⟩

end SpeechRelay.Settings
