import SpeechRelay.Machine

/-!
# Sample formats and frames

Audio comes in interleaved: a unit holds one sample of every channel. The recognizer hears mono
frames, which are either mixed from buffered audio or silence.
-/

set_option autoImplicit false

namespace SpeechRelay.Audio

/-- How interleaved samples are laid out. -/
structure SampleFormat where
  channels : UInt16
  bytesPerSample : UInt16
  deriving DecidableEq

namespace SampleFormat

/-- Two channels of 16 bits. -/
def stereo : SampleFormat := ⟨2, 2⟩

/-- The bytes of one unit: a sample of every channel. -/
def unitBytes (f : SampleFormat) : Nat := f.channels.toNat * f.bytesPerSample.toNat

end SampleFormat

/-- Where a frame comes from. -/
inductive FrameSource where
  /-- Mixed from buffered audio. -/
  | buffered
  /-- Made because not enough audio was buffered. -/
  | silence
  deriving DecidableEq

/-- A run of mono samples for the recognizer. -/
structure MonoFrame where
  samples : List Int16
  source : FrameSource

/-- A frame of silence with that many samples. -/
def silence (count : Nat) : Except Halt (List Int16) :=
  (Machine.reserve count 2).map fun _ => List.replicate count 0

/-- Silence, if it is made, is as many zeros as were asked for. -/
theorem silence_eq_ok {count : Nat} {samples : List Int16} (h : silence count = .ok samples) :
    samples = List.replicate count 0 := by
  unfold silence at h
  cases hr : Machine.reserve count 2 with
  | error e => simp [hr, Except.map] at h
  | ok _ => simp only [hr, Except.map, Except.ok.injEq] at h; exact h.symm

/-- Silence is made if its samples fit into memory. -/
theorem silence_of_le {count : Nat} (h : count * 2 ≤ Machine.maxBytes) :
    silence count = .ok (List.replicate count 0) := by
  unfold silence Machine.reserve
  rw [if_pos h]
  rfl

end SpeechRelay.Audio
