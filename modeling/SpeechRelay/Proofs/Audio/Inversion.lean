import Mathlib.Data.Set.Function
import SpeechRelay.Proofs.Audio.Means

/-!
# Writing samples and mixing them down again

Samples are written as two bytes each, the low one first. Reading pairs them up again, so that
samples and an even number of bytes are two forms of the same thing (`Pcm.decode_encode`,
`Pcm.encode_decode`). Mixing down one channel is reading. Mixing down many channels that all hold
the same sample is reading too: the sum of a unit is so many times the sample, and its mean is
exact.

`SampleFormat.downmix_inverts_encode` puts these together.
-/

set_option autoImplicit false

namespace SpeechRelay.Audio

/-! ## One sample -/

namespace Pcm

/-- The first byte of a sample is its number modulo 256. -/
theorem toNat_low (s : Int16) : s.toUInt16.toUInt8.toNat = s.toUInt16.toNat % 256 := by
  simp

/-- The second byte of a sample is its number divided by 256. -/
theorem toNat_high (s : Int16) : (s.toUInt16 >>> 8).toUInt8.toNat = s.toUInt16.toNat / 256 := by
  have hlt : s.toUInt16.toNat < 65536 := s.toUInt16.toNat_lt
  simp [Nat.shiftRight_eq_div_pow]
  omega

/-- A sample is read back from its two bytes. -/
theorem sample_low_high (s : Int16) :
    sample s.toUInt16.toUInt8 (s.toUInt16 >>> 8).toUInt8 = s := by
  have hword : (sample s.toUInt16.toUInt8 (s.toUInt16 >>> 8).toUInt8).toUInt16 = s.toUInt16 := by
    apply UInt16.toNat_inj.mp
    rw [toNat_sample, toNat_low, toNat_high]
    exact Nat.mod_add_div _ _
  rw [← Int16.toInt16_toUInt16 (sample _ _), hword, Int16.toInt16_toUInt16]

/-- Two bytes are written again as they were read. -/
theorem sampleBytes_sample (low high : UInt8) : sampleBytes (sample low high) = [low, high] := by
  have hlow : low.toNat < 256 := low.toNat_lt
  unfold sampleBytes
  congr 1
  · apply UInt8.toNat_inj.mp
    rw [toNat_low, toNat_sample]
    omega
  · congr 1
    apply UInt8.toNat_inj.mp
    rw [toNat_high, toNat_sample]
    omega

/-! ## Many samples -/

/-- The bytes of the first sample come first, the low one before the high one. -/
@[simp] theorem encode_cons (s : Int16) (samples : List Int16) :
    encode (s :: samples) = s.toUInt16.toUInt8 :: (s.toUInt16 >>> 8).toUInt8 :: encode samples := by
  simp [encode, sampleBytes]

/-- What was written is read back. -/
@[simp] theorem decode_encode (samples : List Int16) : decode (encode samples) = samples := by
  induction samples with
  | nil => rfl
  | cons s samples ih => rw [encode_cons, decode_cons_cons, sample_low_high, ih]

/-- What was read can be written again, if no byte was left over. -/
theorem encode_decode : ∀ {bytes : List UInt8}, Even bytes.length → encode (decode bytes) = bytes
  | [], _ => rfl
  | [_], h => by simp at h
  | low :: high :: bytes, h => by
    have heven : Even bytes.length := by
      simpa [Nat.even_add_one] using h
    have hpair := sampleBytes_sample low high
    rw [decode_cons_cons, encode, List.flatMap_cons, hpair]
    simpa [encode] using encode_decode heven

/-- Encoded samples have an even number of bytes. -/
theorem even_length_encode (samples : List Int16) : Even (encode samples).length := by
  rw [length_encode]
  exact even_two_mul _

/-- Lists of samples and byte strings of even length are in one-to-one correspondence. -/
theorem bijOn_encode : Set.BijOn encode Set.univ {bytes | Even bytes.length} := by
  refine ⟨?_, ?_, ?_⟩
  · intro samples _
    exact even_length_encode samples
  · intro samples _ others _ h
    rw [← decode_encode samples, h, decode_encode]
  · intro bytes heven
    exact ⟨decode bytes, Set.mem_univ _, encode_decode heven⟩

end Pcm

/-! ## The same sample in all channels -/

/-- Lists of `n` elements, one behind the other, have these lists as groups. -/
theorem groups_flatten {α : Type} {n : Nat} (hn : 0 < n) {xss : List (List α)}
    (h : ∀ xs ∈ xss, xs.length = n) : groups n xss.flatten = xss := by
  induction xss with
  | nil => exact groups_of_lt hn
  | cons xs xss ih =>
    have hlength : xs.length = n := h xs List.mem_cons_self
    have hrest := ih fun other hmem => h other (List.mem_cons_of_mem xs hmem)
    rw [List.flatten_cons, groups_of_le hn (by simp [hlength]), List.take_left' hlength,
      List.drop_left' hlength, hrest]

/-- The sum of equal samples is a multiple of one of them. -/
theorem sampleSum_replicate (k : Nat) (s : Int16) :
    sampleSum (List.replicate k s) = k * s.toInt := by
  simp [sampleSum]

/-- The mean of equal samples is the sample. -/
theorem monoSample_replicate {k : Nat} (hk : 0 < k) (s : Int16) :
    monoSample (List.replicate k s) = s := by
  have hcount : (k : Int) ≠ 0 := by omega
  apply Int16.toInt_inj.mp
  rw [toInt_monoSample (by simpa using hk), sampleSum_replicate, List.length_replicate,
    roundedQuotient, Int.mul_tmod_right, Int.mul_tdiv_cancel_left _ hcount]
  apply if_neg
  omega

namespace SampleFormat

variable {f : SampleFormat}

/-- The mono samples are the means of the groups of samples, one group for each unit. -/
theorem mono_eq (hf : f.IsPcm16) (bytes : List UInt8) :
    f.mono bytes = (groups f.channels.toNat (Pcm.decode bytes)).map monoSample := by
  rw [Pcm.groups_decode, ← hf.unitBytes_eq, List.map_map]
  rfl

/-- Each sample is written once for every channel, and mixing gives it back. -/
theorem downmix_repeated (hf : f.IsPcm16) (samples : List Int16) :
    f.downmix (Pcm.encode (samples.flatMap (List.replicate f.channels.toNat))) = .ok samples := by
  have hpos := hf.channels_pos
  have hgroups : groups f.channels.toNat (samples.flatMap (List.replicate f.channels.toNat)) =
      samples.map (List.replicate f.channels.toNat) := by
    rw [List.flatMap_def]
    apply groups_flatten hpos
    simp
  have hmeans : monoSample ∘ List.replicate f.channels.toNat = id := by
    funext s
    exact monoSample_replicate hpos s
  rw [downmix_eq_ok hf, mono_eq hf, Pcm.decode_encode, hgroups, List.map_map, hmeans, List.map_id]

/-- One channel is mixed by reading it. -/
theorem downmix_encode (samples : List Int16) :
    downmix ⟨1, 2⟩ (Pcm.encode samples) = .ok samples := by
  have hsame : samples.flatMap (List.replicate 1) = samples := List.flatMap_singleton' samples
  have h := downmix_repeated (f := ⟨1, 2⟩) ⟨rfl, by decide⟩ samples
  rwa [show (1 : UInt16).toNat = 1 from rfl, hsame] at h

/-- Mixing down undoes writing: when each sample is written once for each of any number of channels,
mixing these channels gives the samples back. With one channel, writing undoes mixing as well, as
long as the number of bytes is even: lists of samples and byte strings of even length correspond to
each other, in one direction by writing and in the other by mixing. -/
theorem downmix_inverts_encode :
    (∀ (k : UInt16) (samples : List Int16), 1 ≤ k →
      downmix ⟨k, 2⟩ (Pcm.encode (samples.flatMap (List.replicate k.toNat))) = .ok samples) ∧
    (∀ bytes : List UInt8, Even bytes.length →
      ∃ samples, downmix ⟨1, 2⟩ bytes = .ok samples ∧ Pcm.encode samples = bytes) ∧
    Set.BijOn Pcm.encode Set.univ {bytes | Even bytes.length} ∧
    (∀ (samples : List Int16) (bytes : List UInt8), Even bytes.length →
      (Pcm.encode samples = bytes ↔ downmix ⟨1, 2⟩ bytes = .ok samples)) := by
  have hundone : ∀ bytes : List UInt8, Even bytes.length →
      ∃ samples, downmix ⟨1, 2⟩ bytes = .ok samples ∧ Pcm.encode samples = bytes := by
    intro bytes heven
    have h := downmix_encode (Pcm.decode bytes)
    rw [Pcm.encode_decode heven] at h
    exact ⟨Pcm.decode bytes, h, Pcm.encode_decode heven⟩
  refine ⟨?_, hundone, Pcm.bijOn_encode, ?_⟩
  · intro k samples hk
    exact downmix_repeated ⟨rfl, hk⟩ samples
  · intro samples bytes heven
    constructor
    · rintro rfl
      exact downmix_encode samples
    · intro h
      obtain ⟨others, hmixed, hwritten⟩ := hundone bytes heven
      rw [hmixed] at h
      rwa [← Except.ok.inj h]

/-- The smallest and the largest sample in three channels, and two bytes in one. -/
theorem downmix_inverts_encode_three :
    downmix ⟨3, 2⟩ (Pcm.encode [-32768, -32768, -32768, 32767, 32767, 32767]) =
      .ok [-32768, 32767] ∧
    ∃ samples, downmix ⟨1, 2⟩ [0, 128] = .ok samples ∧ Pcm.encode samples = [0, 128] := by
  obtain ⟨hchannels, hbytes, -, -⟩ := downmix_inverts_encode
  exact ⟨hchannels 3 [-32768, 32767] (by decide), hbytes [0, 128] (by decide)⟩

end SampleFormat

end SpeechRelay.Audio
