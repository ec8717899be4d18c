import Mathlib.Algebra.Ring.Parity
import SpeechRelay.Proofs.Audio.Mixing

/-!
# When mixing halts

A format may have any number of channels, and samples of any number of bytes. Mixing takes the bytes
of the whole units, pairs them up into words of 16 bits and mixes as many words at a time as there
are channels, whatever the width of a sample is. Two things go wrong on the way: a unit of no bytes
divides nothing, and an odd number of bytes cannot be paired up. The arithmetic is never at fault.

`SampleFormat.downmix_halts_iff` says for each input of each format whether mixing halts and why,
and how many samples it gives if it does not.
-/

set_option autoImplicit false

namespace SpeechRelay.Audio

/-- Whole units have an odd number of bytes together if each of them has, and there is an odd number
of them. -/
theorem odd_sub_mod_iff (n unit : Nat) : Odd (n - n % unit) ↔ Odd unit ∧ Odd (n / unit) := by
  rw [← Nat.mul_div_self_eq_mod_sub_self, Nat.odd_mul]

namespace SampleFormat

variable {f : SampleFormat} {bytes : List UInt8}

/-- What the downmix keeps of the bytes is their largest number of whole units. -/
theorem length_take_whole (f : SampleFormat) (bytes : List UInt8) :
    (bytes.take (bytes.length - f.trailing bytes)).length =
      bytes.length - bytes.length % f.unitBytes := by
  rw [List.length_take, trailing]
  exact Nat.min_eq_left (Nat.sub_le _ _)

/-- A unit that is not empty has a channel at least. -/
theorem channels_pos_of_unitBytes (hunit : f.unitBytes ≠ 0) : 0 < f.channels.toNat := by
  apply Nat.pos_of_ne_zero
  intro hzero
  apply hunit
  rw [unitBytes, hzero, Nat.zero_mul]

/-- Words that can be paired up are mixed, as many at a time as there are channels. -/
theorem downmix_of_even (hunit : f.unitBytes ≠ 0)
    (heven : Even (bytes.length - bytes.length % f.unitBytes)) :
    f.downmix bytes = .ok ((groups f.channels.toNat
      (Pcm.decode (bytes.take (bytes.length - f.trailing bytes)))).map monoSample) := by
  have hpos := channels_pos_of_unitBytes hunit
  have hmost : f.channels.toNat ≤ 65535 := Nat.le_of_lt_succ f.channels.toNat_lt
  rw [← length_take_whole, Nat.even_iff] at heven
  simp only [downmix, if_neg hunit, if_pos heven]
  rw [mix, mixOnto_eq_ok hpos hmost, List.reverse_nil, List.nil_append]

/-- An odd number of bytes in whole units cannot be cut into samples of two bytes. -/
theorem downmix_of_odd (hunit : f.unitBytes ≠ 0)
    (hodd : Odd (bytes.length - bytes.length % f.unitBytes)) :
    f.downmix bytes = .error .lengthMismatch := by
  rw [← length_take_whole, Nat.odd_iff] at hodd
  simp only [downmix, if_neg hunit, hodd, one_ne_zero, if_false]

/-- Mixing halts just for a unit of no bytes, and for whole units that have an odd number of bytes
together. Otherwise there is a sample for each group of words. With samples of 16 bits in at least
one channel it never halts; with an odd number of channels and of bytes in a sample it halts just
for an odd number of whole units. -/
theorem downmix_halts_iff (f : SampleFormat) (bytes : List UInt8) :
    let whole := bytes.length - bytes.length % f.unitBytes
    ((∃ halt, f.downmix bytes = .error halt) ↔ f.unitBytes = 0 ∨ Odd whole) ∧
    (∀ halt, f.downmix bytes = .error halt →
      halt = if f.unitBytes = 0 then .zeroDivisor else .lengthMismatch) ∧
    (¬ (f.unitBytes = 0 ∨ Odd whole) → ∃ samples, f.downmix bytes = .ok samples ∧
      samples.length = whole / 2 / f.channels.toNat) ∧
    (f.bytesPerSample = 2 → 1 ≤ f.channels → ∃ samples, f.downmix bytes = .ok samples) ∧
    (Odd f.bytesPerSample.toNat → Odd f.channels.toNat →
      ((∃ halt, f.downmix bytes = .error halt) ↔ Odd (bytes.length / f.unitBytes))) := by
  intro whole
  have hok : ¬ (f.unitBytes = 0 ∨ Odd whole) → ∃ samples, f.downmix bytes = .ok samples ∧
      samples.length = whole / 2 / f.channels.toNat := by
    intro h
    rw [not_or, Nat.not_odd_iff_even] at h
    refine ⟨_, downmix_of_even h.1 h.2, ?_⟩
    rw [List.length_map, length_groups, Pcm.length_decode, length_take_whole]
  have herror : f.unitBytes = 0 ∨ Odd whole → f.downmix bytes =
      .error (if f.unitBytes = 0 then .zeroDivisor else .lengthMismatch) := by
    intro h
    by_cases hunit : f.unitBytes = 0
    · simp only [downmix, if_pos hunit]
    · rw [if_neg hunit]
      exact downmix_of_odd hunit (h.resolve_left hunit)
  have hiff : (∃ halt, f.downmix bytes = .error halt) ↔ f.unitBytes = 0 ∨ Odd whole := by
    constructor
    · rintro ⟨halt, hhalt⟩
      by_contra h
      obtain ⟨samples, hsamples, -⟩ := hok h
      rw [hsamples] at hhalt
      cases hhalt
    · intro h
      exact ⟨_, herror h⟩
  refine ⟨hiff, ?_, hok, ?_, ?_⟩
  · intro halt hhalt
    rw [herror (hiff.mp ⟨halt, hhalt⟩)] at hhalt
    exact (Except.error.inj hhalt).symm
  · intro hwidth hchannels
    exact ⟨_, downmix_eq_ok ⟨hwidth, hchannels⟩ bytes⟩
  · intro hwidth hchannels
    have hodd : Odd f.unitBytes := Nat.odd_mul.mpr ⟨hchannels, hwidth⟩
    have hunit : f.unitBytes ≠ 0 := hodd.pos.ne'
    rw [hiff, or_iff_right hunit]
    exact (odd_sub_mod_iff _ _).trans (and_iff_right hodd)

/-- Three channels of one byte: of seven bytes the two whole units are paired up, the three of
eleven cannot be. Of five bytes in one channel of four, two words are left. -/
theorem downmix_halts_iff_narrow :
    (∃ samples, downmix ⟨3, 1⟩ [1, 2, 3, 4, 5, 6, 7] = .ok samples ∧ samples.length = 1) ∧
    downmix ⟨3, 1⟩ [1, 2, 3, 4, 5, 6, 7, 8, 9, 10, 11] = .error .lengthMismatch ∧
    (∃ samples, downmix ⟨1, 4⟩ [1, 0, 2, 0, 9] = .ok samples ∧ samples.length = 2) ∧
    downmix ⟨0, 2⟩ [1, 2] = .error .zeroDivisor := by
  obtain ⟨-, -, htwo, -, -⟩ := downmix_halts_iff ⟨3, 1⟩ [1, 2, 3, 4, 5, 6, 7]
  obtain ⟨-, hwhy, -, -, hodd⟩ := downmix_halts_iff ⟨3, 1⟩ [1, 2, 3, 4, 5, 6, 7, 8, 9, 10, 11]
  obtain ⟨-, -, hwide, -, -⟩ := downmix_halts_iff ⟨1, 4⟩ [1, 0, 2, 0, 9]
  obtain ⟨hnone, hzero, -, -, -⟩ := downmix_halts_iff ⟨0, 2⟩ [1, 2]
  obtain ⟨halt, hhalt⟩ := (hodd (by decide) (by decide)).mpr (by decide)
  obtain ⟨halt', hhalt'⟩ := hnone.mpr (Or.inl rfl)
  refine ⟨htwo (by decide), ?_, hwide (by decide), ?_⟩
  · rw [hhalt, hwhy halt hhalt]
    rfl
  · rw [hhalt', hzero halt' hhalt']
    rfl

end SampleFormat

end SpeechRelay.Audio
