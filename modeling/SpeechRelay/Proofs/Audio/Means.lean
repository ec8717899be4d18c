import Mathlib.Algebra.BigOperators.Group.Finset.Basic
import Mathlib.Algebra.Order.Field.Basic
import Mathlib.Algebra.Order.Field.Rat
import Mathlib.Data.Rat.Cast.Order
import Mathlib.Tactic.FieldSimp
import Mathlib.Tactic.Linarith
import Mathlib.Tactic.NormNum
import Mathlib.Tactic.Ring
import SpeechRelay.Proofs.Audio.Mixing

/-!
# Mono samples are means

What mixing down makes of one unit is the mean of the samples in it, as a rational number, rounded
to the nearest integer with halves away from zero (`Rounds`). The samples are taken from the bytes
by their places and read as little-endian words in two's complement (`Pcm.value`), so that the mean
of a unit is said without mixing anything (`SampleFormat.exactMean`).

The words that mixing works with are wide enough: no sum on the way, nor what the mean is rounded
by, leaves 32 bits, and the mean is a sample as it is (`Fits`). The theorem of this file is
`SampleFormat.downmix_exact`.
-/

set_option autoImplicit false

namespace SpeechRelay.Audio

/-! ## Rounding -/

/-- The integer is the one nearest to the rational number, of two the one away from zero. -/
structure Rounds (q : ℚ) (n : ℤ) : Prop where
  near : |q - n| ≤ 1 / 2
  away : |q - n| = 1 / 2 → |q| < |(n : ℚ)|

/-- Two integers that are both nearest are one apart, and one of them is not away from zero. -/
theorem Rounds.not_lt {q : ℚ} {m n : ℤ} (hm : Rounds q m) (hn : Rounds q n) : ¬ m < n := by
  intro hlt
  have hstep : (m : ℚ) + 1 ≤ n := by exact_mod_cast hlt
  have hlow := (abs_le.mp hm.near).2
  have hhigh := (abs_le.mp hn.near).1
  have hq : q = m + 1 / 2 := by linarith
  have hnext : (n : ℚ) = m + 1 := by linarith
  have hlower := hm.away (by rw [hq, abs_of_nonneg] <;> linarith)
  have hupper := hn.away (by rw [hq, hnext, abs_of_nonpos] <;> linarith)
  -- Below zero the upper one is too small, and from zero on the lower one is.
  rcases le_or_gt 0 m with hsign | hsign
  · have hzero : (0 : ℚ) ≤ m := by exact_mod_cast hsign
    rw [hq, abs_of_nonneg (by linarith), abs_of_nonneg hzero] at hlower
    linarith
  · have hzero : (m : ℚ) + 1 ≤ 0 := by exact_mod_cast hsign
    rw [hq, hnext, abs_of_nonpos (by linarith), abs_of_nonpos hzero] at hupper
    linarith

/-- There is no more than one such integer. -/
theorem Rounds.unique {q : ℚ} {m n : ℤ} (hm : Rounds q m) (hn : Rounds q n) : m = n :=
  le_antisymm (Int.not_lt.mp (hn.not_lt hm)) (Int.not_lt.mp (hm.not_lt hn))

/-- For a quotient of integers this is a matter of integers. -/
theorem rounds_div {sum n : ℤ} {count : ℕ} (hpos : 0 < count)
    (hnear : 2 * |sum - n * count| ≤ count)
    (haway : 2 * |sum - n * count| = count → |sum| < |n| * count) :
    Rounds (sum / count : ℚ) n := by
  have hcount : (0 : ℚ) < count := by exact_mod_cast hpos
  have hdistance : |(sum / count : ℚ) - n| = (|sum - n * count| : ℤ) / count := by
    have hsplit : (sum / count : ℚ) - n = ((sum - n * count : ℤ) : ℚ) / count := by
      push_cast
      field_simp
    rw [hsplit, abs_div, abs_of_pos hcount, Int.cast_abs]
  constructor
  · rw [hdistance, div_le_div_iff₀ hcount two_pos]
    have hcast : ((2 * |sum - n * count| : ℤ) : ℚ) ≤ count := by exact_mod_cast hnear
    push_cast at hcast ⊢
    linarith
  · intro htie
    rw [hdistance, div_eq_div_iff hcount.ne' two_ne_zero] at htie
    have hcast : ((2 * |sum - n * count| : ℤ) : ℚ) = ((count : ℤ) : ℚ) := by
      push_cast at htie ⊢
      linarith
    have hsize : ((|sum| : ℤ) : ℚ) < ((|n| * count : ℤ) : ℚ) :=
      Int.cast_lt.mpr (haway (Int.cast_injective hcast))
    rw [abs_div, abs_of_pos hcount, div_lt_iff₀ hcount]
    push_cast at hsize
    exact hsize

/-- Rounding goes the same way on both sides of zero. -/
theorem Rounds.neg {q : ℚ} {n : ℤ} (h : Rounds q n) : Rounds (-q) (-n) := by
  have hdistance : |-q - ((-n : ℤ) : ℚ)| = |q - n| := by
    rw [← abs_neg]
    congr 1
    push_cast
    ring
  constructor
  · rw [hdistance]
    exact h.near
  · intro htie
    rw [hdistance] at htie
    rw [Int.cast_neg, abs_neg, abs_neg]
    exact h.away htie

/-- Rounding is the same on both sides of zero. -/
theorem roundedQuotient_neg (sum count : ℤ) :
    roundedQuotient (-sum) count = -roundedQuotient sum count := by
  simp only [roundedQuotient, Int.neg_tmod, Int.natAbs_neg, Int.neg_tdiv, Int.sign_neg]
  split <;> ring

/-- The quotient of truncating division, corrected for its remainder, is rounded. -/
theorem rounds_of_nonneg {sum : ℤ} (hsum : 0 ≤ sum) {count : ℕ} (hpos : 0 < count) :
    Rounds (sum / count : ℚ) (roundedQuotient sum count) := by
  have hsplit : (count : ℤ) * sum.tdiv count + sum.tmod count = sum := Int.mul_tdiv_add_tmod _ _
  have hquot : 0 ≤ sum.tdiv count := Int.tdiv_nonneg hsum (Int.natCast_nonneg _)
  have hrem : 0 ≤ sum.tmod count := Int.tmod_nonneg _ hsum
  have hlt : sum.tmod count < count := Int.tmod_lt_of_pos _ (by omega)
  unfold roundedQuotient
  generalize sum.tdiv count = q at hsplit hquot
  generalize sum.tmod count = r at hsplit hrem hlt
  have hprod : (count : ℤ) * q = q * count := mul_comm _ _
  split
  · -- The remainder is not zero, so that neither is the sum.
    have hmore : 0 < sum := by
      have : 0 ≤ q * count := mul_nonneg hquot (Int.natCast_nonneg _)
      omega
    have hnext : (q + 1) * count = q * count + count := by ring
    rw [Int.sign_eq_one_of_pos hmore]
    apply rounds_div hpos
    · rw [hnext, abs_of_nonpos (by omega)]
      omega
    · intro _
      rw [abs_of_nonneg hsum, abs_of_nonneg (by omega), hnext]
      omega
  · have hleft : sum - q * count = r := by omega
    apply rounds_div hpos <;> rw [hleft, abs_of_nonneg hrem] <;> omega

/-- The rounded quotient is the nearest integer to the quotient, and the farther one from zero of
two. -/
theorem rounds_roundedQuotient (sum : ℤ) {count : ℕ} (hpos : 0 < count) :
    Rounds (sum / count : ℚ) (roundedQuotient sum count) := by
  rcases le_total 0 sum with h | h
  · exact rounds_of_nonneg h hpos
  · have hneg := (rounds_of_nonneg (Int.neg_nonneg_of_nonpos h) hpos).neg
    rwa [roundedQuotient_neg, neg_neg, Int.cast_neg, neg_div, neg_neg] at hneg

/-! ## Samples by their places -/

namespace Pcm

/-- The word with that low and that high byte, in two's complement. -/
def value (low high : UInt8) : ℤ :=
  low.toNat + 256 * high.toNat - if 128 ≤ high.toNat then 65536 else 0

/-- The number of a sample is made of its two bytes, the low one first. -/
theorem toNat_sample (low high : UInt8) :
    (sample low high).toUInt16.toNat = low.toNat + 256 * high.toNat := by
  have hlow : low.toNat < 256 := low.toNat_lt
  have hhigh : high.toNat < 256 := high.toNat_lt
  have hshift : (high.toUInt16 <<< 8).toNat = high.toNat <<< 8 := by
    simp [Nat.shiftLeft_eq]
    omega
  rw [sample, UInt16.toUInt16_toInt16, UInt16.toNat_or, hshift, Nat.or_comm, UInt8.toNat_toUInt16,
    ← Nat.shiftLeft_add_eq_or_of_lt (by omega), Nat.shiftLeft_eq]
  omega

/-- The value of a sample is that of its two bytes in two's complement. -/
theorem toInt_sample (low high : UInt8) : (sample low high).toInt = value low high := by
  have hlow : low.toNat < 256 := low.toNat_lt
  have hhigh : high.toNat < 256 := high.toNat_lt
  rw [value, ← Int16.toInt_toBitVec, BitVec.toInt_eq_toNat_cond, ← Int16.toBitVec_toUInt16,
    UInt16.toNat_toBitVec, toNat_sample]
  split <;> split <;> omega

/-- The sum of the samples that bytes hold, by the places of their bytes. -/
theorem sampleSum_decode : ∀ bytes : List UInt8,
    sampleSum (decode bytes) = ∑ j ∈ Finset.range (bytes.length / 2),
      value (bytes.getD (2 * j) 0) (bytes.getD (2 * j + 1) 0)
  | [] => rfl
  | [_] => by simp [sampleSum]
  | low :: high :: bytes => by
    have hcount : (low :: high :: bytes).length / 2 = bytes.length / 2 + 1 := by
      simp only [List.length_cons]
      omega
    rw [hcount, Finset.sum_range_succ', ← toInt_sample]
    have ih := sampleSum_decode bytes
    simp only [sampleSum, decode_cons_cons, List.map_cons, List.sum_cons] at ih ⊢
    rw [ih, add_comm]
    rfl

end Pcm

namespace SampleFormat

variable {f : SampleFormat}

/-- The mean of the samples in a unit, of the one at that place. -/
def exactMean (f : SampleFormat) (bytes : List UInt8) (i : ℕ) : ℚ :=
  ((∑ j ∈ Finset.range f.channels.toNat,
    Pcm.value (bytes.getD (i * f.unitBytes + 2 * j) 0)
      (bytes.getD (i * f.unitBytes + 2 * j + 1) 0) : ℤ) : ℚ) / f.channels.toNat

/-- The bytes of one unit. -/
def unitAt (f : SampleFormat) (bytes : List UInt8) (i : ℕ) : List UInt8 :=
  (bytes.drop (i * f.unitBytes)).take f.unitBytes

/-- A unit that the bytes hold has the length of a unit. -/
theorem length_unitAt {bytes : List UInt8} {i : ℕ} (h : (i + 1) * f.unitBytes ≤ bytes.length) :
    (f.unitAt bytes i).length = f.unitBytes := by
  rw [Nat.succ_mul] at h
  rw [unitAt, List.length_take, List.length_drop]
  omega

/-- A byte of a unit, found by its place among all bytes. -/
theorem getD_unitAt (bytes : List UInt8) (i : ℕ) {k : ℕ} (hk : k < f.unitBytes) :
    (f.unitAt bytes i).getD k 0 = bytes.getD (i * f.unitBytes + k) 0 := by
  simp only [unitAt, List.getD_eq_getElem?_getD, List.getElem?_take, if_pos hk, List.getElem?_drop]

/-- The mean is the sum of the samples of a unit over the number of channels. -/
theorem exactMean_eq (hf : f.IsPcm16) {bytes : List UInt8} {i : ℕ}
    (h : (i + 1) * f.unitBytes ≤ bytes.length) :
    f.exactMean bytes i = (sampleSum (Pcm.decode (f.unitAt bytes i)) : ℚ) / f.channels.toNat := by
  have hunit := hf.unitBytes_eq
  have hcount : f.unitBytes / 2 = f.channels.toNat := by omega
  rw [exactMean, Pcm.sampleSum_decode, length_unitAt h, hcount]
  congr 2
  apply Finset.sum_congr rfl
  intro j hj
  rw [Finset.mem_range] at hj
  rw [getD_unitAt bytes i (by omega), getD_unitAt bytes i (by omega), Nat.add_assoc]

end SampleFormat

/-! ## Words that are wide enough -/

/-- What a signed word of 32 bits holds. -/
def InWord (i : ℤ) : Prop := -2 ^ 31 ≤ i ∧ i < 2 ^ 31

/-- Nothing that mixing the samples of one unit forms leaves words of 32 bits, and the rounded mean
is left as it is when it becomes a sample. -/
structure Fits (samples : List Int16) : Prop where
  sums : ∀ k, InWord (sampleSum (samples.take k))
  doubled : InWord (2 * ((sampleSum samples).tmod samples.length).natAbs)
  adjusted : InWord ((sampleSum samples).tdiv samples.length + (sampleSum samples).sign)
  clamped : max (-32768) (min 32767 (roundedQuotient (sampleSum samples) samples.length)) =
    roundedQuotient (sampleSum samples) samples.length

/-- The rounded mean of samples lies between the smallest sample and the largest. -/
theorem roundedQuotient_mem {samples : List Int16} (hpos : 0 < samples.length) :
    -32768 ≤ roundedQuotient (sampleSum samples) samples.length ∧
      roundedQuotient (sampleSum samples) samples.length ≤ 32767 := by
  obtain ⟨hlow, hhigh⟩ := sampleSum_mem samples
  have hcount : (0 : ℚ) < samples.length := by exact_mod_cast hpos
  have hnear := abs_le.mp (rounds_roundedQuotient (sampleSum samples) hpos).near
  generalize roundedQuotient (sampleSum samples) samples.length = m at hnear
  have hfloor : (-32768 : ℚ) ≤ sampleSum samples / samples.length := by
    rw [le_div_iff₀ hcount]
    exact_mod_cast hlow
  have hceil : (sampleSum samples / samples.length : ℚ) ≤ 32767 := by
    rw [div_le_iff₀ hcount]
    exact_mod_cast hhigh
  have hleast : (-32769 : ℚ) < m := by linarith [hnear.2]
  have hmost : (m : ℚ) < 32768 := by linarith [hnear.1]
  have hleast' : (-32769 : ℤ) < m := by exact_mod_cast hleast
  have hmost' : m < (32768 : ℤ) := by exact_mod_cast hmost
  omega

/-- Up to 65535 samples, the sum fits into 32 bits, and so does every sum on the way. -/
theorem fits {samples : List Int16} (hpos : 0 < samples.length)
    (hcount : samples.length ≤ 65535) : Fits samples := by
  have hsum := natAbs_sampleSum_le samples
  obtain ⟨hrem, hquot, hsign⟩ := division_mem hpos hsum
  obtain ⟨hleast, hmost⟩ := roundedQuotient_mem hpos
  constructor
  case sums =>
    intro k
    have hpart := natAbs_sampleSum_le (samples.take k)
    have hlen := List.length_take_le' k samples
    unfold InWord
    omega
  case doubled =>
    unfold InWord
    omega
  case adjusted =>
    unfold InWord
    omega
  case clamped => omega

/-- So the mono sample is the rounded mean itself. -/
theorem toInt_monoSample {samples : List Int16} (hpos : 0 < samples.length) :
    (monoSample samples).toInt = roundedQuotient (sampleSum samples) samples.length := by
  obtain ⟨hleast, hmost⟩ := roundedQuotient_mem hpos
  rw [monoSample, saturate, min_eq_right hmost, max_eq_right hleast]
  exact Int16.toInt_ofInt_of_le hleast (by omega)

/-! ## Mixing down -/

namespace SampleFormat

variable {f : SampleFormat}

/-- Each mono sample is the mean of its unit, rounded. -/
theorem rounds_mono (hf : f.IsPcm16) (bytes : List UInt8) {i : ℕ}
    (h : i < (f.mono bytes).length) : Rounds (f.exactMean bytes i) (f.mono bytes)[i].toInt := by
  have hpos := hf.channels_pos
  have hle : (i + 1) * f.unitBytes ≤ bytes.length := by
    rw [length_mono] at h
    exact (Nat.mul_le_mul_right _ h).trans (Nat.div_mul_le_self _ _)
  have hsamples : (Pcm.decode (f.unitAt bytes i)).length = f.channels.toNat := by
    rw [Pcm.length_decode, length_unitAt hle, hf.unitBytes_eq]
    omega
  have hsample : (f.mono bytes)[i] = monoSample (Pcm.decode (f.unitAt bytes i)) :=
    getElem_mono f bytes h
  rw [hsample, toInt_monoSample (by omega), exactMean_eq hf hle, hsamples]
  exact rounds_roundedQuotient _ hpos

/-- Bytes behind the last whole unit are not mixed, whichever they are. -/
theorem mono_take_append (hf : f.IsPcm16) (bytes : List UInt8) {tail : List UInt8}
    (htail : tail.length < f.unitBytes) :
    f.mono (bytes.take ((f.mono bytes).length * f.unitBytes) ++ tail) = f.mono bytes := by
  have hwhole : bytes.length / f.unitBytes * f.unitBytes =
      bytes.length - bytes.length % f.unitBytes := by
    have := Nat.div_add_mod' bytes.length f.unitBytes
    omega
  have hdvd : f.unitBytes ∣ (bytes.take (bytes.length / f.unitBytes * f.unitBytes)).length := by
    rw [List.length_take, Nat.min_eq_left (Nat.div_mul_le_self _ _)]
    exact Nat.dvd_mul_left _ _
  rw [length_mono, mono, groups_append_of_lt hf.unitBytes_pos hdvd htail, hwhole,
    groups_take_whole hf.unitBytes_pos, mono]

/-- Mixing bytes down gives one sample for each whole unit, in order: the only integer that the mean
of the unit rounds to. Bytes behind the last whole unit are as good as any others, and no unit makes
mixing leave the words it works with. -/
theorem downmix_exact (hf : f.IsPcm16) (bytes : List UInt8) :
    ∃ samples, f.downmix bytes = .ok samples ∧
      samples.length = bytes.length / (2 * f.channels.toNat) ∧
      (∀ i (h : i < samples.length) n,
        Rounds (f.exactMean bytes i) n ↔ n = samples[i].toInt) ∧
      (∀ tail, tail.length < f.unitBytes →
        f.downmix (bytes.take (samples.length * f.unitBytes) ++ tail) = .ok samples) ∧
      ∀ unit : List Int16, unit.length = f.channels.toNat → Fits unit := by
  have hpos := hf.channels_pos
  have hmost := f.channels.toNat_lt
  refine ⟨f.mono bytes, downmix_eq_ok hf bytes, ?_, ?_, ?_, ?_⟩
  · rw [length_mono, hf.unitBytes_eq]
  · intro i h n
    constructor
    · intro hn
      exact hn.unique (rounds_mono hf bytes h)
    · rintro rfl
      exact rounds_mono hf bytes h
  · intro tail htail
    rw [downmix_eq_ok hf, mono_take_append hf bytes htail]
  · intro unit hunit
    exact fits (by omega) (by omega)

/-- Four channels with a mean of minus one and a half, and a byte behind them. -/
theorem downmix_exact_four :
    ∃ samples, downmix ⟨4, 2⟩ [255, 255, 254, 255, 255, 255, 254, 255, 7] = .ok samples ∧
      samples.length = 1 ∧ ∀ h : 0 < samples.length, samples[0].toInt = -2 := by
  obtain ⟨samples, hmixed, hlength, hmeans, -, -⟩ :=
    downmix_exact (f := ⟨4, 2⟩) ⟨rfl, by decide⟩ [255, 255, 254, 255, 255, 255, 254, 255, 7]
  refine ⟨samples, hmixed, hlength, ?_⟩
  intro h
  have hmean : exactMean ⟨4, 2⟩ [255, 255, 254, 255, 255, 255, 254, 255, 7] 0 = -3 / 2 := by
    simp [exactMean, Finset.sum_range_succ, Pcm.value, unitBytes]
    norm_num
  have hrounds : Rounds (-3 / 2) (-2) := by constructor <;> norm_num [abs_of_neg, abs_of_pos]
  exact ((hmeans 0 h (-2)).mp (hmean ▸ hrounds)).symm

end SampleFormat

end SpeechRelay.Audio
