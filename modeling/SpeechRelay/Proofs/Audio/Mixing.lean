import Mathlib.Data.List.Infix
import Mathlib.Tactic.Linarith
import SpeechRelay.Audio.Downmix

/-!
# Mixing samples of 16 bits

With samples of 16 bits in at least one channel, mixing down never halts: the sum of one unit,
twice its remainder and its mean stay within signed words of 32 bits, whatever the samples are and
however many channels there are (`SampleFormat.downmix_eq_ok`). The result is the list of the mono
samples of the whole units, one after the other, so that mixing whole units and then other bytes is
mixing them together (`SampleFormat.mono_append`).

`SampleFormat.FedFrom` says of a stream of bytes that everything up to some unit of it has been
mixed and the rest has not.
-/

set_option autoImplicit false

namespace SpeechRelay.Audio

/-! ## Groups of equal length -/

/-- The whole groups of `n` elements that a list starts with. -/
def groups {α : Type} (n : Nat) (xs : List α) : List (List α) :=
  (List.range (xs.length / n)).map fun i => (xs.drop (i * n)).take n

section Groups

variable {α : Type} {n : Nat}

/-- There are as many groups as fit into the list. -/
@[simp] theorem length_groups (xs : List α) : (groups n xs).length = xs.length / n := by
  simp [groups]

/-- A group, by its place in the list. -/
theorem getElem_groups (xs : List α) {i : Nat} (h : i < (groups n xs).length) :
    (groups n xs)[i] = (xs.drop (i * n)).take n := by
  simp [groups]

/-- A list that is shorter than a group has none. -/
theorem groups_of_lt {xs : List α} (h : xs.length < n) : groups n xs = [] := by
  simp [groups, Nat.div_eq_of_lt h]

/-- The first group is the beginning of the list, and the others are the groups of the rest. -/
theorem groups_of_le (hn : 0 < n) {xs : List α} (h : n ≤ xs.length) :
    groups n xs = xs.take n :: groups n (xs.drop n) := by
  have hcount : xs.length / n = (xs.drop n).length / n + 1 := by
    rw [List.length_drop, ← Nat.add_div_right _ hn, Nat.sub_add_cancel h]
  unfold groups
  rw [hcount, List.range_succ_eq_map, List.map_cons, List.map_map]
  congr 1
  · simp
  · apply List.map_congr_left
    intro i _
    rw [Function.comp_apply, List.drop_drop, Nat.succ_mul, Nat.add_comm]

/-- A list of whole groups in front of another keeps its groups and those of the other. -/
theorem groups_append (hn : 0 < n) {xs : List α} (h : n ∣ xs.length) (ys : List α) :
    groups n (xs ++ ys) = groups n xs ++ groups n ys := by
  obtain ⟨k, hk⟩ := h
  -- On the number of groups in `xs`, the first of which is taken off.
  induction k generalizing xs with
  | zero =>
    have hnil : xs = [] := List.eq_nil_of_length_eq_zero (by simpa using hk)
    subst hnil
    have hempty : groups n ([] : List α) = [] := groups_of_lt hn
    rw [hempty, List.nil_append, List.nil_append]
  | succ k ih =>
    rw [Nat.mul_succ] at hk
    have hle : n ≤ xs.length := by omega
    have hdrop : (xs.drop n).length = n * k := by rw [List.length_drop]; omega
    rw [groups_of_le hn (by rw [List.length_append]; omega), groups_of_le hn hle,
      List.take_append_of_le_length hle, List.drop_append_of_le_length hle, ih hdrop,
      List.cons_append]

/-- What is too short to be a group behind whole groups adds none. -/
theorem groups_append_of_lt (hn : 0 < n) {xs ys : List α} (h : n ∣ xs.length)
    (hys : ys.length < n) : groups n (xs ++ ys) = groups n xs := by
  rw [groups_append hn h, groups_of_lt hys, List.append_nil]

/-- The elements behind the last whole group do not count. -/
theorem groups_take_whole (hn : 0 < n) (xs : List α) :
    groups n (xs.take (xs.length - xs.length % n)) = groups n xs := by
  have hwhole : xs.length - xs.length % n = n * (xs.length / n) := by
    have := Nat.div_add_mod xs.length n
    omega
  have hlen : (xs.take (xs.length - xs.length % n)).length = n * (xs.length / n) := by
    rw [List.length_take, Nat.min_eq_left (Nat.sub_le _ _), hwhole]
  have hrest : (xs.drop (xs.length - xs.length % n)).length < n := by
    have := Nat.mod_lt xs.length hn
    have := Nat.mod_le xs.length n
    rw [List.length_drop]
    omega
  have h := groups_append_of_lt hn ⟨_, hlen⟩ hrest
  rw [List.take_append_drop] at h
  exact h.symm

end Groups

/-! ## Samples of whole units -/

namespace Pcm

/-- Two bytes make a sample, and an odd byte at the end makes none. -/
theorem length_decode : ∀ bytes : List UInt8, (decode bytes).length = bytes.length / 2
  | [] => rfl
  | [_] => by simp
  | low :: high :: bytes => by
    rw [decode_cons_cons, List.length_cons, length_decode bytes]
    simp only [List.length_cons]
    omega

/-- Dropping two bytes for each sample drops the samples. -/
theorem decode_drop (k : Nat) (bytes : List UInt8) :
    decode (bytes.drop (2 * k)) = (decode bytes).drop k := by
  induction k generalizing bytes with
  | zero => rfl
  | succ k ih =>
    match bytes with
    | [] => simp
    | [b] => simp [Nat.mul_succ]
    | low :: high :: bytes => simpa [Nat.mul_succ] using ih bytes

/-- Taking two bytes for each sample takes the samples. -/
theorem decode_take (k : Nat) (bytes : List UInt8) :
    decode (bytes.take (2 * k)) = (decode bytes).take k := by
  induction k generalizing bytes with
  | zero => simp
  | succ k ih =>
    match bytes with
    | [] => simp
    | [b] => simp [Nat.mul_succ]
    | low :: high :: bytes => simpa [Nat.mul_succ] using ih bytes

/-- Samples may be grouped before or after they are read. -/
theorem groups_decode (n : Nat) (bytes : List UInt8) :
    groups n (decode bytes) = (groups (2 * n) bytes).map decode := by
  unfold groups
  rw [List.map_map, length_decode, Nat.div_div_eq_div_mul]
  apply List.map_congr_left
  intro i _
  rw [Function.comp_apply, ← decode_drop, ← decode_take, Nat.mul_left_comm]

end Pcm

/-! ## The arithmetic of one unit -/

/-- The quotient of a sum and a count, rounded to the nearest integer, halves away from zero, in
integers without bounds. -/
def roundedQuotient (sum count : Int) : Int :=
  if count ≤ 2 * ((sum.tmod count).natAbs : Int) then sum.tdiv count + sum.sign else sum.tdiv count

/-- The exact sum of samples. -/
def sampleSum (samples : List Int16) : Int := (samples.map Int16.toInt).sum

/-- The mono sample of one unit's samples. -/
def monoSample (samples : List Int16) : Int16 :=
  saturate (roundedQuotient (sampleSum samples) samples.length)

/-- A sum of samples is no further from zero than so many times the largest or the smallest one. -/
theorem sampleSum_mem (samples : List Int16) :
    -32768 * (samples.length : Int) ≤ sampleSum samples ∧
      sampleSum samples ≤ 32767 * (samples.length : Int) := by
  induction samples with
  | nil => simp [sampleSum]
  | cons s samples ih =>
    have hlow := s.le_toInt
    have hhigh := s.toInt_lt
    simp only [sampleSum, List.map_cons, List.sum_cons, List.length_cons] at ih ⊢
    omega

/-- The sum of samples is bounded by their number. -/
theorem natAbs_sampleSum_le (samples : List Int16) :
    (sampleSum samples).natAbs ≤ 32768 * samples.length := by
  have hmem := sampleSum_mem samples
  omega

/-- As long as the magnitudes leave room, the checked sum is the sum. -/
theorem checkedSum_eq_ok (samples : List Int16) (total : Int)
    (h : total.natAbs + 32768 * samples.length < 2 ^ 31) :
    checkedSum total samples = .ok (total + sampleSum samples) := by
  induction samples generalizing total with
  | nil => simp [checkedSum, sampleSum]
  | cons s samples ih =>
    have hlow := s.le_toInt
    have hhigh := s.toInt_lt
    rw [List.length_cons] at h
    have hstep : Machine.signed32 (total + s.toInt) = .ok (total + s.toInt) :=
      Machine.signed32_of_mem (by omega) (by omega)
    rw [checkedSum, hstep]
    show checkedSum (total + s.toInt) samples = _
    rw [ih _ (by omega)]
    simp only [sampleSum, List.map_cons, List.sum_cons, Int.add_assoc]

/-- What dividing a sum of samples by their number forms on the way. -/
theorem division_mem {sum : Int} {count : Nat} (hpos : 0 < count)
    (hsum : sum.natAbs ≤ 32768 * count) :
    (sum.tmod count).natAbs < count ∧ (sum.tdiv count).natAbs ≤ 32768 ∧ sum.sign.natAbs ≤ 1 := by
  refine ⟨?_, ?_, ?_⟩
  · rw [Int.natAbs_tmod, Int.natAbs_natCast]
    exact Nat.mod_lt _ hpos
  · rw [Int.natAbs_tdiv, Int.natAbs_natCast]
    exact Nat.div_le_of_le_mul (by rwa [Nat.mul_comm] at hsum)
  · rw [Int.natAbs_sign]
    split <;> omega

/-- The mean of at most 65535 samples is formed without leaving the words of 32 bits. -/
theorem roundedMean_eq_ok {sum : Int} {count : Nat} (hpos : 0 < count) (hcount : count ≤ 65535)
    (hsum : sum.natAbs ≤ 32768 * count) :
    roundedMean sum count = .ok (roundedQuotient sum count) := by
  -- All that is formed on the way is at most the magnitude of the sum, or twice the count.
  obtain ⟨hrem, hquot, hsign⟩ := division_mem hpos hsum
  have htwice : Machine.signed32 (2 * ((sum.tmod count).natAbs : Int)) =
      .ok (2 * ((sum.tmod count).natAbs : Int)) :=
    Machine.signed32_of_mem (by omega) (by omega)
  have hnext : Machine.signed32 (sum.tdiv count + sum.sign) = .ok (sum.tdiv count + sum.sign) :=
    Machine.signed32_of_mem (by omega) (by omega)
  unfold roundedMean roundedQuotient
  rw [if_neg (by omega)]
  simp only [htwice, hnext]
  split <;> rfl

/-- A unit of up to 65535 channels is mixed to its mean. -/
theorem mixUnit_eq_ok {samples : List Int16} (hpos : 0 < samples.length)
    (hcount : samples.length ≤ 65535) :
    mixUnit samples.length samples = .ok (monoSample samples) := by
  have hsum := natAbs_sampleSum_le samples
  unfold mixUnit monoSample
  rw [checkedSum_eq_ok samples 0 (by simp; omega), Int.zero_add]
  simp only [roundedMean_eq_ok hpos hcount hsum]

/-- Mixing goes through the units one after the other, and none of them halts it. -/
theorem mixOnto_eq_ok {channels : Nat} (hpos : 0 < channels) (hcount : channels ≤ 65535)
    (samples done : List Int16) :
    mixOnto channels done samples =
      .ok (done.reverse ++ (groups channels samples).map monoSample) := by
  -- On the number of samples: a step mixes the first group, and the others are left.
  induction hn : samples.length using Nat.strongRecOn generalizing samples done with
  | _ n ih =>
    rw [mixOnto]
    by_cases hle : channels ≤ samples.length
    · have htake : (samples.take channels).length = channels := by
        rw [List.length_take, Nat.min_eq_left hle]
      have hunit : mixUnit channels (samples.take channels) =
          .ok (monoSample (samples.take channels)) := by
        have h : mixUnit (samples.take channels).length (samples.take channels) = _ :=
          mixUnit_eq_ok (by omega) (by omega)
        rwa [htake] at h
      have hlt : (samples.drop channels).length < n := by rw [List.length_drop]; omega
      rw [dif_pos ⟨hpos, htake⟩, hunit]
      show mixOnto channels (monoSample (samples.take channels) :: done) (samples.drop channels) = _
      rw [ih _ hlt _ _ rfl, groups_of_le hpos hle]
      simp
    · have htake : ¬ (0 < channels ∧ (samples.take channels).length = channels) := by
        rw [List.length_take]
        omega
      rw [dif_neg htake, groups_of_lt (by omega)]
      simp

/-! ## Formats of 16 bits -/

namespace SampleFormat

/-- Samples of 16 bits in at least one channel. -/
structure IsPcm16 (f : SampleFormat) : Prop where
  bytesPerSample : f.bytesPerSample = 2
  channels : 1 ≤ f.channels

variable {f : SampleFormat}

/-- A format of 16 bits has a channel at least. -/
theorem IsPcm16.channels_pos (hf : f.IsPcm16) : 0 < f.channels.toNat :=
  UInt16.le_iff_toNat_le.mp hf.channels

/-- A unit of 16 bits has two bytes for each channel. -/
theorem IsPcm16.unitBytes_eq (hf : f.IsPcm16) : f.unitBytes = 2 * f.channels.toNat := by
  rw [unitBytes, hf.bytesPerSample, Nat.mul_comm]
  rfl

/-- A unit of 16 bits is not empty. -/
theorem IsPcm16.unitBytes_pos (hf : f.IsPcm16) : 0 < f.unitBytes := by
  have := hf.channels_pos
  rw [hf.unitBytes_eq]
  omega

/-- The mono samples of the whole units that bytes start with. -/
def mono (f : SampleFormat) (bytes : List UInt8) : List Int16 :=
  (groups f.unitBytes bytes).map fun u => monoSample (Pcm.decode u)

/-- Mixing down never halts, and gives the mono samples of the whole units. -/
theorem downmix_eq_ok (hf : f.IsPcm16) (bytes : List UInt8) :
    f.downmix bytes = .ok (f.mono bytes) := by
  have hpos := hf.unitBytes_pos
  have hunit := hf.unitBytes_eq
  have hcount := f.channels.toNat_lt
  have heven : (bytes.take (bytes.length - f.trailing bytes)).length % 2 = 0 := by
    have hdvd : f.unitBytes ∣ bytes.length - f.trailing bytes := Nat.dvd_sub_mod bytes.length
    have htwo : 2 ∣ bytes.length - f.trailing bytes := (Dvd.intro _ hunit.symm).trans hdvd
    rw [List.length_take, Nat.min_eq_left (Nat.sub_le _ _)]
    exact Nat.mod_eq_zero_of_dvd htwo
  unfold downmix
  rw [if_neg (by omega)]
  simp only [heven, if_true]
  rw [mix, mixOnto_eq_ok hf.channels_pos (by omega), Pcm.groups_decode, ← hunit, trailing,
    groups_take_whole hpos, List.map_map, List.reverse_nil, List.nil_append]
  rfl

/-- There is a mono sample for each whole unit. -/
theorem length_mono (f : SampleFormat) (bytes : List UInt8) :
    (f.mono bytes).length = bytes.length / f.unitBytes := by
  rw [mono, List.length_map, length_groups]

/-- A mono sample is mixed from the unit at its place. -/
theorem getElem_mono (f : SampleFormat) (bytes : List UInt8) {i : Nat}
    (h : i < (f.mono bytes).length) :
    (f.mono bytes)[i] =
      monoSample (Pcm.decode ((bytes.drop (i * f.unitBytes)).take f.unitBytes)) := by
  simp only [mono, List.getElem_map, getElem_groups]

/-- Whole units and other bytes behind them are mixed as they are together. -/
theorem mono_append (hf : f.IsPcm16) {units : List UInt8} (h : f.unitBytes ∣ units.length)
    (bytes : List UInt8) : f.mono (units ++ bytes) = f.mono units ++ f.mono bytes := by
  rw [mono, groups_append hf.unitBytes_pos h, List.map_append]
  rfl

/-- The mono samples of whole units are a beginning of those of any longer stream. -/
theorem isPrefix_mono (hf : f.IsPcm16) {units more : List UInt8} (hd : f.unitBytes ∣ units.length)
    (h : units <+: more) : f.mono units <+: f.mono more := by
  obtain ⟨rest, rfl⟩ := h
  rw [mono_append hf hd]
  exact List.prefix_append _ _

/-! ## Streams that are mixed bit by bit -/

/-- Of the bytes `audio`, those before `rest` are whole units, and their mono samples are `fed`. -/
def FedFrom (f : SampleFormat) (audio rest : List UInt8) (fed : List Int16) : Prop :=
  ∃ units, audio = units ++ rest ∧ f.unitBytes ∣ units.length ∧ fed = f.mono units

namespace FedFrom

variable {audio rest : List UInt8} {fed : List Int16}

/-- At first nothing is fed, and all audio is left. -/
theorem start (f : SampleFormat) (audio : List UInt8) : f.FedFrom audio audio [] :=
  ⟨[], rfl, Nat.dvd_zero _, by simp [mono, groups]⟩

/-- Audio that comes in is left to be fed. -/
theorem append (h : f.FedFrom audio rest fed) (bytes : List UInt8) :
    f.FedFrom (audio ++ bytes) (rest ++ bytes) fed := by
  obtain ⟨units, rfl, hd, hfed⟩ := h
  exact ⟨units, List.append_assoc _ _ _, hd, hfed⟩

/-- What was fed stays fed if the rest is dropped. -/
theorem clear (h : f.FedFrom audio rest fed) : ∃ fedBytes, fedBytes <+: audio ∧
    f.FedFrom fedBytes [] fed := by
  obtain ⟨units, rfl, hd, hfed⟩ := h
  exact ⟨units, List.prefix_append _ _, units, (List.append_nil _).symm, hd, hfed⟩

/-- Feeding whole units from the front of the rest adds their mono samples. -/
theorem feed (hf : f.IsPcm16) {more : List UInt8} (hd : f.unitBytes ∣ more.length)
    (h : f.FedFrom audio (more ++ rest) fed) : f.FedFrom audio rest (fed ++ f.mono more) := by
  obtain ⟨units, haudio, hunits, hfed⟩ := h
  refine ⟨units ++ more, ?_, ?_, ?_⟩
  · rw [haudio, List.append_assoc]
  · rw [List.length_append]
    exact Nat.dvd_add hunits hd
  · rw [mono_append hf hunits, hfed]

/-- Every byte of the audio is either fed, a unit for each sample, or left. -/
theorem length_eq (h : f.FedFrom audio rest fed) :
    audio.length = fed.length * f.unitBytes + rest.length := by
  obtain ⟨units, rfl, hd, rfl⟩ := h
  rw [List.length_append, length_mono, Nat.div_mul_cancel hd]

/-- What was fed is what mixing gives at once, and the rest is the rest. -/
theorem downmix_take (hf : f.IsPcm16) (h : f.FedFrom audio rest fed) :
    f.downmix (audio.take (fed.length * f.unitBytes)) = .ok fed ∧
      audio.drop (fed.length * f.unitBytes) = rest := by
  obtain ⟨units, rfl, hd, rfl⟩ := h
  rw [length_mono, Nat.div_mul_cancel hd, List.take_left', List.drop_left']
  · exact ⟨downmix_eq_ok hf units, rfl⟩
  all_goals rfl

/-- Each sample that was fed is mixed from one unit of the stream, the one at its place. -/
theorem mixUnit_unit (hf : f.IsPcm16) (h : f.FedFrom audio rest fed) {i : Nat}
    (hi : i < fed.length) :
    mixUnit f.channels.toNat
      (Pcm.decode ((audio.drop (i * f.unitBytes)).take f.unitBytes)) = .ok fed[i] := by
  obtain ⟨units, rfl, hd, rfl⟩ := h
  have hpos := hf.channels_pos
  have hcount := f.channels.toNat_lt
  have hle : (i + 1) * f.unitBytes ≤ units.length := by
    rw [length_mono] at hi
    exact (Nat.mul_le_mul_right _ hi).trans (Nat.div_mul_le_self _ _)
  rw [Nat.succ_mul] at hle
  have hunit : ((units ++ rest).drop (i * f.unitBytes)).take f.unitBytes =
      (units.drop (i * f.unitBytes)).take f.unitBytes := by
    rw [List.drop_append_of_le_length (by omega),
      List.take_append_of_le_length (by rw [List.length_drop]; omega)]
  have hsamples : (Pcm.decode ((units.drop (i * f.unitBytes)).take f.unitBytes)).length =
      f.channels.toNat := by
    rw [Pcm.length_decode, List.length_take, List.length_drop, Nat.min_eq_left (by omega),
      hf.unitBytes_eq, Nat.mul_div_cancel_left _ (by omega)]
  have hmix := @mixUnit_eq_ok (Pcm.decode ((units.drop (i * f.unitBytes)).take f.unitBytes))
    (by omega) (by omega)
  rw [hsamples] at hmix
  rw [hunit, hmix, getElem_mono]

/-- Whatever was fed of a stream in two ways, one is the beginning of the other. -/
theorem comparable (hf : f.IsPcm16) (h : f.FedFrom audio rest fed) {rest' : List UInt8}
    {fed' : List Int16} (h' : f.FedFrom audio rest' fed') : fed <+: fed' ∨ fed' <+: fed := by
  obtain ⟨units, haudio, hd, rfl⟩ := h
  obtain ⟨units', haudio', hd', rfl⟩ := h'
  have hprefix : units <+: audio := ⟨rest, haudio.symm⟩
  have hprefix' : units' <+: audio := ⟨rest', haudio'.symm⟩
  rcases List.prefix_or_prefix_of_prefix hprefix hprefix' with h | h
  · exact Or.inl (isPrefix_mono hf hd h)
  · exact Or.inr (isPrefix_mono hf hd' h)

end FedFrom

end SampleFormat

end SpeechRelay.Audio
