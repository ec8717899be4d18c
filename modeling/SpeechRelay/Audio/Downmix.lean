import SpeechRelay.Audio.Format
import SpeechRelay.Audio.Pcm
import SpeechRelay.Journal

/-!
# Mixing channels down

Every unit of interleaved audio gives one mono sample: the mean of its channels, rounded to the
nearest integer with halves away from zero. The arithmetic is that of signed words of 32 bits, and
a step that leaves them halts. Mixing also halts for a unit of no bytes, and for whole units that
together have an odd number of bytes, which cannot be paired up into samples.
-/

set_option autoImplicit false

namespace SpeechRelay.Audio

/-- The sum of samples, kept in a signed word at every step. -/
def checkedSum (total : Int) : List Int16 → Except Halt Int
  | [] => .ok total
  | s :: samples =>
    match Machine.signed32 (total + s.toInt) with
    | .error h => .error h
    | .ok total => checkedSum total samples

/-- The quotient of a sum and a count, rounded to the nearest integer, halves away from zero. -/
def roundedMean (sum count : Int) : Except Halt Int :=
  if count = 0 then .error .zeroDivisor
  else
    let quotient := sum.tdiv count
    let remainder := sum.tmod count
    match Machine.signed32 (2 * remainder.natAbs) with
    | .error h => .error h
    | .ok twice => if count ≤ twice then Machine.signed32 (quotient + sum.sign) else .ok quotient

/-- The sample nearest to an integer. -/
def saturate (i : Int) : Int16 := Int16.ofInt (max (-32768) (min 32767 i))

/-- The mono sample of one unit's samples. -/
def mixUnit (channels : Nat) (samples : List Int16) : Except Halt Int16 :=
  match checkedSum 0 samples with
  | .error h => .error h
  | .ok sum =>
    match roundedMean sum channels with
    | .error h => .error h
    | .ok mean => .ok (saturate mean)

/-- The mono samples of interleaved ones, behind those in `done`, which holds the last one first. A
group of fewer samples than channels at the end is left out. -/
def mixOnto (channels : Nat) (done : List Int16) (samples : List Int16) :
    Except Halt (List Int16) :=
  if _h : 0 < channels ∧ (samples.take channels).length = channels then
    match mixUnit channels (samples.take channels) with
    | .error halt => .error halt
    | .ok s => mixOnto channels (s :: done) (samples.drop channels)
  else .ok done.reverse
termination_by samples.length
decreasing_by simp only [List.length_take] at _h; simp only [List.length_drop]; omega

/-- The mono samples of interleaved ones. -/
def mix (channels : Nat) (samples : List Int16) : Except Halt (List Int16) :=
  mixOnto channels [] samples

/-- Bytes behind the last whole unit. -/
def SampleFormat.trailing (f : SampleFormat) (bytes : List UInt8) : Nat :=
  bytes.length % f.unitBytes

/-- What is noted about mixing bytes down. -/
def SampleFormat.notes (f : SampleFormat) (bytes : List UInt8) : Journal :=
  if f.unitBytes = 0 ∨ f.trailing bytes = 0 then [] else [.trailingBytes (f.trailing bytes)]

/-- The mono samples of interleaved bytes; bytes behind the last whole unit are left out. -/
def SampleFormat.downmix (f : SampleFormat) (bytes : List UInt8) : Except Halt (List Int16) :=
  if f.unitBytes = 0 then .error .zeroDivisor
  else
    let whole := bytes.take (bytes.length - f.trailing bytes)
    if whole.length % 2 = 0 then mix f.channels.toNat (Pcm.decode whole)
    else .error .lengthMismatch

end SpeechRelay.Audio
