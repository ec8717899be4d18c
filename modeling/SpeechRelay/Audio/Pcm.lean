/-!
# Samples as bytes

A sample of 16 bits is written as two bytes, the low one first. Reading pairs the bytes up again;
a byte left over at the end is no sample.
-/

set_option autoImplicit false

namespace SpeechRelay.Audio.Pcm

/-- The low and the high byte of a sample. -/
def sampleBytes (s : Int16) : List UInt8 :=
  [s.toUInt16.toUInt8, (s.toUInt16 >>> 8).toUInt8]

/-- The sample with that low and that high byte. -/
def sample (low high : UInt8) : Int16 :=
  (low.toUInt16 ||| (high.toUInt16 <<< 8)).toInt16

/-- The bytes of the samples, in order. -/
def encode (samples : List Int16) : List UInt8 := samples.flatMap sampleBytes

/-- The samples behind those in `done`, which holds the last one first. -/
def decodeOnto (done : List Int16) : List UInt8 → List Int16
  | low :: high :: bytes => decodeOnto (sample low high :: done) bytes
  | _ => done.reverse

/-- The samples that the bytes hold, in order. -/
def decode (bytes : List UInt8) : List Int16 := decodeOnto [] bytes

/-- The samples done so far come first, in the order in which they were decoded. -/
theorem decodeOnto_eq : ∀ (bytes : List UInt8) (done : List Int16),
    decodeOnto done bytes = done.reverse ++ decode bytes
  | [], done => by simp [decode, decodeOnto]
  | [_], done => by simp [decode, decodeOnto]
  | low :: high :: bytes, done => by
    have h : decode (low :: high :: bytes) = decodeOnto [sample low high] bytes := rfl
    rw [decodeOnto, h, decodeOnto_eq bytes, decodeOnto_eq bytes]
    simp

/-- No bytes hold no sample. -/
@[simp] theorem decode_nil : decode [] = [] := rfl

/-- Half a sample is not decoded. -/
@[simp] theorem decode_singleton (b : UInt8) : decode [b] = [] := rfl

/-- Each pair of bytes is one sample. -/
@[simp] theorem decode_cons_cons (low high : UInt8) (bytes : List UInt8) :
    decode (low :: high :: bytes) = sample low high :: decode bytes := by
  rw [decode, decodeOnto, decodeOnto_eq]
  rfl

/-- Each sample takes two bytes. -/
@[simp] theorem length_encode (samples : List Int16) :
    (encode samples).length = 2 * samples.length := by
  induction samples with
  | nil => rfl
  | cons s samples ih =>
    simp only [encode, List.flatMap_cons, List.length_append, List.length_cons] at ih ⊢
    rw [ih]
    simp [sampleBytes]
    omega

end SpeechRelay.Audio.Pcm
