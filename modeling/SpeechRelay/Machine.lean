/-!
# Limits of the machine

Counters are words of 64 bits, sums of samples are words of 32 bits, and no buffer may be larger
than half of the address space. A step that would leave these limits does not wrap: it halts, and
`Halt` says why. Every operation that can halt says so in its type.
-/

set_option autoImplicit false

namespace SpeechRelay

/-- Why a computation halts instead of giving an answer. -/
inductive Halt where
  /-- A result does not fit its word. -/
  | overflow
  /-- A buffer larger than the address space allows is asked for. -/
  | capacity
  /-- A division or a remainder by zero. -/
  | zeroDivisor
  /-- Bytes and samples of different lengths are to be matched one to one. -/
  | lengthMismatch
  /-- A clock with a period of zero is asked for. -/
  | zeroPeriod
  deriving DecidableEq

namespace Machine

/-- How many values a word of 64 bits has. -/
def wordSize : Nat := 0x10000000000000000

/-- The largest number of bytes that one buffer may hold. -/
def maxBytes : Nat := 0x7FFFFFFFFFFFFFFF

/-- The number itself, if a word of 64 bits holds it. -/
def word (n : Nat) : Except Halt Nat :=
  if n < wordSize then .ok n else .error .overflow

/-- The number itself, if a signed word of 32 bits holds it. -/
def signed32 (i : Int) : Except Halt Int :=
  if -0x80000000 ≤ i ∧ i < 0x80000000 then .ok i else .error .overflow

/-- Room for `count` elements of `width` bytes each. -/
def reserve (count width : Nat) : Except Halt Unit :=
  if count * width ≤ maxBytes then .ok () else .error .capacity

/-- A number is a word just if it is below the size of one. -/
theorem word_eq_ok {n m : Nat} : word n = .ok m ↔ n < wordSize ∧ m = n := by
  unfold word
  split
  · next h => simp [h, eq_comm]
  · next h => simp [h]

/-- A number below the size of a word is one. -/
theorem word_of_lt {n : Nat} (h : n < wordSize) : word n = .ok n := by
  simp [word, h]

/-- A number between the bounds of 32 bits with a sign is one. -/
theorem signed32_of_mem {i : Int} (hl : -0x80000000 ≤ i) (hu : i < 0x80000000) :
    signed32 i = .ok i := by
  unfold signed32
  rw [if_pos ⟨hl, hu⟩]

end Machine

end SpeechRelay
