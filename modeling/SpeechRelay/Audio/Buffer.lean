import SpeechRelay.Audio.Format
import SpeechRelay.Journal

/-!
# The buffer between gateway and recognizer

The gateway sends bytes split anywhere; the recognizer is fed whole units. The buffer keeps the
bytes in order. Nothing is taken before `gate` bytes are there, and then everything up to the last
whole unit is taken, so that the rest waits for the bytes that complete it.
-/

set_option autoImplicit false

namespace SpeechRelay.Audio

/-- Buffered bytes, with the number of them that opens the gate and the bytes of one unit. -/
structure Buffer where
  gate : Nat
  unit : Nat
  bytes : List UInt8
  unit_pos : 0 < unit

/-- Whole units taken from the buffer, and how many bytes were left behind. -/
structure Chunk where
  bytes : List UInt8
  remainder : Nat
  deriving DecidableEq

/-- What is noted about taking a chunk. -/
def Chunk.notes (c : Chunk) : Journal :=
  if c.remainder = 0 then [] else [.partialUnit c.remainder]

namespace Buffer

/-- An empty buffer. Room for four times the gate is set aside at once. -/
def create (format : SampleFormat) (gate : Nat) : Except Halt Buffer :=
  match Machine.word (gate * 4) with
  | .error h => .error h
  | .ok room =>
    match Machine.reserve room 1 with
    | .error h => .error h
    | .ok () =>
      .ok { gate, unit := max format.unitBytes 1, bytes := [], unit_pos := by omega }

/-- How many bytes are buffered. -/
def size (b : Buffer) : Nat := b.bytes.length

/-- The buffer with bytes added at its end. -/
def append (b : Buffer) (bytes : List UInt8) : Buffer := { b with bytes := b.bytes ++ bytes }

/-- The buffer without its bytes. -/
def clear (b : Buffer) : Buffer := { b with bytes := [] }

/-- How many bytes the whole units at the front have. -/
def wholeBytes (b : Buffer) : Nat := b.size - b.size % b.unit

/-- The whole units at the front, if the gate is open, and the buffer without them. -/
def take (b : Buffer) : Option Chunk × Buffer :=
  if b.size < b.gate then (none, b)
  else
    let left := b.bytes.drop b.wholeBytes
    (some ⟨b.bytes.take b.wholeBytes, left.length⟩, { b with bytes := left })

/-- Adding bytes does not move the gate. -/
@[simp] theorem gate_append (b : Buffer) (bytes : List UInt8) : (b.append bytes).gate = b.gate :=
  rfl

/-- Adding bytes does not change the unit. -/
@[simp] theorem unit_append (b : Buffer) (bytes : List UInt8) : (b.append bytes).unit = b.unit :=
  rfl

/-- New bytes stand behind the ones that are already there. -/
@[simp] theorem bytes_append (b : Buffer) (bytes : List UInt8) :
    (b.append bytes).bytes = b.bytes ++ bytes := rfl

/-- A cleared buffer is empty. -/
@[simp] theorem bytes_clear (b : Buffer) : b.clear.bytes = [] := rfl

/-- Clearing does not change the unit. -/
@[simp] theorem unit_clear (b : Buffer) : b.clear.unit = b.unit := rfl

/-- The whole units are no more than all that is buffered. -/
theorem wholeBytes_le (b : Buffer) : b.wholeBytes ≤ b.size := Nat.sub_le _ _

/-- So many bytes can be taken from the front of the buffer. -/
theorem length_take_wholeBytes (b : Buffer) :
    (b.bytes.take b.wholeBytes).length = b.wholeBytes := by
  rw [List.length_take]
  exact Nat.min_eq_left b.wholeBytes_le

/-- What is taken is made of whole units. -/
theorem unit_dvd_wholeBytes (b : Buffer) : b.unit ∣ b.wholeBytes := Nat.dvd_sub_mod b.size

/-- A new buffer is empty, and has the unit of its format. -/
theorem create_eq_ok {format : SampleFormat} {gate : Nat} {b : Buffer}
    (h : create format gate = .ok b) :
    b.gate = gate ∧ b.unit = max format.unitBytes 1 ∧ b.bytes = [] := by
  unfold create at h
  split at h
  · cases h
  · split at h <;> cases h
    exact ⟨rfl, rfl, rfl⟩

/-- Below the gate, taking changes nothing. -/
theorem take_of_lt {b : Buffer} (h : b.size < b.gate) : b.take = (none, b) := by
  simp [take, h]

/-- At the gate, everything up to the last whole unit is taken. -/
theorem take_of_le {b : Buffer} (h : b.gate ≤ b.size) :
    b.take = (some ⟨b.bytes.take b.wholeBytes, (b.bytes.drop b.wholeBytes).length⟩,
      { b with bytes := b.bytes.drop b.wholeBytes }) := by
  unfold take
  rw [if_neg (Nat.not_lt.mpr h)]

/-- Taking does not change the unit. -/
@[simp] theorem unit_take (b : Buffer) : b.take.2.unit = b.unit := by
  by_cases h : b.size < b.gate <;> simp [take, h]

/-- What is taken and what stays are, in this order, what was there. -/
theorem bytes_take (b : Buffer) : (b.take.1.elim [] Chunk.bytes) ++ b.take.2.bytes = b.bytes := by
  by_cases h : b.size < b.gate <;> simp [take, h]

end Buffer

end SpeechRelay.Audio
