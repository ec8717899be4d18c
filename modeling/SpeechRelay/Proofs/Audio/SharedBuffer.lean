import Mathlib.Data.List.Basic
import Mathlib.Tactic.Common
import SpeechRelay.Audio.Buffer

/-!
# A buffer behind many handles

A buffer is used through handles. A copy of a handle is a handle on the same bytes, with a gate and
a unit of its own that it got from the original. Each call holds the buffer from its start to its
end, so calls through different handles come one after the other, in any order.

Whatever the order, what was appended is, byte for byte, what was taken or cleared away followed by
what is there now, and every take is the largest one possible (`bytes_conserved`).
-/

set_option autoImplicit false

namespace SpeechRelay.Audio

/-- A handle on a shared buffer, with a gate and a unit of its own. -/
structure Handle where
  gate : Nat
  unit : Nat
  unit_pos : 0 < unit
  deriving DecidableEq

/-- A buffer in common, and the handles through which it is reached. -/
structure SharedBuffer where
  bytes : List UInt8
  handles : List Handle
  deriving DecidableEq

namespace SharedBuffer

/-- What a holder can ask of the buffer. -/
inductive Call where
  | append (bytes : List UInt8)
  | take
  | clear
  /-- Copies the handle. The copy is the last one. -/
  | copy
  deriving DecidableEq

/-- A call with what it found in the buffer, what it answered and what it left. -/
structure Entry where
  call : Call
  found : List UInt8
  chunk : Option Chunk
  left : List UInt8
  deriving DecidableEq

/-- A buffer of one owner, behind one handle. -/
def share (b : Buffer) : SharedBuffer := ⟨b.bytes, [⟨b.gate, b.unit, b.unit_pos⟩]⟩

/-- The buffer as one handle shows it. -/
def view (s : SharedBuffer) (h : Handle) : Buffer := ⟨h.gate, h.unit, s.bytes, h.unit_pos⟩

/-- What a call through a handle answers, and the buffer after it. -/
def answer (s : SharedBuffer) (h : Handle) : Call → Option Chunk × SharedBuffer
  | .append bytes => (none, { s with bytes := ((s.view h).append bytes).bytes })
  | .take =>
    match (s.view h).take with
    | (chunk, b) => (chunk, { s with bytes := b.bytes })
  | .clear => (none, { s with bytes := (s.view h).clear.bytes })
  | .copy => (none, { s with handles := s.handles ++ [h] })

/-- The buffer after calls, each through the handle of that number, and what they did. A call
through a handle that does not exist is left out. -/
def run (s : SharedBuffer) : List (Nat × Call) → List Entry × SharedBuffer
  | [] => ([], s)
  | (index, call) :: calls =>
    match s.handles[index]? with
    | none => run s calls
    | some h =>
      match s.answer h call with
      | (chunk, next) =>
        match run next calls with
        | (entries, final) => (⟨call, s.bytes, chunk, next.bytes⟩ :: entries, final)

/-- The bytes that a call added. -/
def Entry.appended (entry : Entry) : List UInt8 :=
  match entry.call with
  | .append bytes => bytes
  | _ => []

/-- The bytes that a call took out: the chunk of a take, and all that a clearing found. -/
def Entry.removed (entry : Entry) : List UInt8 :=
  match entry.call with
  | .take => entry.chunk.elim [] Chunk.bytes
  | .clear => entry.found
  | _ => []

/-- All bytes that calls added, in their order. -/
def appended (entries : List Entry) : List UInt8 := entries.flatMap Entry.appended

/-- All bytes that calls took or cleared, in their order. -/
def removed (entries : List Entry) : List UInt8 := entries.flatMap Entry.removed

end SharedBuffer

/-! ## A single take -/

/-- The chunk has as many units from the front of the bytes as there are, and leaves the rest. -/
structure Chunk.IsLargest (chunk : Chunk) (unit : Nat) (found left : List UInt8) : Prop where
  parts : chunk.bytes ++ left = found
  whole : unit ∣ chunk.bytes.length
  largest : ∀ first, first <+: found → unit ∣ first.length → first <+: chunk.bytes
  remainder : chunk.remainder = left.length
  short : chunk.remainder < unit

namespace Buffer

/-- Something is taken just if the buffer has come up to its gate. -/
theorem isSome_take (b : Buffer) : b.take.1.isSome ↔ b.gate ≤ b.size := by
  constructor
  · intro hsome
    by_contra hgate
    rw [take_of_lt (Nat.not_le.mp hgate)] at hsome
    cases hsome
  · intro hgate
    rw [take_of_le hgate]
    rfl

/-- What is left behind the whole units is the remainder by the unit. -/
theorem size_sub_wholeBytes (b : Buffer) : b.size - b.wholeBytes = b.size % b.unit := by
  have hle := Nat.mod_le b.size b.unit
  unfold wholeBytes
  omega

/-- No more units than the whole ones fit into the bytes. -/
theorem le_wholeBytes {b : Buffer} {n : Nat} (hn : n ≤ b.size) (hunit : b.unit ∣ n) :
    n ≤ b.wholeBytes := by
  obtain ⟨k, rfl⟩ := hunit
  have hk : k ≤ b.size / b.unit := by
    rw [Nat.le_div_iff_mul_le b.unit_pos, Nat.mul_comm]
    exact hn
  have hwhole : b.wholeBytes = b.unit * (b.size / b.unit) := by
    have hsplit := Nat.div_add_mod b.size b.unit
    unfold wholeBytes
    omega
  rw [hwhole]
  exact Nat.mul_le_mul_left b.unit hk

/-- What is taken is the largest number of whole units, and the rest is left. -/
theorem isLargest_of_take {b : Buffer} {chunk : Chunk} (h : b.take.1 = some chunk) :
    chunk.IsLargest b.unit b.bytes b.take.2.bytes := by
  have hgate : b.gate ≤ b.size := b.isSome_take.mp (by rw [h]; rfl)
  rw [take_of_le hgate] at h ⊢
  cases h
  have hleft : (b.bytes.drop b.wholeBytes).length = b.size % b.unit := by
    rw [List.length_drop]
    exact b.size_sub_wholeBytes
  refine ⟨List.take_append_drop _ _, ?_, ?_, rfl, ?_⟩
  · rw [length_take_wholeBytes]
    exact b.unit_dvd_wholeBytes
  · intro first hfirst hunit
    have hlength : first.length ≤ b.wholeBytes := le_wholeBytes hfirst.length_le hunit
    rw [List.prefix_take_iff]
    exact ⟨hfirst, hlength⟩
  · show (b.bytes.drop b.wholeBytes).length < b.unit
    rw [hleft]
    exact Nat.mod_lt _ b.unit_pos

/-- Where nothing is taken, the buffer stays as it is. -/
theorem take_eq_of_none {b : Buffer} (h : b.take.1 = none) : b.take.2 = b := by
  have hgate : ¬ b.gate ≤ b.size := by
    rw [← isSome_take, h]
    exact Bool.false_ne_true
  rw [take_of_lt (Nat.not_le.mp hgate)]

end Buffer

/-! ## Calls in any order -/

namespace SharedBuffer

/-- All handles have this gate and this unit. -/
def Uniform (gate unit : Nat) (s : SharedBuffer) : Prop :=
  ∀ h ∈ s.handles, h.gate = gate ∧ h.unit = unit

/-- A take gives a chunk if and only if the gate is open, and then the largest one; else it changes
nothing. -/
structure Entry.TakesRight (gate unit : Nat) (entry : Entry) : Prop where
  isSome : entry.chunk.isSome ↔ gate ≤ entry.found.length
  largest : ∀ chunk, entry.chunk = some chunk → chunk.IsLargest unit entry.found entry.left
  unchanged : entry.chunk = none → entry.left = entry.found

section Calls

variable {gate unit : Nat} {s : SharedBuffer} {h : Handle}

/-- No call changes the gate or the unit behind any handle. -/
theorem uniform_answer (hs : s.Uniform gate unit) (hh : h ∈ s.handles) (call : Call) :
    (s.answer h call).2.Uniform gate unit := by
  cases call with
  | append bytes => exact hs
  | take => exact hs
  | clear => exact hs
  | copy =>
    intro h' hmem
    rcases List.mem_append.mp hmem with hmem | hmem
    · exact hs h' hmem
    · rw [List.mem_singleton.mp hmem]
      exact hs h hh

/-- A call moves bytes only at the ends: what was there and comes in is what goes out and stays. -/
theorem conserved_answer (s : SharedBuffer) (h : Handle) (call : Call) :
    let entry : Entry := ⟨call, s.bytes, (s.answer h call).1, (s.answer h call).2.bytes⟩
    s.bytes ++ entry.appended = entry.removed ++ (s.answer h call).2.bytes := by
  intro entry
  cases call with
  | append bytes => rfl
  | take =>
    have htake := (s.view h).bytes_take
    show s.bytes ++ [] = (s.view h).take.1.elim [] Chunk.bytes ++ (s.view h).take.2.bytes
    rw [htake, List.append_nil]
    rfl
  | clear => rfl
  | copy => exact List.append_nil _

/-- Taking answers by the gate and the unit, through whichever handle it is asked. -/
theorem takesRight_answer (hs : s.Uniform gate unit) (hh : h ∈ s.handles) :
    Entry.TakesRight gate unit
      ⟨.take, s.bytes, (s.answer h .take).1, (s.answer h .take).2.bytes⟩ := by
  obtain ⟨rfl, rfl⟩ := hs h hh
  refine ⟨(s.view h).isSome_take, ?_, ?_⟩
  · intro chunk hchunk
    exact Buffer.isLargest_of_take hchunk
  · intro hnone
    exact congrArg Buffer.bytes (Buffer.take_eq_of_none (b := s.view h) hnone)

end Calls

/-- The induction over a run: every call conserves the bytes, and every take is right. -/
theorem conserved_run {gate unit : Nat} (calls : List (Nat × Call)) {s : SharedBuffer}
    (hs : s.Uniform gate unit) :
    s.bytes ++ appended (s.run calls).1 = removed (s.run calls).1 ++ (s.run calls).2.bytes ∧
      ∀ entry ∈ (s.run calls).1, entry.call = .take → entry.TakesRight gate unit := by
  induction calls generalizing s with
  | nil => exact ⟨List.append_nil _, fun _ hmem => by cases hmem⟩
  | cons first calls ih =>
    obtain ⟨index, call⟩ := first
    rw [run]
    cases hindex : s.handles[index]? with
    | none => exact ih hs
    | some h =>
      have hh : h ∈ s.handles := List.mem_of_getElem? hindex
      obtain ⟨hrest, htakes⟩ := ih (uniform_answer hs hh call)
      have hfirst := conserved_answer s h call
      refine ⟨?_, ?_⟩
      · simp only [appended, removed, List.flatMap_cons] at hrest ⊢
        rw [← List.append_assoc, hfirst, List.append_assoc, hrest, List.append_assoc]
      · intro entry hmem htake
        rcases List.mem_cons.mp hmem with rfl | hmem
        · cases htake
          exact takesRight_answer hs hh
        · exact htakes entry hmem htake

/-- Through however many handles and in whatever order the calls are made: the bytes that were
appended are the bytes of the chunks and of what was cleared, in the order of the calls, and then
those that are in the buffer; and every take is right. -/
theorem bytes_conserved {format : SampleFormat} {gate : Nat} {b : Buffer}
    (hcreate : Buffer.create format gate = .ok b) (calls : List (Nat × Call)) :
    let entries := ((share b).run calls).1
    appended entries = removed entries ++ ((share b).run calls).2.bytes ∧
    ∀ entry ∈ entries, entry.call = .take → entry.TakesRight gate (max format.unitBytes 1) := by
  intro entries
  obtain ⟨hgate, hunit, hbytes⟩ := Buffer.create_eq_ok hcreate
  have huniform : (share b).Uniform gate (max format.unitBytes 1) := by
    intro h hmem
    rw [List.mem_singleton.mp hmem]
    exact ⟨hgate, hunit⟩
  obtain ⟨hconserved, htakes⟩ := conserved_run calls huniform
  have hempty : (share b).bytes = [] := hbytes
  rw [hempty, List.nil_append] at hconserved
  exact ⟨hconserved, htakes⟩

/-- Three handles on a buffer with a gate below its unit: a take of no units, a take that leaves a
byte behind, a clearing of part of a unit, and a take below the gate. -/
theorem bytes_conserved_three :
    let b : Buffer := ⟨3, 4, [], by decide⟩
    let calls : List (Nat × Call) :=
      [(0, .append [1, 2, 3]), (0, .copy), (1, .take), (1, .append [4, 5]), (1, .copy), (2, .take),
        (0, .append [6]), (2, .clear), (1, .append [7]), (0, .take)]
    let entries := ((share b).run calls).1
    Buffer.create .stereo 3 = .ok b ∧
    entries.filterMap Entry.chunk = [⟨[], 3⟩, ⟨[1, 2, 3, 4], 1⟩] ∧
    removed entries = [1, 2, 3, 4, 5, 6] ∧
    appended entries = removed entries ++ [7] := by
  intro b calls entries
  have hcreate : Buffer.create .stereo 3 = .ok b := rfl
  exact ⟨hcreate, by decide, by decide, (bytes_conserved hcreate calls).1⟩

end SharedBuffer

end SpeechRelay.Audio
