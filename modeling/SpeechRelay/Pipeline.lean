import SpeechRelay.Audio.Buffer
import SpeechRelay.Counters
import SpeechRelay.Journal

/-!
# What intake and feeder share

The intake fills the buffer and the feeder empties it; both count what they do and write it down.
`Pipeline` is all that they share.
-/

set_option autoImplicit false

namespace SpeechRelay

/-- The buffer, the counters and the journal. -/
structure Pipeline where
  buffer : Audio.Buffer
  counters : Counters
  journal : Journal

namespace Pipeline

/-- A pipeline in which nothing has happened yet. -/
def create (buffer : Audio.Buffer) : Pipeline := ⟨buffer, .zero, []⟩

/-- Writes down entries. -/
def note (p : Pipeline) (entries : Journal) : Pipeline :=
  { p with journal := p.journal ++ entries }

/-- Counts a happening. -/
def record (p : Pipeline) (h : Happening) : Except Halt Pipeline :=
  (p.counters.record h).map fun counters => { p with counters }

/-- Notes leave the buffer as it is. -/
@[simp] theorem buffer_note (p : Pipeline) (entries : Journal) :
    (p.note entries).buffer = p.buffer := rfl

/-- Notes leave the counters as they are. -/
@[simp] theorem counters_note (p : Pipeline) (entries : Journal) :
    (p.note entries).counters = p.counters := rfl

/-- The pipeline records what its counters record, and nothing else of it changes. -/
theorem record_eq_ok {p p' : Pipeline} {h : Happening} :
    p.record h = .ok p' ↔ ∃ c, p.counters.record h = .ok c ∧ p' = { p with counters := c } := by
  unfold record
  cases p.counters.record h <;> simp [Except.map, eq_comm]

end Pipeline

end SpeechRelay
