import Mathlib.Data.List.Basic
import SpeechRelay.Audio.PcmLog

/-!
# Keeping a log

To keep a log of some frames takes one opening and, if that succeeds, one write for each frame. What
the medium answers does not matter for what comes next: a write that fails is not tried again, and
the next one is tried all the same (`Medium.keep`). A log that could not be opened is given up.

`PcmLog.Kept` says of a log that it has done just that, that its failures are the operations that
failed, and that it has reported its trouble once if there was any. It holds of a log that was just
opened (`PcmLog.kept_start`), and adding samples keeps it (`PcmLog.Kept.append`).

Of a medium whose contents can be read, `Medium.Holds` says what operations that succeed do to them.
If all of them succeed, then the bytes of the frames are behind what was there
(`Medium.contents_keep`).
-/

set_option autoImplicit false

namespace SpeechRelay

/-- An entry that says that the log of samples is in trouble. -/
def JournalEntry.isLogWarning : JournalEntry → Bool
  | .pcmLogUnavailable => true
  | _ => false

/-- How often the journal says so. -/
def logWarnings (journal : Journal) : Nat := journal.countP JournalEntry.isLogWarning

/-- An empty journal has no warnings. -/
@[simp] theorem logWarnings_nil : logWarnings [] = 0 := rfl

/-- The warnings of two journals add up. -/
@[simp] theorem logWarnings_append (journal entries : Journal) :
    logWarnings (journal ++ entries) = logWarnings journal + logWarnings entries := by
  simp [logWarnings]

namespace Audio

variable {ω : Type}

/-- Samples in a row are encoded one after the other. -/
@[simp] theorem Pcm.encode_append (samples more : List Int16) :
    Pcm.encode (samples ++ more) = Pcm.encode samples ++ Pcm.encode more :=
  List.flatMap_append

/-- Frames in a row are encoded one after the other. -/
@[simp] theorem Pcm.encode_flatten (frames : List (List Int16)) :
    Pcm.encode frames.flatten = (frames.map Pcm.encode).flatten := by
  induction frames with
  | nil => rfl
  | cons frame frames ih => simp [ih]

/-! ## Operations on a medium -/

namespace Medium

/-- The answers of the medium to writes, one behind the other, and the medium then. -/
def writeAll (m : Medium ω) : List (List UInt8) → ω → List Bool × ω
  | [], w => ([], w)
  | bytes :: writes, w =>
    match m.write bytes w with
    | (answer, w) =>
      match writeAll m writes w with
      | (answers, w) => (answer :: answers, w)

/-- The answers of the medium to all that keeping a log of frames takes, the answer to the opening
first, and the medium then. -/
def keep (m : Medium ω) (frames : List (List Int16)) (w : ω) : List Bool × ω :=
  match m.openLog w with
  | (true, w) =>
    match m.writeAll (frames.map Pcm.encode) w with
    | (answers, w) => (true :: answers, w)
  | (false, w) => ([false], w)

/-- What the medium holds stays when a log is opened, and gets bytes at its end when a write
succeeds. About operations that fail nothing is said. -/
structure Holds (m : Medium ω) (contents : ω → List UInt8) : Prop where
  openLog : ∀ w, (m.openLog w).1 = true → contents (m.openLog w).2 = contents w
  write : ∀ bytes w, (m.write bytes w).1 = true →
    contents (m.write bytes w).2 = contents w ++ bytes

variable (m : Medium ω)

/-- Writing two lists one after the other is writing them in one go. -/
theorem writeAll_append (writes more : List (List UInt8)) (w : ω) :
    m.writeAll (writes ++ more) w =
      ((m.writeAll writes w).1 ++ (m.writeAll more (m.writeAll writes w).2).1,
        (m.writeAll more (m.writeAll writes w).2).2) := by
  induction writes generalizing w with
  | nil => rfl
  | cons first writes ih =>
    simp only [List.cons_append, writeAll, ih]

/-- Every write is answered once. -/
theorem length_writeAll (writes : List (List UInt8)) (w : ω) :
    (m.writeAll writes w).1.length = writes.length := by
  induction writes generalizing w with
  | nil => rfl
  | cons bytes writes ih =>
    simp only [writeAll, List.length_cons, ih]

variable {m} {frames : List (List Int16)} {w : ω}

/-- If the log could be opened, every frame is written, whatever became of those before. -/
theorem keep_of_opened (h : (m.openLog w).1 = true) :
    m.keep frames w =
      (true :: (m.writeAll (frames.map Pcm.encode) (m.openLog w).2).1,
        (m.writeAll (frames.map Pcm.encode) (m.openLog w).2).2) := by
  unfold keep
  generalize m.openLog w = opened at h ⊢
  obtain ⟨answer, v⟩ := opened
  subst h
  rfl

/-- If the log could not be opened, nothing is written. -/
theorem keep_of_unopened (h : (m.openLog w).1 = false) :
    m.keep frames w = ([false], (m.openLog w).2) := by
  unfold keep
  generalize m.openLog w = opened at h ⊢
  obtain ⟨answer, v⟩ := opened
  subst h
  rfl

/-- More frames take more writes, whatever the answers were. -/
theorem keep_append (h : (m.openLog w).1 = true) (more : List (List Int16)) :
    m.keep (frames ++ more) w =
      ((m.keep frames w).1 ++ (m.writeAll (more.map Pcm.encode) (m.keep frames w).2).1,
        (m.writeAll (more.map Pcm.encode) (m.keep frames w).2).2) := by
  rw [keep_of_opened h, keep_of_opened h, List.map_append, writeAll_append]
  rfl

variable {contents : ω → List UInt8}

/-- If every write succeeds, the log holds what it held and then all that was written. -/
theorem contents_writeAll (hm : m.Holds contents) (writes : List (List UInt8)) (w : ω)
    (h : ∀ answer ∈ (m.writeAll writes w).1, answer = true) :
    contents (m.writeAll writes w).2 = contents w ++ writes.flatten := by
  induction writes generalizing w with
  | nil => simp [writeAll]
  | cons bytes writes ih =>
    simp only [writeAll, List.mem_cons, forall_eq_or_imp] at h ⊢
    rw [ih _ h.2, hm.write bytes w h.1, List.flatten_cons, List.append_assoc]

/-- If every operation succeeds, the bytes of the frames are added to what the medium holds. -/
theorem contents_keep (hm : m.Holds contents) (frames : List (List Int16)) (w : ω)
    (h : ∀ answer ∈ (m.keep frames w).1, answer = true) :
    contents (m.keep frames w).2 = contents w ++ Pcm.encode frames.flatten := by
  cases hopened : (m.openLog w).1 with
  | false =>
    rw [keep_of_unopened hopened] at h
    simp at h
  | true =>
    rw [keep_of_opened hopened] at h ⊢
    rw [contents_writeAll hm _ _ fun answer hmem => h answer (List.mem_cons_of_mem true hmem),
      hm.openLog w hopened, Pcm.encode_flatten]

end Medium

/-- On a disk, the contents are those of the file; a full device has none. -/
theorem Disk.holds_medium : Disk.medium.Holds fun disk => disk.contents?.getD [] := by
  constructor
  case openLog =>
    intro disk
    cases disk <;> simp [Disk.medium, Disk.openLog]
  case write =>
    intro bytes disk
    cases disk <;> simp [Disk.medium, Disk.write, Disk.contents?]

/-! ## A log -/

namespace PcmLog

/-- Opened on the medium `start`, the log has been given the frames. It counts the operations that
failed, and it has given its warning if there was one. -/
structure Kept (m : Medium ω) (start : ω) (frames : List (List Int16)) (log : PcmLog) (now : ω)
    (warnings : Nat) : Prop where
  isOpen : log.isOpen = (m.openLog start).1
  failures : log.failures = (m.keep frames start).1.count false
  medium : now = (m.keep frames start).2
  warnings : warnings = if log.failures = 0 then 0 else 1

variable {m : Medium ω}

/-- A log that has just been started has kept no frame yet, and its warnings are counted. -/
theorem kept_start (m : Medium ω) (w : ω) :
    Kept m w [] (PcmLog.start m w).1.1 (PcmLog.start m w).2
      (logWarnings (PcmLog.start m w).1.2) := by
  have hopened : ∀ answer v, m.openLog w = (answer, v) →
      m.keep [] w = ([answer], v) := by
    intro answer v h
    unfold Medium.keep
    cases answer <;> simp [h, Medium.writeAll]
  unfold PcmLog.start
  cases hopen : m.openLog w with
  | mk answer v =>
    have hkeep := hopened answer v hopen
    cases answer <;> constructor <;> simp [hopen, hkeep, fail, logWarnings,
      JournalEntry.isLogWarning]

/-- A log that could not be opened lets samples pass. -/
theorem Kept.append_of_closed {start now : ω} {frames : List (List Int16)} {log : PcmLog}
    {warnings : Nat} (h : Kept m start frames log now warnings)
    (hclosed : (m.openLog start).1 = false) (samples : List Int16) :
    log.append m samples now = ((log, []), now) ∧
      Kept m start (frames ++ [samples]) log now warnings := by
  have hlog : log.isOpen = false := h.isOpen.trans hclosed
  have hsame : m.keep (frames ++ [samples]) start = m.keep frames start := by
    rw [Medium.keep_of_unopened hclosed, Medium.keep_of_unopened hclosed]
  refine ⟨by simp [PcmLog.append, hlog], h.isOpen, ?_, ?_, h.warnings⟩
  · rw [hsame, h.failures]
  · rw [hsame, h.medium]

/-- Samples are written whatever has failed before, and a first failure is reported. -/
theorem Kept.append {start now : ω} {frames : List (List Int16)} {log : PcmLog} {warnings : Nat}
    (h : Kept m start frames log now warnings) (samples : List Int16) :
    Kept m start (frames ++ [samples]) (log.append m samples now).1.1 (log.append m samples now).2
      (warnings + logWarnings (log.append m samples now).1.2) := by
  cases hopened : (m.openLog start).1 with
  | false =>
    obtain ⟨hsame, hkept⟩ := h.append_of_closed hopened samples
    rw [hsame]
    exact hkept
  | true =>
    have hlog : log.isOpen = true := h.isOpen.trans hopened
    have hkeep : m.keep (frames ++ [samples]) start =
        ((m.keep frames start).1 ++ [(m.write (Pcm.encode samples) now).1],
          (m.write (Pcm.encode samples) now).2) := by
      rw [Medium.keep_append hopened, h.medium]
      rfl
    have hwarnings := h.warnings
    unfold PcmLog.append
    rw [if_pos hlog]
    cases hwrite : m.write (Pcm.encode samples) now with
    | mk answer v =>
      rw [hwrite] at hkeep
      cases answer with
      | true =>
        constructor
        case isOpen => exact h.isOpen
        case failures => simp [hkeep, h.failures]
        case medium => simp [hkeep]
        case warnings => simpa using hwarnings
      | false =>
        constructor
        case isOpen => exact h.isOpen
        case failures => simp [hkeep, h.failures, fail]
        case medium => simp [hkeep]
        case warnings =>
          rw [hwarnings]
          by_cases hzero : log.failures = 0 <;>
            simp [fail, hzero, logWarnings, JournalEntry.isLogWarning]

end PcmLog

end Audio

end SpeechRelay
