import SpeechRelay.Audio.Pcm
import SpeechRelay.Journal

/-!
# The log of what the recognizer hears

Every frame fed to the recognizer may also be added to a log as headerless samples. The log lies on
a medium, whose two operations may fail. A failure is counted and never passed on; the first one of
an opened log is reported. A log that could not be opened stays closed, and adding to it does
nothing.
-/

set_option autoImplicit false

namespace SpeechRelay.Audio

/-- A place where logs can be kept, as its states change: opening for appending, and writing bytes
at the end. Both say whether they succeeded. -/
structure Medium (ω : Type) where
  openLog : ω → Bool × ω
  write : List UInt8 → ω → Bool × ω

/-- A log: whether it is open, and how many operations failed. -/
structure PcmLog where
  isOpen : Bool
  failures : Nat
  deriving DecidableEq

namespace PcmLog

/-- The log with one failure more. -/
def fail (log : PcmLog) : PcmLog × Journal :=
  ({ log with failures := log.failures + 1 },
    if log.failures = 0 then [.pcmLogUnavailable] else [])

/-- A log opened on the medium. -/
def start {ω : Type} (medium : Medium ω) (w : ω) : (PcmLog × Journal) × ω :=
  match medium.openLog w with
  | (true, w) => ((⟨true, 0⟩, []), w)
  | (false, w) => (fail ⟨false, 0⟩, w)

/-- The samples added at the end of the log. -/
def append {ω : Type} (medium : Medium ω) (log : PcmLog) (samples : List Int16) (w : ω) :
    (PcmLog × Journal) × ω :=
  if log.isOpen then
    match medium.write (Pcm.encode samples) w with
    | (true, w) => ((log, []), w)
    | (false, w) => (log.fail, w)
  else ((log, []), w)

end PcmLog

/-- A path of a file system: a file, a path that cannot be opened, or a device that is full. -/
inductive Disk where
  | file (contents : List UInt8)
  | unopenable
  | full
  deriving DecidableEq

namespace Disk

/-- Opening succeeds except on a path that cannot be opened. -/
def openLog : Disk → Bool × Disk
  | .unopenable => (false, .unopenable)
  | disk => (true, disk)

/-- Writing adds to a file and fails elsewhere; no bytes need no room. -/
def write (bytes : List UInt8) : Disk → Bool × Disk
  | .file contents => (true, .file (contents ++ bytes))
  | disk => (bytes.isEmpty, disk)

/-- The medium that a disk is. -/
def medium : Medium Disk := ⟨openLog, write⟩

/-- The bytes of the file. -/
def contents? : Disk → Option (List UInt8)
  | .file contents => some contents
  | _ => none

end Disk

end SpeechRelay.Audio
