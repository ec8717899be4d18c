import SpeechRelay.Decimal.Layout
import SpeechRelay.Settings.Basic
import SpeechRelay.Settings.Value
import SpeechRelay.Text.LowerCase
import SpeechRelay.Text.Quoted

/-!
# From values to settings

A value of a layer becomes a setting of the type that is wanted there. A truth value or a number may
also be given as a text, and a text as a truth value or a number; a number is taken exactly or not at
all, except that a double is rounded to the nearest number that a word holds.
-/

set_option autoImplicit false

namespace SpeechRelay.Settings

/-- What was found where a value of another type is wanted. -/
inductive Found where
  | nothing
  | truth (b : Bool)
  | integer (i : Int)
  | word (n : Nat)
  | double (x : Float)
  | text (s : String)
  | list
  | table

/-- Why no settings could be loaded. -/
inductive LoadError where
  /-- A value of a wrong type under a key. -/
  | wrongType (found : Found) (wanted : String) (key : String) (origin : Option Origin)
  /-- Something else where a section belongs. -/
  | noSection (found : Found) (struct : String)
  /-- A section written as a list with too few elements. -/
  | shortSection (length : Nat) (struct : String) (fields : Nat)
  | missingField (name : String)
  /-- The file could not be read as a table. -/
  | unreadableFile

/-- What was found, in the words for a value under a key. -/
def Found.describe : Found → String
  | .nothing => "unit value"
  | .truth b => "boolean `" ++ (if b then "true" else "false") ++ "`"
  | .integer i => "64-bit integer `" ++ toString i ++ "`"
  | .word n => "64-bit unsigned integer `" ++ toString n ++ "`"
  | .double x => "floating point `" ++ Decimal.write .plain x ++ "`"
  | .text s => "string " ++ Text.quoted s
  | .list => "sequence"
  | .table => "map"

/-- What was found, in the words for a section. -/
def Found.describeSection : Found → String
  | .integer i => "integer `" ++ toString i ++ "`"
  | .double x => "floating point `" ++ Decimal.write .pointed x ++ "`"
  | found => found.describe

/-- The wording of an error. A file that could not be read has none. -/
def LoadError.message? : LoadError → Option String
  | .wrongType found wanted key origin =>
    some ("invalid type: " ++ found.describe ++ ", expected " ++ wanted ++ " for key `" ++ key ++
      "`" ++ (match origin with | some o => " in " ++ o.describe | none => ""))
  | .noSection found struct =>
    some ("invalid type: " ++ found.describeSection ++ ", expected struct " ++ struct)
  | .shortSection length struct fields =>
    some ("invalid length " ++ toString length ++ ", expected struct " ++ struct ++ " with " ++
      toString fields ++ (if fields = 1 then " element" else " elements"))
  | .missingField name => some ("missing field `" ++ name ++ "`")
  | .unreadableFile => none

/-- What a value shows where one of another type is wanted. -/
def Value.found : Value → Found
  | .scalar _ .nothing => .nothing
  | .scalar _ (.truth b) => .truth b
  | .scalar _ (.integer i) => .integer i
  | .scalar _ (.double x) => .double x
  | .scalar _ (.text s) => .text s
  | .list .. => .list
  | .table .. => .table

/-- Where a value comes from. -/
def Value.origin : Value → Option Origin
  | .scalar o _ | .list o _ | .table o _ => o

/-- The error of a value of a wrong type. -/
def Value.mismatch (v : Value) (wanted key : String) : LoadError :=
  .wrongType v.found wanted key v.origin

/-- How a value under a key becomes a setting. -/
abbrev Reading (α : Type) : Type := String → Value → Except LoadError α

/-- Texts that mean yes. -/
def yesTexts : List String := ["true", "on", "yes"]

/-- Texts that mean no. -/
def noTexts : List String := ["false", "off", "no"]

/-- A truth value. -/
def readTruth : Reading Bool := fun key v =>
  match v with
  | .scalar _ (.truth b) => .ok b
  | .scalar _ (.integer i) => .ok (i ≠ 0)
  | .scalar _ (.double x) => .ok (x != 0)
  | .scalar o (.text s) =>
    let s := Text.lowered s
    if yesTexts.contains s || s = "1" then .ok true
    else if noTexts.contains s || s = "0" then .ok false
    else .error (.wrongType (.text s) "a boolean" key o)
  | v => .error (v.mismatch "a boolean" key)

/-- The number that decimal digits are, behind at most one plus, if a word of 64 bits holds it. -/
def wordOfText? (s : String) : Option Nat :=
  let ds := match s.toList with
    | '+' :: ds => ds
    | ds => ds
  if ds.isEmpty || !ds.all Char.isDigit then none
  else
    let n := ds.foldl (fun n d => n * 10 + (d.toNat - 0x30)) 0
    if n < 0x10000000000000000 then some n else none

/-- A number in a word of 64 bits. -/
def readWord : Reading Nat := fun key v =>
  match v with
  | .scalar _ (.truth b) => .ok (if b then 1 else 0)
  | .scalar o (.integer i) =>
    if 0 ≤ i then .ok i.toNat
    else .error (.wrongType (.integer i) "an unsigned 64 bit or less integer" key o)
  | .scalar _ (.double x) => .ok x.round.toUInt64.toNat
  | .scalar o (.text s) =>
    let lower := Text.lowered s
    if yesTexts.contains lower then .ok 1
    else if noTexts.contains lower then .ok 0
    else match wordOfText? s with
      | some n => .ok n
      | none => .error (.wrongType (.text s) "an integer" key o)
  | v => .error (v.mismatch "an integer" key)

/-- A number of at most that many bits. -/
def readNumber (bits : Nat) : Reading Nat := fun key v => do
  let n ← readWord key v
  if n < Nat.pow 2 bits then return n
  else throw (.wrongType (.word n) ("an unsigned " ++ toString bits ++ " bit integer") key none)

/-- A number of 16 bits. -/
def readWord16 : Reading UInt16 := fun key v => (readNumber 16 key v).map UInt16.ofNat

/-- A number of 32 bits. -/
def readWord32 : Reading UInt32 := fun key v => (readNumber 32 key v).map UInt32.ofNat

/-- A number of 64 bits. -/
def readWord64 : Reading UInt64 := fun key v => (readWord key v).map UInt64.ofNat

/-- A text. -/
def readText : Reading String := fun key v =>
  match v with
  | .scalar _ (.text s) => .ok s
  | .scalar _ (.truth b) => .ok (if b then "true" else "false")
  | .scalar _ (.integer i) => .ok (toString i)
  | .scalar _ (.double x) => .ok (Decimal.write .plain x)
  | v => .error (v.mismatch "a string" key)

/-- A text or nothing. -/
def readOptionalText : Reading (Option String) := fun key v =>
  match v with
  | .scalar _ .nothing => .ok none
  | v => (readText key v).map some

/-! ## Sections -/

/-- A section with the name it is reached by, the name that messages call it, and the number of its
fields. -/
structure Section where
  key : String
  struct : String
  fields : Nat

/-- A field, if it is there: by its name in a table, by its place in a list. -/
def Section.read {α : Type} (s : Section) (v : Value) (place : Nat) (name : String)
    (reading : Reading α) : Except LoadError (Option α) :=
  match v with
  | .table _ _ =>
    match v.get? name with
    | none => .ok none
    | some field => (reading (s.key ++ "." ++ name) field).map some
  | .list _ items =>
    match items[place]? with
    | none => .error (.shortSection place s.struct s.fields)
    | some field => (reading (s.key ++ "[" ++ toString place ++ "]") field).map some
  | v => .error (.noSection v.found s.struct)

/-- A field that has to be there. -/
def demandField {α : Type} (name : String) : Option α → Except LoadError α
  | some a => .ok a
  | none => .error (.missingField name)

/-- The section of the status server. -/
def readServer (v : Value) : Except LoadError ServerSection := do
  let s : Section := ⟨"server", "ServerConfig", 3⟩
  let enabled ← s.read v 0 "enabled" readTruth
  let host ← s.read v 1 "host" readText
  let port ← s.read v 2 "port" readWord16
  return ⟨← demandField "enabled" enabled, ← demandField "host" host, ← demandField "port" port⟩

/-- The section of the link to the gateway. -/
def readStream (v : Value) : Except LoadError StreamSection := do
  let s : Section := ⟨"stream", "StreamConfig", 5⟩
  let url ← s.read v 0 "url" readText
  let audioEvent ← s.read v 1 "audio_event" readText
  let transcriptEvent ← s.read v 2 "transcript_event" readText
  let delay ← s.read v 3 "reconnect_delay_ms" readWord64
  let clear ← s.read v 4 "clear_on_disconnect" readTruth
  return ⟨← demandField "url" url, ← demandField "audio_event" audioEvent,
    ← demandField "transcript_event" transcriptEvent, ← demandField "reconnect_delay_ms" delay,
    ← demandField "clear_on_disconnect" clear⟩

/-- The section of the audio. -/
def readAudio (v : Value) : Except LoadError AudioSection := do
  let s : Section := ⟨"audio", "AudioConfig", 6⟩
  let channels ← s.read v 0 "channels" readWord16
  let width ← s.read v 1 "bytes_per_sample" readWord16
  let gate ← s.read v 2 "consume_gate_bytes" readWord64
  let silence ← s.read v 3 "silence_frame_samples" readWord64
  let pace ← s.read v 4 "pacing_interval_ms" readWord64
  let rate ← s.read v 5 "target_sample_rate" readWord32
  return ⟨← demandField "channels" channels, ← demandField "bytes_per_sample" width,
    ← demandField "consume_gate_bytes" gate, ← demandField "silence_frame_samples" silence,
    ← demandField "pacing_interval_ms" pace, ← demandField "target_sample_rate" rate⟩

/-- The section of the recognizer. -/
def readRecognizer (v : Value) : Except LoadError RecognizerSection := do
  let s : Section := ⟨"recognizer", "RecognizerConfig", 3⟩
  let backend ← s.read v 0 "backend" readText
  let model ← s.read v 1 "model_path" readText
  let partials ← s.read v 2 "log_partials" readTruth
  return ⟨← demandField "backend" backend, ← demandField "model_path" model,
    ← demandField "log_partials" partials⟩

/-- The section of the aids for finding faults; its one field may be left out. -/
def readDebug (v : Value) : Except LoadError DebugSection := do
  let s : Section := ⟨"debug", "DebugConfig", 1⟩
  let path ← s.read v 0 "pcm_log_path" readOptionalText
  return ⟨path.join⟩

/-- A section of a table of sections. -/
def readSection {α : Type} (root : Value) (name : String) (read : Value → Except LoadError α) :
    Except LoadError α := do
  read (← demandField name (root.get? name))

/-- The settings that a table of sections holds. -/
def ofValue (root : Value) : Except LoadError Settings := do
  let server ← readSection root "server" readServer
  let stream ← readSection root "stream" readStream
  let audio ← readSection root "audio" readAudio
  let recognizer ← readSection root "recognizer" readRecognizer
  let debug ← readSection root "debug" readDebug
  return { server, stream, audio, recognizer, debug }

end SpeechRelay.Settings
