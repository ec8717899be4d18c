import Mathlib.Data.List.Nodup
import SpeechRelay.Proofs.Json.Numerals
import SpeechRelay.Settings.Convert

/-!
# Fields

Every setting is a field of one of five parts, with a name and a kind. `Settings.get` is the datum
of a field. A scalar stands for a datum (`Scalar.StandsFor`) if it is the datum itself, or a text
that spells it: decimal digits for a number, `true` and `false` for a truth value.

Each kind has its reading, and a reading gives what the scalar stands for
(`reading_of_standsFor`). So a table of tables in which every field has a scalar for its datum is
read as the settings with these data (`ofValue_of_holdsAll`).
-/

set_option autoImplicit false

namespace SpeechRelay.Settings

open Json.Numeral (AllDigits natValue)

/-! ## Parts, kinds and fields -/

/-- The sections. -/
inductive Part where
  | server
  | stream
  | audio
  | recognizer
  | debug
  deriving DecidableEq

/-- The name of a section. -/
def Part.name : Part → String
  | .server => "server"
  | .stream => "stream"
  | .audio => "audio"
  | .recognizer => "recognizer"
  | .debug => "debug"

/-- What is wanted in a field. -/
inductive Kind where
  | truth
  | word16
  | word32
  | word64
  | text
  | optionalText

/-- What a field of that kind holds. -/
abbrev Kind.Datum : Kind → Type
  | .truth => Bool
  | .word16 => UInt16
  | .word32 => UInt32
  | .word64 => UInt64
  | .text => String
  | .optionalText => Option String

/-- How a datum of that kind is read. -/
def Kind.reading : (k : Kind) → Reading k.Datum
  | .truth => readTruth
  | .word16 => readWord16
  | .word32 => readWord32
  | .word64 => readWord64
  | .text => readText
  | .optionalText => readOptionalText

/-- The fields of all sections. -/
inductive Field where
  | enabled
  | host
  | port
  | url
  | audioEvent
  | transcriptEvent
  | reconnectDelayMs
  | clearOnDisconnect
  | channels
  | bytesPerSample
  | consumeGateBytes
  | silenceFrameSamples
  | pacingIntervalMs
  | targetSampleRate
  | backend
  | modelPath
  | logPartials
  | pcmLogPath
  deriving DecidableEq

namespace Field

/-- The section that a field is in. -/
def part : Field → Part
  | enabled | host | port => .server
  | url | audioEvent | transcriptEvent | reconnectDelayMs | clearOnDisconnect => .stream
  | channels | bytesPerSample | consumeGateBytes | silenceFrameSamples | pacingIntervalMs
  | targetSampleRate => .audio
  | backend | modelPath | logPartials => .recognizer
  | pcmLogPath => .debug

/-- The name of a field in its section. -/
def name : Field → String
  | enabled => "enabled"
  | host => "host"
  | port => "port"
  | url => "url"
  | audioEvent => "audio_event"
  | transcriptEvent => "transcript_event"
  | reconnectDelayMs => "reconnect_delay_ms"
  | clearOnDisconnect => "clear_on_disconnect"
  | channels => "channels"
  | bytesPerSample => "bytes_per_sample"
  | consumeGateBytes => "consume_gate_bytes"
  | silenceFrameSamples => "silence_frame_samples"
  | pacingIntervalMs => "pacing_interval_ms"
  | targetSampleRate => "target_sample_rate"
  | backend => "backend"
  | modelPath => "model_path"
  | logPartials => "log_partials"
  | pcmLogPath => "pcm_log_path"

/-- What is wanted in a field. -/
abbrev kind : Field → Kind
  | enabled | clearOnDisconnect | logPartials => .truth
  | port | channels | bytesPerSample => .word16
  | targetSampleRate => .word32
  | reconnectDelayMs | consumeGateBytes | silenceFrameSamples | pacingIntervalMs => .word64
  | host | url | audioEvent | transcriptEvent | backend | modelPath => .text
  | pcmLogPath => .optionalText

/-- What a field holds. -/
abbrev Datum (f : Field) : Type := f.kind.Datum

/-- All fields, section by section. -/
def all : List Field :=
  [enabled, host, port, url, audioEvent, transcriptEvent, reconnectDelayMs, clearOnDisconnect,
    channels, bytesPerSample, consumeGateBytes, silenceFrameSamples, pacingIntervalMs,
    targetSampleRate, backend, modelPath, logPartials, pcmLogPath]

/-- There are no other fields. -/
theorem mem_all (f : Field) : f ∈ all := by
  cases f <;> decide

end Field

/-- A datum for every field. -/
abbrev Data : Type := (f : Field) → f.Datum

/-- The datum of a field. -/
def get (s : Settings) : Data
  | .enabled => s.server.enabled
  | .host => s.server.host
  | .port => s.server.port
  | .url => s.stream.url
  | .audioEvent => s.stream.audioEvent
  | .transcriptEvent => s.stream.transcriptEvent
  | .reconnectDelayMs => s.stream.reconnectDelayMs
  | .clearOnDisconnect => s.stream.clearOnDisconnect
  | .channels => s.audio.channels
  | .bytesPerSample => s.audio.bytesPerSample
  | .consumeGateBytes => s.audio.consumeGateBytes
  | .silenceFrameSamples => s.audio.silenceFrameSamples
  | .pacingIntervalMs => s.audio.pacingIntervalMs
  | .targetSampleRate => s.audio.targetSampleRate
  | .backend => s.recognizer.backend
  | .modelPath => s.recognizer.modelPath
  | .logPartials => s.recognizer.logPartials
  | .pcmLogPath => s.debug.pcmLogPath

/-- The settings with these data. -/
def ofData (d : Data) : Settings where
  server := ⟨d .enabled, d .host, d .port⟩
  stream := ⟨d .url, d .audioEvent, d .transcriptEvent, d .reconnectDelayMs,
    d .clearOnDisconnect⟩
  audio := ⟨d .channels, d .bytesPerSample, d .consumeGateBytes, d .silenceFrameSamples,
    d .pacingIntervalMs, d .targetSampleRate⟩
  recognizer := ⟨d .backend, d .modelPath, d .logPartials⟩
  debug := ⟨d .pcmLogPath⟩

/-- Settings made of data have these data. -/
@[simp] theorem get_ofData (d : Data) (f : Field) : (ofData d).get f = d f := by
  cases f <;> rfl

/-- No two sections have one name. -/
theorem Part.name_injective : Function.Injective Part.name := by
  intro p q h
  cases p <;> cases q <;> first | rfl | exact absurd h (by decide)

/-- No name is given to two fields. -/
theorem Field.name_injective : Function.Injective Field.name := by
  have hnodup : (all.map name).Nodup := by decide +kernel
  intro f g h
  exact List.inj_on_of_nodup_map hnodup (mem_all f) (mem_all g) h

/-! ## What stands for a datum -/

/-- The text is a number in decimal digits. -/
structure IsDecimal (s : String) (n : Nat) : Prop where
  ne_nil : s.toList ≠ []
  digits : AllDigits s.toList
  value : natValue s.toList = n

/-- The scalar is a number, or its digits. -/
inductive Scalar.IsNumber (n : Nat) : Scalar → Prop where
  | integer : IsNumber n (.integer n)
  | text {s : String} (h : IsDecimal s n) : IsNumber n (.text s)

/-- The scalar stands for a datum of that kind: as it is, or as a text. -/
def Scalar.StandsFor (s : Scalar) : (k : Kind) → k.Datum → Prop
  | .truth, b => s = .truth b ∨ s = .text (if b then "true" else "false")
  | .word16, n => s.IsNumber n.toNat
  | .word32, n => s.IsNumber n.toNat
  | .word64, n => s.IsNumber n.toNat
  | .text, t => s = .text t
  | .optionalText, t => s = t.elim .nothing .text

/-! ## Reading what stands for a datum -/

/-- The characters of digits are next to each other. -/
theorem toNat_of_isDigit {c : Char} (h : c.isDigit) : 48 ≤ c.toNat ∧ c.toNat ≤ 57 := by
  simpa [Char.isDigit, UInt32.le_iff_toNat_le] using h

/-- A digit is its own lower case. -/
theorem lowerChar_of_isDigit {c : Char} (h : c.isDigit) : Text.lowerChar c = [c] := by
  have hsmall : c.toNat < 65 := Nat.lt_of_le_of_lt (toNat_of_isDigit h).2 (by decide)
  have hcapital : ¬(c.val ≥ 65 ∧ c.val ≤ 90) :=
    fun hc => Nat.not_le.mpr hsmall (UInt32.le_iff_toNat_le.mp hc.1)
  have hlower : c.toLower = c := dif_neg hcapital
  simp [Text.lowerChar, hlower, Nat.lt_trans hsmall (show 65 < 0x80 by decide)]

/-- Digits are their own lower case. -/
theorem flatten_lowerFrom {cs : List Char} (h : AllDigits cs) (before : List Char) :
    (Text.lowerFrom before cs).flatten = cs := by
  induction cs generalizing before with
  | nil => rfl
  | cons c cs ih =>
    have hc : c.isDigit := h c List.mem_cons_self
    have hcs : AllDigits cs := fun d hd => h d (List.mem_cons_of_mem c hd)
    have hsigma : c.toNat ≠ 0x3A3 := by
      have hrange := toNat_of_isDigit hc
      omega
    simp [Text.lowerFrom, hsigma, lowerChar_of_isDigit hc, ih hcs]

/-- Digits have one case. -/
theorem lowered_of_digits {s : String} (h : AllDigits s.toList) : Text.lowered s = s := by
  unfold Text.lowered Text.lower
  rw [flatten_lowerFrom h, String.ofList_toList]

/-- Digits spell no word for yes or no. -/
theorem not_contains_of_digits {s : String} (h : AllDigits s.toList) {words : List String}
    (hwords : words = yesTexts ∨ words = noTexts) : words.contains s = false := by
  rw [Bool.eq_false_iff]
  intro hmem
  rcases hwords with rfl | rfl <;> simp [yesTexts, noTexts] at hmem <;>
    rcases hmem with rfl | rfl | rfl <;> exact absurd h (by simp [AllDigits])

/-- Decimal digits are read as their number, if a word holds it. -/
theorem wordOfText?_eq {s : String} {n : Nat} (h : IsDecimal s n) :
    wordOfText? s = if n < Machine.wordSize then some n else none := by
  obtain ⟨hne, hdigits, hvalue⟩ := h
  have hall : s.toList.all Char.isDigit = true := List.all_eq_true.mpr hdigits
  have hfold : s.toList.foldl (fun n d => n * 10 + (d.toNat - 0x30)) 0 = n := hvalue
  unfold wordOfText?
  dsimp only
  split
  · next ds hplus =>
    -- A plus in front would be a digit.
    rw [hplus] at hdigits
    exact absurd (hdigits '+' List.mem_cons_self) (by decide)
  · simp only [hall, List.isEmpty_eq_false_iff.mpr hne, Bool.not_true, Bool.or_self,
      Bool.false_eq_true, if_false, hfold]
    rfl

/-- A number in decimal digits that fits into a word is read. -/
theorem wordOfText?_of_isDecimal {s : String} {n : Nat} (h : IsDecimal s n)
    (hfits : n < Machine.wordSize) : wordOfText? s = some n := by
  rw [wordOfText?_eq h, if_pos hfits]

section Readings

variable {s : Scalar} (key : String) (origin : Option Origin)

/-- A scalar that stands for a truth value is read as that. -/
theorem readTruth_of_standsFor {b : Bool} (h : s.StandsFor .truth b) :
    readTruth key (.scalar origin s) = .ok b := by
  rcases h with rfl | rfl
  · rfl
  · cases b <;> rfl

/-- Digits spell no truth value, so that they are read as a number or not at all. -/
theorem readWord_of_digits {text : String} (h : AllDigits text.toList) :
    readWord key (.scalar origin (.text text)) =
      match wordOfText? text with
      | some n => .ok n
      | none => .error (.wrongType (.text text) "an integer" key origin) := by
  have hyes := not_contains_of_digits h (.inl rfl)
  have hno := not_contains_of_digits h (.inr rfl)
  unfold readWord
  dsimp only
  rw [lowered_of_digits h, hyes, hno]
  rfl

/-- A scalar that is a number is read as it, if it fits into a word. -/
theorem readWord_of_isNumber {n : Nat} (h : s.IsNumber n) (hfits : n < Machine.wordSize) :
    readWord key (.scalar origin s) = .ok n := by
  cases h with
  | integer => simp [readWord]
  | @text s h => rw [readWord_of_digits key origin h.digits, wordOfText?_of_isDecimal h hfits]

/-- A scalar that is a number is read as it, if it has no more bits than are wanted. -/
theorem readNumber_of_isNumber {n bits : Nat} (h : s.IsNumber n) (hfits : n < Machine.wordSize)
    (hbits : n < Nat.pow 2 bits) : readNumber bits key (.scalar origin s) = .ok n := by
  unfold readNumber
  rw [readWord_of_isNumber key origin h hfits]
  exact if_pos hbits

/-- The reading of a kind gives what the scalar stands for. -/
theorem reading_of_standsFor {k : Kind} {d : k.Datum} (h : s.StandsFor k d) :
    k.reading key (.scalar origin s) = .ok d := by
  cases k with
  | truth => exact readTruth_of_standsFor key origin h
  | word16 =>
    have hlt : d.toNat < 2 ^ 16 := d.toNat_lt
    have hread := readNumber_of_isNumber key origin h (Nat.lt_trans hlt (by decide)) hlt
    simp only [Kind.reading, readWord16, hread]
    exact congrArg Except.ok (UInt16.ofNat_toNat)
  | word32 =>
    have hlt : d.toNat < 2 ^ 32 := d.toNat_lt
    have hread := readNumber_of_isNumber key origin h (Nat.lt_trans hlt (by decide)) hlt
    simp only [Kind.reading, readWord32, hread]
    exact congrArg Except.ok (UInt32.ofNat_toNat)
  | word64 =>
    have hread := readWord_of_isNumber key origin h d.toNat_lt
    simp only [Kind.reading, readWord64, hread]
    exact congrArg Except.ok (UInt64.ofNat_toNat)
  | text =>
    obtain rfl := h
    rfl
  | optionalText =>
    obtain rfl := h
    cases d <;> rfl

end Readings

/-! ## Tables that hold data -/

/-- The table of a part has a scalar for the datum of every field. -/
def Holds (d : Data) (p : Part) (table : Value) : Prop :=
  ∀ f : Field, f.part = p → ∃ origin s,
    table.get? f.name = some (.scalar origin s) ∧ s.StandsFor f.kind (d f)

/-- The table of tables has all data. -/
def HoldsAll (d : Data) (root : Value) : Prop :=
  ∀ p : Part, ∃ table, root.get? p.name = some table ∧ Holds d p table

section Tables

variable {d : Data} {table root : Value}

/-- A field is read from the table of its part, whatever place it has there. -/
theorem read_of_holds (f : Field) (h : Holds d f.part table) (s : Section) (place : Nat) :
    s.read table place f.name f.kind.reading = .ok (some (d f)) := by
  obtain ⟨origin, scalar, hget, hstands⟩ := h f rfl
  cases table with
  | scalar => cases hget
  | list => cases hget
  | table tableOrigin entries =>
    unfold Section.read
    rw [hget]
    exact congrArg (Except.map some) (reading_of_standsFor _ origin hstands)

/-- The section of the server is read from a table with its data. -/
theorem readServer_of_holds (h : Holds d .server table) :
    readServer table = .ok (ofData d).server := by
  let s : Section := ⟨"server", "ServerConfig", 3⟩
  have henabled := read_of_holds .enabled h s 0
  have hhost := read_of_holds .host h s 1
  have hport := read_of_holds .port h s 2
  simp only [s, Field.name, Kind.reading] at henabled hhost hport
  simp only [readServer, henabled, hhost, hport]
  rfl

/-- The section of the stream is read from a table with its data. -/
theorem readStream_of_holds (h : Holds d .stream table) :
    readStream table = .ok (ofData d).stream := by
  let s : Section := ⟨"stream", "StreamConfig", 5⟩
  have hurl := read_of_holds .url h s 0
  have haudio := read_of_holds .audioEvent h s 1
  have htranscript := read_of_holds .transcriptEvent h s 2
  have hdelay := read_of_holds .reconnectDelayMs h s 3
  have hclear := read_of_holds .clearOnDisconnect h s 4
  simp only [s, Field.name, Kind.reading] at hurl haudio htranscript hdelay hclear
  simp only [readStream, hurl, haudio, htranscript, hdelay, hclear]
  rfl

/-- The section of the audio is read from a table with its data. -/
theorem readAudio_of_holds (h : Holds d .audio table) :
    readAudio table = .ok (ofData d).audio := by
  let s : Section := ⟨"audio", "AudioConfig", 6⟩
  have hchannels := read_of_holds .channels h s 0
  have hwidth := read_of_holds .bytesPerSample h s 1
  have hgate := read_of_holds .consumeGateBytes h s 2
  have hsilence := read_of_holds .silenceFrameSamples h s 3
  have hpace := read_of_holds .pacingIntervalMs h s 4
  have hrate := read_of_holds .targetSampleRate h s 5
  simp only [s, Field.name, Kind.reading] at hchannels hwidth hgate hsilence hpace hrate
  simp only [readAudio, hchannels, hwidth, hgate, hsilence, hpace, hrate]
  rfl

/-- The section of the recognizer is read from a table with its data. -/
theorem readRecognizer_of_holds (h : Holds d .recognizer table) :
    readRecognizer table = .ok (ofData d).recognizer := by
  let s : Section := ⟨"recognizer", "RecognizerConfig", 3⟩
  have hbackend := read_of_holds .backend h s 0
  have hmodel := read_of_holds .modelPath h s 1
  have hpartials := read_of_holds .logPartials h s 2
  simp only [s, Field.name, Kind.reading] at hbackend hmodel hpartials
  simp only [readRecognizer, hbackend, hmodel, hpartials]
  rfl

/-- The section for debugging is read from a table with its data. -/
theorem readDebug_of_holds (h : Holds d .debug table) :
    readDebug table = .ok (ofData d).debug := by
  have hpath := read_of_holds .pcmLogPath h ⟨"debug", "DebugConfig", 1⟩ 0
  simp only [Field.name, Kind.reading] at hpath
  simp only [readDebug, hpath]
  rfl

/-- The settings that are read have the data that the tables hold. -/
theorem ofValue_of_holdsAll (h : HoldsAll d root) : ofValue root = .ok (ofData d) := by
  have hpart {α : Type} (p : Part) {read : Value → Except LoadError α} {a : α}
      (hread : ∀ table, Holds d p table → read table = .ok a) :
      readSection root p.name read = .ok a := by
    obtain ⟨table, hget, hholds⟩ := h p
    unfold readSection
    rw [hget]
    exact hread table hholds
  have hserver := hpart .server fun _ => readServer_of_holds
  have hstream := hpart .stream fun _ => readStream_of_holds
  have haudio := hpart .audio fun _ => readAudio_of_holds
  have hrecognizer := hpart .recognizer fun _ => readRecognizer_of_holds
  have hdebug := hpart .debug fun _ => readDebug_of_holds
  simp only [Part.name] at hserver hstream haudio hrecognizer hdebug
  simp only [ofValue, hserver, hstream, haudio, hrecognizer, hdebug]
  rfl

end Tables

end SpeechRelay.Settings
