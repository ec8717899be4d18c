import SpeechRelay.Audio.Downmix
import SpeechRelay.Audio.PcmLog
import SpeechRelay.Pipeline
import SpeechRelay.Recognizer.Answer

/-!
# The feeder

At a fixed pace the feeder takes whole units from the buffer, mixes them down to a mono frame, or
takes a frame of silence if too little is buffered, and feeds the frame to the recognizer. When the
recognizer has ended an utterance with words in it, the feeder emits a transcript. A recognizer that
fails, or an outlet that refuses, ends that one round and nothing else.

`tick` is one round and `finish` is the end. Both say how they ended and give the feeder as it is
then, also when a limit of the machine halted them half-way.
-/

set_option autoImplicit false

namespace SpeechRelay

open Audio

namespace Feeder

/-- Where the feeder is in its round. -/
inductive Stage where
  | idle
  | polling
  | mixing
  | recognizing
  | emitting
  | awaiting
  | stopped
  deriving DecidableEq

/-- What does not change while the feeder works. -/
structure Setup (σ τ ω : Type) where
  format : SampleFormat
  /-- The samples in a frame of silence. -/
  silenceSamples : Nat
  /-- Whether to ask for the utterance in progress and note it. -/
  logHypotheses : Bool
  recognizer : Recognizer σ
  outlet : Outlet τ
  medium : Medium ω

end Feeder

/-- The feeder and all that it works on. -/
structure Feeder (σ τ ω : Type) where
  stage : Feeder.Stage
  recognizer : σ
  outlet : τ
  /-- The log of what the recognizer hears, if one is kept. -/
  pcmLog : Option PcmLog
  medium : ω
  /-- When the last transcript was made, in nanoseconds since the start. -/
  lastTranscript : Nat
  pipeline : Pipeline

namespace Feeder

variable {σ τ ω : Type}

/-- What the clocks and the source of identifiers show at a moment. -/
structure Reading where
  id : Uuid
  now : Calendar.Instant
  /-- Nanoseconds since the start. -/
  uptime : Nat

/-- What a round did. -/
structure Outcome where
  source : FrameSource
  samples : Nat
  emitted : Option Transcript
  fault : Option RecognizerError

/-- A result beside the feeder as it is then. -/
abbrev Result (σ τ ω α : Type) : Type := Except Halt α × Feeder σ τ ω

/-- A feeder that has done nothing yet. -/
def create (recognizer : σ) (outlet : τ) (medium : ω) (pipeline : Pipeline) : Feeder σ τ ω where
  stage := .idle
  recognizer := recognizer
  outlet := outlet
  pcmLog := none
  medium := medium
  lastTranscript := 0
  pipeline := pipeline

/-- The feeder at another stage. -/
def enter (f : Feeder σ τ ω) (stage : Stage) : Feeder σ τ ω := { f with stage }

/-- The feeder with entries written down. -/
def note (f : Feeder σ τ ω) (entries : Journal) : Feeder σ τ ω :=
  { f with pipeline := f.pipeline.note entries }

/-- The feeder with a recognizer in another state. -/
def hearing (f : Feeder σ τ ω) (s : σ) : Feeder σ τ ω := { f with recognizer := s }

/-- Counts a happening. -/
def record (f : Feeder σ τ ω) (h : Happening) : Result σ τ ω Unit :=
  match f.pipeline.record h with
  | .ok pipeline => (.ok (), { f with pipeline })
  | .error halt => (.error halt, f)

/-! ## The log of what the recognizer hears -/

/-- Starts the log. -/
def startLog (s : Setup σ τ ω) (f : Feeder σ τ ω) : Feeder σ τ ω :=
  match PcmLog.start s.medium f.medium with
  | ((log, entries), medium) => { f with pcmLog := some log, medium }.note entries

/-- Adds samples to the log, if one is kept. -/
def logSamples (s : Setup σ τ ω) (samples : List Int16) (f : Feeder σ τ ω) : Feeder σ τ ω :=
  match f.pcmLog with
  | none => f
  | some log =>
    match log.append s.medium samples f.medium with
    | ((log, entries), medium) => { f with pcmLog := some log, medium }.note entries

/-! ## A round -/

/-- The next frame, and how many bytes stayed behind in the buffer. -/
def nextFrame (s : Setup σ τ ω) (f : Feeder σ τ ω) : Result σ τ ω (MonoFrame × Nat) :=
  match f.pipeline.buffer.take with
  | (some chunk, buffer) =>
    let f := { f with stage := .mixing, pipeline := { f.pipeline with buffer } }.note
      (chunk.notes ++ s.format.notes chunk.bytes)
    match s.format.downmix chunk.bytes with
    | .ok samples => (.ok (⟨samples, .buffered⟩, chunk.remainder), f)
    | .error halt => (.error halt, f)
  | (none, _) =>
    let f := f.enter .polling
    match silence s.silenceSamples with
    | .ok samples => (.ok (⟨samples, .silence⟩, 0), f)
    | .error halt => (.error halt, f)

/-- What the recognizer made of a frame. -/
inductive Verdict where
  /-- The utterance goes on, or nothing was said in it. -/
  | nothing
  /-- An utterance with these words has ended. -/
  | utterance (text : String)
  | fault (why : RecognizerError)

/-- Asks for the utterance in progress and notes it, unless it has no words. -/
def askHypothesis (s : Setup σ τ ω) (f : Feeder σ τ ω) : Verdict × Feeder σ τ ω :=
  match s.recognizer.partialResult f.recognizer with
  | (.error why, r) => (.fault why, f.hearing r)
  | (.ok answer, r) =>
    match Recognizer.readPartial answer with
    | .error why => (.fault why, f.hearing r)
    | .ok text => (.nothing, (f.hearing r).note (if text = "" then [] else [.hypothesis text]))

/-- Asks for the utterance that has ended. -/
def askUtterance (s : Setup σ τ ω) (f : Feeder σ τ ω) : Verdict × Feeder σ τ ω :=
  match s.recognizer.result f.recognizer with
  | (.error why, r) => (.fault why, f.hearing r)
  | (.ok answer, r) =>
    match Recognizer.readFinal answer with
    | .error why => (.fault why, f.hearing r)
    | .ok text => (if text = "" then .nothing else .utterance text, f.hearing r)

/-- Feeds samples to the recognizer, unless there are none. -/
def hear (s : Setup σ τ ω) (samples : List Int16) (f : Feeder σ τ ω) : Verdict × Feeder σ τ ω :=
  if samples.isEmpty then (.nothing, f)
  else
    match s.recognizer.accept samples f.recognizer with
    | (.error why, r) => (.fault why, f.hearing r)
    | (.ok false, r) =>
      if s.logHypotheses then askHypothesis s (f.hearing r) else (.nothing, f.hearing r)
    | (.ok true, r) => askUtterance s (f.hearing r)

/-- Offers the transcript of a text to the outlet, unless the text is empty. The answer is the
transcript if it was accepted. -/
def emit (s : Setup σ τ ω) (r : Reading) (text : String) (f : Feeder σ τ ω) :
    Result σ τ ω (Option Transcript) :=
  if text = "" then (.ok none, f)
  else
    let t := Transcript.make text ⟨r.id, r.now, Calendar.Span.ofNanos (r.uptime - f.lastTranscript)⟩
    let f := { f with lastTranscript := r.uptime }.note [.utterance text]
    match s.outlet.emit t f.outlet with
    | (.ok (), outlet) =>
      match { f with outlet }.record (.transcribed t.timestamp) with
      | (.ok (), f) => (.ok (some t), f)
      | (.error halt, f) => (.error halt, f)
    | (.error why, outlet) =>
      match ({ f with outlet }.note [.transcriptDropped why]).record .outletRefused with
      | (.ok (), f) => (.ok none, f)
      | (.error halt, f) => (.error halt, f)

/-- What follows from what the recognizer made of a frame. -/
def conclude (s : Setup σ τ ω) (r : Reading) (frame : MonoFrame) (v : Verdict)
    (f : Feeder σ τ ω) : Result σ τ ω Outcome :=
  match v with
  | .nothing => (.ok ⟨frame.source, frame.samples.length, none, none⟩, f.enter .awaiting)
  | .fault why =>
    match (f.note [.frameSkipped frame.source]).record .recognizerFailed with
    | (.ok (), f) =>
      (.ok ⟨frame.source, frame.samples.length, none, some why⟩, f.enter .awaiting)
    | (.error halt, f) => (.error halt, f)
  | .utterance text =>
    match emit s r text (f.enter .emitting) with
    | (.ok emitted, f) => (.ok ⟨frame.source, frame.samples.length, emitted, none⟩, f)
    | (.error halt, f) => (.error halt, f)

/-- One round. -/
def tick (s : Setup σ τ ω) (r : Reading) (f : Feeder σ τ ω) : Result σ τ ω Outcome :=
  match nextFrame s f with
  | (.error halt, f) => (.error halt, f)
  | (.ok (frame, remainder), f) =>
    match f.record (.fed frame.source frame.samples.length remainder) with
    | (.error halt, f) => (.error halt, f)
    | (.ok (), f) =>
      match hear s frame.samples ((logSamples s frame.samples f).enter .recognizing) with
      | (verdict, f) => conclude s r frame verdict f

/-! ## The end -/

/-- Emits what the recognizer still has, and stops. -/
def finish (s : Setup σ τ ω) (r : Reading) (f : Feeder σ τ ω) :
    Result σ τ ω (Option Transcript) :=
  match s.recognizer.finalResult f.recognizer with
  | (.error why, st) => (.ok none, ((f.hearing st).note [.flushFailed why]).enter .stopped)
  | (.ok answer, st) =>
    match Recognizer.readFinal answer with
    | .error why => (.ok none, ((f.hearing st).note [.flushFailed why]).enter .stopped)
    | .ok text =>
      match emit s r text (f.hearing st) with
      | (.ok emitted, f) => (.ok emitted, f.enter .stopped)
      | (.error halt, f) => (.error halt, f)

end Feeder

end SpeechRelay
