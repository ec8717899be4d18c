import SpeechRelay.Audio.Format
import SpeechRelay.Json.Value

/-!
# Settings

Everything that can be set, in five sections, with the numbers as wide as they are everywhere else.
-/

set_option autoImplicit false

namespace SpeechRelay

namespace Settings

/-- The status server. -/
structure ServerSection where
  enabled : Bool
  host : String
  port : UInt16
  deriving DecidableEq

/-- The link to the gateway. -/
structure StreamSection where
  url : String
  /-- The name of the event that brings audio. -/
  audioEvent : String
  /-- The name of the event that transcripts are sent as. -/
  transcriptEvent : String
  reconnectDelayMs : UInt64
  /-- Whether the end of a session clears the buffer. -/
  clearOnDisconnect : Bool
  deriving DecidableEq

/-- The form of the audio and the pace of feeding. -/
structure AudioSection where
  channels : UInt16
  bytesPerSample : UInt16
  /-- The bytes that have to be buffered before any are taken. -/
  consumeGateBytes : UInt64
  silenceFrameSamples : UInt64
  pacingIntervalMs : UInt64
  targetSampleRate : UInt32
  deriving DecidableEq

/-- The recognizer. -/
structure RecognizerSection where
  backend : String
  modelPath : String
  /-- Whether to note the utterance in progress. -/
  logPartials : Bool
  deriving DecidableEq

/-- Aids for finding faults. -/
structure DebugSection where
  /-- Where to log what the recognizer hears, if anywhere. -/
  pcmLogPath : Option String
  deriving DecidableEq

end Settings

/-- All settings. -/
structure Settings where
  server : Settings.ServerSection
  stream : Settings.StreamSection
  audio : Settings.AudioSection
  recognizer : Settings.RecognizerSection
  debug : Settings.DebugSection
  deriving DecidableEq

namespace Settings

/-- The settings where nothing is set. -/
def default : Settings where
  server := ⟨true, "127.0.0.1", 8081⟩
  stream := ⟨"ws://localhost:8080", "audio-stream", "transcribed-text", 2000, false⟩
  audio := ⟨2, 2, 512, 8192, 400, 24000⟩
  recognizer := ⟨"vosk", "./vosk/vosk-model-fr-0.22", false⟩
  debug := ⟨none⟩

/-- The sample format that the settings describe. -/
def AudioSection.format (a : AudioSection) : Audio.SampleFormat := ⟨a.channels, a.bytesPerSample⟩

/-- The bytes of one unit. -/
def AudioSection.unitBytes (a : AudioSection) : Nat := a.format.unitBytes

/-- The section as an object. -/
def ServerSection.toJson (s : ServerSection) : Json :=
  .object [("enabled", .truth s.enabled), ("host", .text s.host), ("port", .ofNat s.port.toNat)]

/-- The section as an object. -/
def StreamSection.toJson (s : StreamSection) : Json :=
  .object [("url", .text s.url), ("audio_event", .text s.audioEvent),
    ("transcript_event", .text s.transcriptEvent),
    ("reconnect_delay_ms", .ofNat s.reconnectDelayMs.toNat),
    ("clear_on_disconnect", .truth s.clearOnDisconnect)]

/-- The section as an object. -/
def AudioSection.toJson (a : AudioSection) : Json :=
  .object [("channels", .ofNat a.channels.toNat),
    ("bytes_per_sample", .ofNat a.bytesPerSample.toNat),
    ("consume_gate_bytes", .ofNat a.consumeGateBytes.toNat),
    ("silence_frame_samples", .ofNat a.silenceFrameSamples.toNat),
    ("pacing_interval_ms", .ofNat a.pacingIntervalMs.toNat),
    ("target_sample_rate", .ofNat a.targetSampleRate.toNat)]

/-- The section as an object. -/
def RecognizerSection.toJson (r : RecognizerSection) : Json :=
  .object [("backend", .text r.backend), ("model_path", .text r.modelPath),
    ("log_partials", .truth r.logPartials)]

/-- The section as an object. -/
def DebugSection.toJson (d : DebugSection) : Json :=
  .object [("pcm_log_path", .ofText? d.pcmLogPath)]

/-- The settings as an object of objects. -/
def toJson (s : Settings) : Json :=
  .object [("server", s.server.toJson), ("stream", s.stream.toJson), ("audio", s.audio.toJson),
    ("recognizer", s.recognizer.toJson), ("debug", s.debug.toJson)]

end Settings

end SpeechRelay
