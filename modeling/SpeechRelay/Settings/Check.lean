import SpeechRelay.Settings.Basic

/-!
# Checking settings

Settings that can be read may still make no sense. `Settings.check` gives the first fault, in a
fixed order.
-/

set_option autoImplicit false

namespace SpeechRelay.Settings

/-- A fault of settings. -/
inductive Fault where
  | portZero
  /-- The gateway's address has neither of the two schemes. -/
  | scheme (url : String)
  | noChannels
  /-- Samples do not have 16 bits. -/
  | sampleWidth (bytes : Nat)
  /-- Less than a unit opens the gate. -/
  | gateBelowUnit (gate unit : Nat)
  | emptySilence
  | noPace
  | noSampleRate
  | unknownBackend (name : String)
  deriving DecidableEq

/-- The wording of a fault. -/
def Fault.message : Fault → String
  | .portZero => "Server port cannot be 0"
  | .scheme url => "Stream URL must start with ws:// or wss://, got " ++ url
  | .noChannels => "Channel count must be greater than 0"
  | .sampleWidth bytes =>
    "Only 16-bit PCM is supported (bytes_per_sample = 2), got " ++ toString bytes
  | .gateBelowUnit gate unit =>
    "Consume gate (" ++ toString gate ++ " bytes) must hold at least one " ++ toString unit ++
      "-byte sample frame"
  | .emptySilence => "Silence frame length must be greater than 0"
  | .noPace => "Pacing interval must be greater than 0"
  | .noSampleRate => "Target sample rate must be greater than 0"
  | .unknownBackend name => "Unknown recognizer backend: " ++ name

/-- Whether an address has one of the schemes of the gateway. -/
def hasScheme (url : String) : Bool :=
  ['w', 's', ':', '/', '/'].isPrefixOf url.toList ||
    ['w', 's', 's', ':', '/', '/'].isPrefixOf url.toList

/-- Nothing, or the fault. -/
def demand (holds : Bool) (fault : Fault) : Except Fault Unit :=
  if holds then .ok () else .error fault

/-- The first fault, if there is one. -/
def check (s : Settings) : Except Fault Unit := do
  demand (!(s.server.enabled && s.server.port = 0)) .portZero
  demand (hasScheme s.stream.url) (.scheme s.stream.url)
  demand (s.audio.channels ≠ 0) .noChannels
  demand (s.audio.bytesPerSample = 2) (.sampleWidth s.audio.bytesPerSample.toNat)
  demand (s.audio.unitBytes ≤ s.audio.consumeGateBytes.toNat)
    (.gateBelowUnit s.audio.consumeGateBytes.toNat s.audio.unitBytes)
  demand (s.audio.silenceFrameSamples ≠ 0) .emptySilence
  demand (s.audio.pacingIntervalMs ≠ 0) .noPace
  demand (s.audio.targetSampleRate ≠ 0) .noSampleRate
  demand (s.recognizer.backend = "vosk" || s.recognizer.backend = "null")
    (.unknownBackend s.recognizer.backend)

end SpeechRelay.Settings
