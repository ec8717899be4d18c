import Mathlib.Data.List.Induction
import SpeechRelay.Proofs.Settings.Fields

/-!
# Settings as a layer

Settings that are written as an object of objects and taken as a table of tables hold their own
data (`holdsAll_ofJson`), so that they are read back as they were (`ofValue_ofJson`). That needs
numbers of 64 bits that a signed word can hold: beyond it a number in a table is a double.
-/

set_option autoImplicit false

namespace SpeechRelay.Settings

/-! ## Objects as tables -/

/-- Of two members with one name the later one counts. -/
theorem member?_cons (name : String) (m : String × Json) (ms : List (String × Json)) :
    Json.member? name (m :: ms) =
      (Json.member? name ms).or (if m.1 = name then some m.2 else none) := by
  induction ms using List.reverseRecOn with
  | nil => rfl
  | append_singleton ms last ih =>
    obtain ⟨key, v⟩ := last
    rw [← List.cons_append, Json.member?_append_singleton, Json.member?_append_singleton, ih]
    split <;> rfl

/-- A name holds in the table of an object what its last member of that name holds. -/
theorem get?_ofJson_object (origin : Option Origin) (name : String)
    (members : List (String × Json)) :
    (Value.ofJson origin (.object members)).get? name =
      (Json.member? name members).map (Value.ofJson origin) := by
  rw [Value.ofJson]
  induction members with
  | nil => rfl
  | cons m ms ih =>
    obtain ⟨key, v⟩ := m
    have hany : (Value.ofMembers origin ms).any (·.1 = name) = (Json.member? name ms).isSome := by
      rw [← Option.isSome_map, ← ih, Bool.eq_iff_iff]
      simp [Value.get?]
    rw [member?_cons, Value.ofMembers]
    by_cases hkey : key = name
    · subst hkey
      simp only [Value.ofMember, hany]
      cases hlater : Json.member? key ms with
      | some w => simpa [hlater] using ih
      | none => simp [Value.get?]
    · rw [if_neg hkey, Option.or_none, ← ih]
      split <;> simp [Value.get?, Value.ofMember, hkey]

/-- A number that a signed word holds is read as an integer. -/
theorem ofJson_ofNat {n : Nat} (h : n < 0x8000000000000000) (origin : Option Origin) :
    Value.ofJson origin (.ofNat n) = .scalar origin (.integer n) := by
  unfold Json.ofNat
  rw [Value.ofJson, if_pos (by omega)]

/-! ## Writing and reading -/

/-- The numbers of 64 bits that a signed word holds too. -/
structure Signed (s : Settings) : Prop where
  delay : s.stream.reconnectDelayMs.toNat < 0x8000000000000000
  gate : s.audio.consumeGateBytes.toNat < 0x8000000000000000
  silence : s.audio.silenceFrameSamples.toNat < 0x8000000000000000
  pace : s.audio.pacingIntervalMs.toNat < 0x8000000000000000

section Written

variable (s : Settings) (origin : Option Origin)

/-- The section of the server is written with all its data. -/
theorem holds_server : Holds s.get .server (Value.ofJson origin s.server.toJson) := by
  have hport := ofJson_ofNat (Nat.lt_trans s.server.port.toNat_lt (by decide)) origin
  intro f hf
  rw [ServerSection.toJson, get?_ofJson_object]
  cases f with
  | enabled => exact ⟨origin, _, rfl, .inl rfl⟩
  | host => exact ⟨origin, _, rfl, rfl⟩
  | port => exact ⟨origin, _, congrArg some hport, .integer⟩
  | _ => cases hf

/-- The section of the stream is written with all its data. -/
theorem holds_stream (hs : s.Signed) :
    Holds s.get .stream (Value.ofJson origin s.stream.toJson) := by
  intro f hf
  rw [StreamSection.toJson, get?_ofJson_object]
  cases f with
  | url | audioEvent | transcriptEvent => exact ⟨origin, _, rfl, rfl⟩
  | reconnectDelayMs => exact ⟨origin, _, congrArg some (ofJson_ofNat hs.delay origin), .integer⟩
  | clearOnDisconnect => exact ⟨origin, _, rfl, .inl rfl⟩
  | _ => cases hf

/-- The section of the audio is written with all its data. -/
theorem holds_audio (hs : s.Signed) :
    Holds s.get .audio (Value.ofJson origin s.audio.toJson) := by
  have hchannels := ofJson_ofNat (Nat.lt_trans s.audio.channels.toNat_lt (by decide)) origin
  have hwidth := ofJson_ofNat (Nat.lt_trans s.audio.bytesPerSample.toNat_lt (by decide)) origin
  have hrate := ofJson_ofNat (Nat.lt_trans s.audio.targetSampleRate.toNat_lt (by decide)) origin
  intro f hf
  rw [AudioSection.toJson, get?_ofJson_object]
  cases f with
  | channels => exact ⟨origin, _, congrArg some hchannels, .integer⟩
  | bytesPerSample => exact ⟨origin, _, congrArg some hwidth, .integer⟩
  | consumeGateBytes => exact ⟨origin, _, congrArg some (ofJson_ofNat hs.gate origin), .integer⟩
  | silenceFrameSamples =>
    exact ⟨origin, _, congrArg some (ofJson_ofNat hs.silence origin), .integer⟩
  | pacingIntervalMs => exact ⟨origin, _, congrArg some (ofJson_ofNat hs.pace origin), .integer⟩
  | targetSampleRate => exact ⟨origin, _, congrArg some hrate, .integer⟩
  | _ => cases hf

/-- The section of the recognizer is written with all its data. -/
theorem holds_recognizer : Holds s.get .recognizer (Value.ofJson origin s.recognizer.toJson) := by
  intro f hf
  rw [RecognizerSection.toJson, get?_ofJson_object]
  cases f with
  | backend | modelPath => exact ⟨origin, _, rfl, rfl⟩
  | logPartials => exact ⟨origin, _, rfl, .inl rfl⟩
  | _ => cases hf

/-- The section for debugging is written with all its data. -/
theorem holds_debug : Holds s.get .debug (Value.ofJson origin s.debug.toJson) := by
  intro f hf
  rw [DebugSection.toJson, get?_ofJson_object]
  cases f with
  | pcmLogPath =>
    cases hpath : s.debug.pcmLogPath <;>
      exact ⟨origin, _, rfl, by simp [Scalar.StandsFor, get, hpath]⟩
  | _ => cases hf

/-- Settings that are written hold their own data. -/
theorem holdsAll_ofJson (hs : s.Signed) : HoldsAll s.get (Value.ofJson origin s.toJson) := by
  intro part
  rw [toJson, get?_ofJson_object]
  cases part with
  | server => exact ⟨_, rfl, holds_server s origin⟩
  | stream => exact ⟨_, rfl, holds_stream s origin hs⟩
  | audio => exact ⟨_, rfl, holds_audio s origin hs⟩
  | recognizer => exact ⟨_, rfl, holds_recognizer s origin⟩
  | debug => exact ⟨_, rfl, holds_debug s origin⟩

/-- What is written is read back. -/
theorem ofValue_ofJson (hs : s.Signed) : ofValue (Value.ofJson origin s.toJson) = .ok s :=
  ofValue_of_holdsAll (holdsAll_ofJson s origin hs)

end Written

/-- The numbers among the defaults are small. -/
theorem signed_default : default.Signed := by
  constructor <;> decide

end SpeechRelay.Settings
