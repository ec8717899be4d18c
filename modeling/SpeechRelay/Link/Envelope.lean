import SpeechRelay.Json.Record

/-!
# Envelopes of the gateway

A text message of the gateway is a record of an event and its data. The data of the audio event are
bytes: either a list of them, or an object whose member `data` is such a list. The data of any other
event do not matter.
-/

set_option autoImplicit false

namespace SpeechRelay.Link

/-- What a text message brings. -/
inductive Envelope where
  | audio (bytes : List UInt8)
  /-- Another event of that name. -/
  | other (event : String)
  deriving DecidableEq

namespace Envelope

/-- The shape of a text message. -/
def shape : Json.Shape := ⟨"InboundEnvelope", [⟨"event", .text⟩, ⟨"data", .any⟩]⟩

/-- The byte that a value is. -/
def byte? : Json → Option UInt8
  | .number (.integer i) => if 0 ≤ i ∧ i ≤ 255 then some (UInt8.ofNat i.toNat) else none
  | _ => none

/-- The bytes that a value is a list of. -/
def byteList? : Json → Option (List UInt8)
  | .list items => items.mapM byte?
  | _ => none

/-- The bytes that the data of an audio event hold. -/
def payload? : Json → Option (List UInt8)
  | .object members => (Json.member? "data" members).bind byteList?
  | v => byteList? v

/-- What a text message brings, where `audioEvent` is the name of the audio event. -/
def decode (audioEvent text : String) : Except Json.ReadError Envelope :=
  match shape.ofText text with
  | .error problem => .error problem
  | .ok [.text event, data] =>
    if event = audioEvent then
      match payload? data with
      | some bytes => .ok (.audio bytes)
      | none => .error (.noVariant "AudioPayload")
    else .ok (.other event)
  | .ok _ => .error (.wrongLength 0 shape.describeLength)

end Envelope

end SpeechRelay.Link
