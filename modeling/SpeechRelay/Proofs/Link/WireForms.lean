import SpeechRelay.Journal
import SpeechRelay.Link.Message
import SpeechRelay.Proofs.Link.Envelopes

/-!
# Forms on the wire

A chunk of audio has more than one form on the wire: the bytes of a binary message, or a text message
with an envelope of the audio event, whose data are the list of the bytes or an object around this
list. Which bytes a message brings is given by the format (`Message.Brings`), and the client finds
just these (`Message.chunk?_eq_some_iff`). Every chunk can be written in each of the forms
(`Message.brings_list`, `Message.brings_buffer`).

`Reworded` relates two sequences of messages that say the same: chunks may have other forms, and
messages that say nothing may stand anywhere.
-/

set_option autoImplicit false

namespace SpeechRelay.Link

namespace Message

/-- The bytes that the client finds in a message, if it finds any. -/
def chunk? (audioEvent : String) : Message → Option (List UInt8)
  | .binary bytes => some bytes
  | .text body =>
    match Envelope.decode audioEvent body with
    | .ok (.audio bytes) => some bytes
    | _ => none
  | .close _ | .keepAlive => none

/-- What is noted about a message that is heard. -/
def notes (audioEvent : String) : Message → Journal
  | .text body =>
    match Envelope.decode audioEvent body with
    | .ok (.audio _) => []
    | .ok (.other event) => [.eventIgnored event]
    | .error why => [.messageUnreadable why]
  | _ => []

/-- Whether a message closes the session. -/
def isClose : Message → Bool
  | .close _ => true
  | _ => false

/-- A message that brings those bytes, in one of the forms. -/
inductive Brings (audioEvent : String) (bytes : List UInt8) : Message → Prop where
  | binary : Brings audioEvent bytes (.binary bytes)
  | envelope {body : String} {data : Json}
      (h : Envelope.Written audioEvent (some data) body.toList)
      (hdata : Envelope.Payload bytes data) : Brings audioEvent bytes (.text body)

/-- A message that keeps the link alive, an envelope of another event, or a text that is no envelope
at all. -/
inductive Silent (audioEvent : String) : Message → Prop where
  | keepAlive : Silent audioEvent .keepAlive
  | text {body : String} (h : ∀ bytes, ¬ Brings audioEvent bytes (.text body)) :
      Silent audioEvent (.text body)

section Forms

variable {audioEvent : String} {bytes : List UInt8} {m : Message}

/-- A text brings a chunk just if it is decoded as audio. -/
theorem chunk?_text_eq_some_iff {body : String} :
    (Message.text body).chunk? audioEvent = some bytes ↔
      Envelope.decode audioEvent body = .ok (.audio bytes) := by
  simp only [chunk?]
  cases Envelope.decode audioEvent body with
  | error why => constructor <;> intro h <;> cases h
  | ok e =>
    cases e with
    | audio found => constructor <;> intro h <;> cases h <;> rfl
    | other event => constructor <;> intro h <;> cases h

/-- The client finds a chunk just in the messages that bring it. -/
theorem chunk?_eq_some_iff : m.chunk? audioEvent = some bytes ↔ m.Brings audioEvent bytes := by
  cases m with
  | binary found =>
    constructor
    · intro h
      cases h
      exact .binary
    · intro h
      cases h
      rfl
  | text body =>
    rw [chunk?_text_eq_some_iff, Envelope.decode_eq_audio_iff]
    constructor
    · rintro ⟨data, h, hdata⟩
      exact .envelope h hdata
    · intro h
      cases h with
      | envelope h hdata => exact ⟨_, h, hdata⟩
  | close goodbye => constructor <;> intro h <;> cases h
  | keepAlive => constructor <;> intro h <;> cases h

/-- Silent are just the messages without a chunk that do not close the session. -/
theorem silent_iff :
    m.Silent audioEvent ↔ m.chunk? audioEvent = none ∧ m.isClose = false := by
  constructor
  · intro h
    cases h with
    | keepAlive => exact ⟨rfl, rfl⟩
    | text h =>
      refine ⟨Option.eq_none_iff_forall_ne_some.mpr fun bytes hsome => ?_, rfl⟩
      exact h bytes (chunk?_eq_some_iff.mp hsome)
  · rintro ⟨hnone, hopen⟩
    cases m with
    | binary bytes => cases hnone
    | text body =>
      refine .text fun bytes hbrings => ?_
      rw [chunk?_eq_some_iff.mpr hbrings] at hnone
      cases hnone
    | close goodbye => cases hopen
    | keepAlive => exact .keepAlive

end Forms

/-! ## Each form can be written -/

/-- The object that a buffer is written as. -/
def bufferData (bytes : List UInt8) : Json :=
  .object [("type", .text "Buffer"), ("data", Envelope.ofBytes bytes)]

/-- The text of an envelope of the audio event with the list of the bytes. -/
def ofList (audioEvent : String) (bytes : List UInt8) : Message :=
  .text (Json.render (.object [("event", .text audioEvent), ("data", Envelope.ofBytes bytes)]))

/-- The same with the object around the list. -/
def ofBuffer (audioEvent : String) (bytes : List UInt8) : Message :=
  .text (Json.render (.object [("event", .text audioEvent), ("data", bufferData bytes)]))

/-- A list of bytes is derived as it is written. -/
theorem derives_ofBytes (d : Nat) (bytes : List UInt8) :
    Json.Derives (d + 1) (.value (Envelope.ofBytes bytes))
      (Json.write (Envelope.ofBytes bytes)) := by
  apply Json.derives_list
  intro v hmem
  obtain ⟨byte, -, rfl⟩ := List.mem_map.mp hmem
  exact Json.derives_natural d (Nat.lt_trans byte.toNat_lt (by decide))

/-- The envelope with the list of bytes brings them. -/
theorem brings_list (audioEvent : String) (bytes : List UInt8) :
    (ofList audioEvent bytes).Brings audioEvent bytes := by
  refine .envelope ?_ .plain
  unfold Json.render
  rw [String.toList_ofList]
  exact Envelope.written_object audioEvent (derives_ofBytes _ bytes)

/-- The envelope with the object around the list brings the bytes too. -/
theorem brings_buffer (audioEvent : String) (bytes : List UInt8) :
    (ofBuffer audioEvent bytes).Brings audioEvent bytes := by
  have hdata : Json.Derives (Json.roomInRecord - 1) (.value (bufferData bytes))
      (Json.write (bufferData bytes)) := by
    apply Json.derives_object
    intro m hmem
    simp only [List.mem_cons, List.not_mem_nil, or_false] at hmem
    rcases hmem with rfl | rfl
    · exact Json.derives_text _ "Buffer"
    · exact derives_ofBytes _ bytes
  have hpayload : Envelope.Payload bytes
      (.object ([("type", .text "Buffer")] ++ ("data", Envelope.ofBytes bytes) :: [])) :=
    .wrapped (by simp)
  refine .envelope ?_ hpayload
  unfold Json.render
  rw [String.toList_ofList]
  exact Envelope.written_object audioEvent hdata

end Message

/-! ## Sequences that say the same -/

/-- Two sequences of messages that are the same but for the forms of their chunks and for messages
that say nothing. -/
inductive Reworded (audioEvent : String) : List Message → List Message → Prop where
  | nil : Reworded audioEvent [] []
  | same {ms ms' : List Message} (m : Message) (h : Reworded audioEvent ms ms') :
      Reworded audioEvent (m :: ms) (m :: ms')
  | form {m m' : Message} {bytes : List UInt8} {ms ms' : List Message}
      (hm : m.Brings audioEvent bytes) (hm' : m'.Brings audioEvent bytes)
      (h : Reworded audioEvent ms ms') : Reworded audioEvent (m :: ms) (m' :: ms')
  | omitted {m : Message} {ms ms' : List Message} (hm : m.Silent audioEvent)
      (h : Reworded audioEvent ms ms') : Reworded audioEvent (m :: ms) ms'
  | inserted {m : Message} {ms ms' : List Message} (hm : m.Silent audioEvent)
      (h : Reworded audioEvent ms ms') : Reworded audioEvent ms (m :: ms')

end SpeechRelay.Link
