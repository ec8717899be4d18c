import SpeechRelay.Proofs.Json.Writing
import SpeechRelay.Proofs.Link.Envelopes
import SpeechRelay.Proofs.Transcript.Identifiers
import SpeechRelay.Transcript.Basic

/-!
# Frames read back

A transcript is sent to the gateway as a frame. By the rules by which the relay reads what it gets,
the frame is the object that it was written from, whatever characters the name of the event and the
text have (`ofText_frame`). It is an envelope too (`written_frame`), but its data are no bytes: a
gateway that sends frames back brings no audio with them (`frame_reads_back`).
-/

set_option autoImplicit false

namespace SpeechRelay.Transcript

open Link (Envelope)

variable (event : String) (t : Transcript)

/-! ## The data -/

/-- The data of a frame are derived as an object. -/
theorem derives_data (d : Nat) :
    Json.Derives (d + 1) (.value (.object t.members)) (Json.write (.object t.members)) := by
  apply Json.derives_object
  intro m hmem
  simp only [members, List.mem_cons, List.not_mem_nil, or_false] at hmem
  rcases hmem with rfl | rfl | rfl <;> apply Json.derives_text

/-- The data of a frame are written without control characters. -/
theorem plain_data : Json.Plain (Json.write (.object t.members)) := by
  apply Json.plain_object
  intro m hmem
  simp only [members, List.mem_cons, List.not_mem_nil, or_false] at hmem
  rcases hmem with rfl | rfl | rfl <;> apply Json.plain_text

/-- The data of a transcript are not the bytes of any audio. -/
theorem payload?_data : Envelope.payload? (.object t.members) = none := by
  simp [Envelope.payload?, members, Json.member?]

/-! ## The frame -/

/-- A frame is written without control characters. -/
theorem plain_frame : Json.Plain (t.frame event).toList := by
  unfold frame envelope Json.render
  rw [String.toList_ofList]
  apply Json.plain_object
  intro m hmem
  simp only [List.mem_cons, List.not_mem_nil, or_false] at hmem
  rcases hmem with rfl | rfl
  · exact Json.plain_text event
  · exact t.plain_data

/-- A frame is read as what it was written from. -/
theorem ofText_frame : Json.ofText (t.frame event) = .ok (t.envelope event) := by
  rw [Json.ofText_eq_ok_iff]
  unfold frame envelope Json.render
  rw [String.toList_ofList]
  apply Json.derives_object
  intro m hmem
  simp only [List.mem_cons, List.not_mem_nil, or_false] at hmem
  rcases hmem with rfl | rfl
  · exact Json.derives_text _ event
  · exact t.derives_data _

/-- It is an envelope of its event, with the transcript as its data. -/
theorem written_frame :
    Envelope.Written event (some (.object t.members)) (t.frame event).toList := by
  unfold frame envelope Json.render
  rw [String.toList_ofList]
  exact Envelope.written_object event (t.derives_data _)

/-- A frame that comes back is an envelope of its event, with data that are no audio. -/
theorem decode_frame (audioEvent : String) :
    Envelope.decode audioEvent (t.frame event) =
      if event = audioEvent then .error (.noVariant "AudioPayload") else .ok (.other event) := by
  rw [Envelope.decode_of_written (written_frame event t), Option.getD_some, payload?_data]

/-- Whatever the name of the event and the text of the transcript are: the frame has no control
characters, and it is read as an object of the event and the data, which are the identifier in its
one form, the text and the time. The time since the transcript before is not in it. A relay that
gets the frame passes it over as another event; if its audio event has that name, it is an error. -/
theorem frame_reads_back :
    Json.Plain (t.frame event).toList ∧
    (∃ id, t.id.Canonical id ∧
      Json.ofText (t.frame event) =
        .ok (.object [("event", .text event),
          ("data", .object [("id", .text (String.ofList id)), ("text", .text t.text),
            ("timestamp", .text (t.timestamp.render .letter))])])) ∧
    (∀ milliseconds, { t with sinceLastMs := milliseconds }.frame event = t.frame event) ∧
    ∀ audioEvent, Envelope.decode audioEvent (t.frame event) =
      if event = audioEvent then .error (.noVariant "AudioPayload") else .ok (.other event) := by
  refine ⟨plain_frame event t, ⟨t.id.write, t.id.canonical_write, ofText_frame event t⟩, ?_,
    decode_frame event t⟩
  intro milliseconds
  rfl

end SpeechRelay.Transcript
