import SpeechRelay.Proofs.Calendar.Stamps
import SpeechRelay.Proofs.Link.Frames

/-!
# Timestamps of transcripts

The timestamp in the frame of a transcript and the one in the transcript on its own are one text,
and this text is read back as the instant at which the transcript was made, to the nanosecond and
also in a leap second (`timestamps_faithful`). So transcripts made at different instants have
different timestamps.
-/

set_option autoImplicit false

namespace SpeechRelay

/-- The text that is found in a value along a path of names. -/
def Json.textAt? : List String → Json → Option String
  | [], .text s => some s
  | name :: path, .object ms => (member? name ms).bind (textAt? path)
  | _, _ => none

namespace Transcript

/-- The timestamp in the data of a frame. -/
def stampOfFrame? (frame : String) : Option String :=
  (Json.ofText frame).toOption.bind (Json.textAt? ["data", "timestamp"])

/-- The timestamp of a transcript on its own. -/
def stampOfRecord? (record : String) : Option String :=
  (Json.ofText record).toOption.bind (Json.textAt? ["timestamp"])

/-- A transcript on its own is read as what it was written from. -/
theorem ofText_record (t : Transcript) : Json.ofText t.toJson.render = .ok t.toJson := by
  rw [Json.ofText_eq_ok_iff]
  unfold toJson Json.render
  rw [String.toList_ofList]
  apply Json.derives_object
  intro m hmem
  simp only [members, List.mem_append, List.mem_cons, List.not_mem_nil, or_false] at hmem
  rcases hmem with (rfl | rfl | rfl) | rfl
  · apply Json.derives_text
  · apply Json.derives_text
  · apply Json.derives_text
  · exact Json.derives_natural _ t.sinceLastMs.toNat_lt

/-- The timestamp that is found in a frame is that of its transcript. -/
theorem stampOfFrame?_frame (event : String) (t : Transcript) :
    stampOfFrame? (t.frame event) = some (t.timestamp.render .letter) := by
  rw [stampOfFrame?, ofText_frame]
  simp [Except.toOption, envelope, members, Json.textAt?, Json.member?]

/-- The timestamp that is found in a transcript on its own is that of the transcript. -/
theorem stampOfRecord?_render (t : Transcript) :
    stampOfRecord? t.toJson.render = some (t.timestamp.render .letter) := by
  rw [stampOfRecord?, ofText_record]
  simp [Except.toOption, toJson, members, Json.textAt?, Json.member?]

/-- The frame of a transcript and the transcript on its own have the same timestamp. It is read back
as the instant of the transcript, and no transcript of another instant has it, in whichever form. -/
theorem timestamps_faithful (event : String) (t : Transcript) (h : t.timestamp.Proper) :
    ∃ stamp, stampOfFrame? (t.frame event) = some stamp ∧
      stampOfRecord? t.toJson.render = some stamp ∧
      Calendar.Instant.ofText? stamp = some t.timestamp ∧
      ∀ (event' : String) (u : Transcript), u.timestamp.Proper →
        stampOfFrame? (u.frame event') = some stamp ∨ stampOfRecord? u.toJson.render = some stamp →
        u.timestamp = t.timestamp := by
  have hread := Calendar.Instant.ofText?_render h .letter
  refine ⟨_, stampOfFrame?_frame event t, stampOfRecord?_render t, hread, ?_⟩
  intro event' u hu hstamp
  rw [stampOfFrame?_frame, stampOfRecord?_render, or_self, Option.some.injEq] at hstamp
  have hread' := Calendar.Instant.ofText?_render hu .letter
  rw [hstamp, hread] at hread'
  exact (Option.some.inj hread').symm

/-- The middle of a leap second at the end of the year before the year 0. -/
theorem timestamps_faithful_leap :
    let t : Transcript := ⟨⟨0⟩, "oui", ⟨-62167219201, 1500000000⟩, 0⟩
    t.timestamp.Proper ∧
      stampOfFrame? (t.frame "transcript") = some "-0001-12-31T23:59:60.500Z" ∧
      stampOfRecord? t.toJson.render = some "-0001-12-31T23:59:60.500Z" ∧
      Calendar.Instant.ofText? "-0001-12-31T23:59:60.500Z" = some t.timestamp := by
  intro t
  have hproper : t.timestamp.Proper := Or.inr ⟨by decide, by decide⟩
  have hwritten : t.timestamp.render .letter = "-0001-12-31T23:59:60.500Z" := by decide +kernel
  obtain ⟨stamp, hframe, hrecord, hread, -⟩ := timestamps_faithful "transcript" t hproper
  obtain rfl : stamp = "-0001-12-31T23:59:60.500Z" := by
    rw [stampOfFrame?_frame, hwritten] at hframe
    exact (Option.some.inj hframe).symm
  exact ⟨hproper, hframe, hrecord, hread⟩

end Transcript

end SpeechRelay
