import SpeechRelay.Link.Envelope
import SpeechRelay.Proofs.Json.Records
import SpeechRelay.Proofs.Json.Writing

/-!
# The wire format of envelopes

An envelope is written as an object with the members `event` and `data`, once each and in any order,
between members of other names, or as the list of the two (`Envelope.Written`); the data may be left
out. The data of the audio event are the list of its bytes, or an object whose last member `data` is
this list (`Envelope.Payload`).

`decode` accepts this format and no other text (`decode_exact`). The grammar of the records of its
shape is the format (`written_of_derives`, `derives_of_written`); what is left is which values are
bytes.
-/

set_option autoImplicit false

namespace SpeechRelay.Link.Envelope

open Json (Blank Quoted)

/-! ## The format -/

/-- An envelope of that event with these data, or without data, with blanks around it. The envelope
is a container itself, so that one less may be open within its data than else. -/
inductive Written (event : String) : Option Json → List Char → Prop where
  | object {data : Option Json} {got : List (String × Json)} {a cs b : List Char} (ha : Blank a)
      (h : shape.Members got cs)
      (hgot : got.Perm (("event", .text event) :: (data.map (Prod.mk "data")).toList))
      (hb : Blank b) : Written event data (a ++ '\x7b' :: (cs ++ '\x7d' :: b))
  | single {a cs b : List Char} (ha : Blank a) (h : Quoted event cs) (hb : Blank b) :
      Written event none (a ++ '[' :: (cs ++ ']' :: b))
  | pair {data : Json} {a cs cs' b : List Char} (ha : Blank a) (h : Quoted event cs)
      (hdata : Json.Derives (Json.depthLimit - 2) (.value data) cs') (hb : Blank b) :
      Written event (some data) (a ++ '[' :: ((cs ++ ',' :: cs') ++ ']' :: b))

/-- Bytes as a list of numbers. -/
def ofBytes (bytes : List UInt8) : Json :=
  .list (bytes.map fun b => .number (.integer b.toNat))

/-- Data that bring bytes: their list, or an object with it as its last member of that name. -/
inductive Payload (bytes : List UInt8) : Json → Prop where
  | plain : Payload bytes (ofBytes bytes)
  | wrapped {before after : List (String × Json)} (h : "data" ∉ after.map Prod.fst) :
      Payload bytes (.object (before ++ ("data", ofBytes bytes) :: after))

/-- What is written for an object of an event and its data is an envelope, if the data are written
as the grammar has it. -/
theorem written_object (event : String) {data : Json}
    (hdata : Json.Derives (Json.roomInRecord - 1) (.value data) (Json.write data)) :
    Written event (some data) (Json.write (.object [("event", .text event), ("data", data)])) := by
  have hevent : shape.field? "event" = some ⟨"event", .text⟩ := by
    simp [shape, Json.Shape.field?]
  have hfield : shape.field? "data" = some ⟨"data", .any⟩ := by
    simp [shape, Json.Shape.field?]
  have hfirst : shape.Member [("event", .text event)] _ :=
    .field (Json.quoted_encode "event") hevent (.text (Json.quoted_encode event))
  have hsecond : shape.Member [("data", data)] _ :=
    .field (Json.quoted_encode "data") hfield (.any hdata)
  have hmembers := Json.Shape.Members.more hfirst (.last hsecond)
  have hgot : ([("event", Json.text event)] ++ [("data", data)]).Perm
      (("event", .text event) :: ((some data).map (Prod.mk "data")).toList) := List.Perm.refl _
  have hwritten := Written.object .nil hmembers hgot .nil
  simpa [Json.write, Json.writeMember, Json.writeMembers] using hwritten

/-! ## Payloads -/

/-- A byte is an integer of its value. -/
theorem byte?_eq_some_iff {v : Json} {b : UInt8} :
    byte? v = some b ↔ v = .number (.integer b.toNat) := by
  unfold byte?
  split
  · next i =>
    have hlt := b.toNat_lt
    by_cases hrange : 0 ≤ i ∧ i ≤ 255
    · rw [if_pos hrange]
      constructor
      · intro h
        obtain rfl := Option.some.inj h
        have hi : i = ((UInt8.ofNat i.toNat).toNat : Int) := by
          rw [UInt8.toNat_ofNat']
          omega
        rw [← hi]
      · intro h
        cases h
        rw [Int.toNat_natCast, UInt8.ofNat_toNat]
    · rw [if_neg hrange]
      constructor
      · intro h
        cases h
      · intro h
        cases h
        exact absurd ⟨Int.natCast_nonneg _, by omega⟩ hrange
  · next hother =>
    constructor
    · intro h
      cases h
    · rintro rfl
      exact absurd rfl (hother _)

/-- Bytes are the list of their numbers. -/
theorem byteList?_eq_some_iff {v : Json} {bytes : List UInt8} :
    byteList? v = some bytes ↔ v = ofBytes bytes := by
  have hitems (items : List Json) : items.mapM byte? = some bytes ↔
      items = bytes.map fun b => .number (.integer b.toNat) := by
    induction items generalizing bytes with
    | nil => cases bytes <;> simp
    | cons v items ih =>
      simp only [List.mapM_cons, Option.bind_eq_bind, Option.bind_eq_some_iff, Option.pure_def,
        Option.some.injEq]
      constructor
      · rintro ⟨b, hb, others, hothers, rfl⟩
        rw [List.map_cons, ← byte?_eq_some_iff.mp hb, ← ih.mp hothers]
      · intro h
        cases bytes with
        | nil => cases h
        | cons b bytes =>
          obtain ⟨hv, hitems⟩ := List.cons_eq_cons.mp h
          exact ⟨b, byte?_eq_some_iff.mpr hv, bytes, ih.mpr hitems, rfl⟩
  unfold byteList? ofBytes
  cases v with
  | list items => simpa using hitems items
  | _ => simp

/-- The values that are the payload of some bytes. -/
theorem payload?_eq_some_iff {v : Json} {bytes : List UInt8} :
    payload? v = some bytes ↔ Payload bytes v := by
  unfold payload?
  split
  · next members =>
    rw [Option.bind_eq_some_iff]
    constructor
    · rintro ⟨w, hmember, hbytes⟩
      obtain ⟨before, after, rfl, hafter⟩ := Json.member?_eq_some_iff.mp hmember
      rw [byteList?_eq_some_iff.mp hbytes]
      exact .wrapped hafter
    · intro h
      cases h with
      | @wrapped before after hafter =>
        exact ⟨_, Json.member?_eq_some_iff.mpr ⟨before, after, rfl, hafter⟩,
          byteList?_eq_some_iff.mpr rfl⟩
  · next hother =>
    rw [byteList?_eq_some_iff]
    constructor
    · rintro rfl
      exact .plain
    · intro h
      cases h with
      | plain => rfl
      | wrapped => exact absurd rfl (hother _)

/-! ## Envelopes -/

section Written

variable {event : String} {data : Option Json} {cs : List Char}

/-- An envelope has an event, which is a text, and data. -/
theorem field?_eq_some {name : String} {f : Json.Field} (h : shape.field? name = some f) :
    (name = "event" ∧ f.kind = .text) ∨ name = "data" := by
  unfold Json.Shape.field? at h
  have hmem := List.mem_of_find?_eq_some h
  have hname : f.name = name := by simpa using List.find?_some h
  simp only [shape, List.mem_cons, List.not_mem_nil, or_false] at hmem
  rcases hmem with rfl | rfl
  · exact Or.inl ⟨hname.symm, rfl⟩
  · exact Or.inr hname.symm

/-- The members that are collected are those of the two names, and an event is a text. -/
theorem eq_of_mem_members {got : List (String × Json)} (h : shape.Members got cs) {name : String}
    {v : Json} (hmem : (name, v) ∈ got) :
    (name = "event" ∧ ∃ event, v = .text event) ∨ name = "data" := by
  have hmember {new : List (String × Json)} {cs : List Char} (h : shape.Member new cs)
      (hmem : (name, v) ∈ new) : (name = "event" ∧ ∃ event, v = .text event) ∨ name = "data" := by
    cases h with
    | unknown => cases hmem
    | field _ hfield h =>
      cases List.mem_singleton.mp hmem
      rcases field?_eq_some hfield with ⟨hname, hkind⟩ | hname
      · rw [hkind] at h
        cases h with
        | text => exact Or.inl ⟨hname, _, rfl⟩
      · exact Or.inr hname
  induction h with
  | last h => exact hmember h hmem
  | more h _ ih =>
    rcases List.mem_append.mp hmem with hfirst | hrest
    · exact hmember h hfirst
    · exact ih hrest

/-- Members of one name are one where no name is repeated. -/
theorem eq_of_mem {got : List (String × Json)} (hnodup : (got.map Prod.fst).Nodup) {name : String}
    {v w : Json} (hv : (name, v) ∈ got) (hw : (name, w) ∈ got) : v = w := by
  have hfound := (Json.member?_eq_some_iff_mem hnodup).mpr hv
  rw [(Json.member?_eq_some_iff_mem hnodup).mpr hw] at hfound
  exact (Option.some.inj hfound).symm

/-- The members of an envelope, in any order. -/
theorem perm_of_members {got : List (String × Json)} (h : shape.Members got cs)
    (hnodup : (got.map Prod.fst).Nodup) (hevent : ("event", .text event) ∈ got)
    (hdata : ∀ v, data = some v ↔ ("data", v) ∈ got) :
    got.Perm (("event", .text event) :: (data.map (Prod.mk "data")).toList) := by
  have hnodup' : (("event", Json.text event) :: (data.map (Prod.mk "data")).toList).Nodup := by
    cases data <;> simp
  refine (List.perm_ext_iff_of_nodup (List.Nodup.of_map _ hnodup) hnodup').mpr fun x => ?_
  obtain ⟨name, v⟩ := x
  simp only [List.mem_cons, Option.mem_toList, Option.map_eq_some_iff]
  constructor
  · intro hmem
    rcases eq_of_mem_members h hmem with ⟨rfl, -⟩ | rfl
    · exact Or.inl (by rw [eq_of_mem hnodup hmem hevent])
    · exact Or.inr ⟨v, (hdata v).mpr hmem, rfl⟩
  · rintro (heq | ⟨w, hw, heq⟩)
    · rwa [heq]
    · rw [← heq]
      exact (hdata w).mp hw

/-- What the shape derives is an envelope as it is written. -/
theorem written_of_derives {vs : List Json} (h : shape.Derives vs cs) :
    ∃ event data, vs = [.text event, data.getD .null] ∧ Written event data cs := by
  cases h with
  | noMembers _ _ hgiven =>
    -- The event cannot be left out.
    have hfields : List.Forall₂ (Json.Given []) [⟨"event", .text⟩, ⟨"data", .any⟩] vs := hgiven
    obtain ⟨v, ws, hevent | hevent, -⟩ := List.forall₂_cons_left_iff.mp hfields
    · cases hevent
    · cases hevent.2.1
  | @object got a cs b ha h hnodup hgiven hb =>
    have hfields : List.Forall₂ (Json.Given got) [⟨"event", .text⟩, ⟨"data", .any⟩] vs := hgiven
    obtain ⟨v, ws, hv, hrest, rfl⟩ := List.forall₂_cons_left_iff.mp hfields
    obtain ⟨w, us, hw, hnil, rfl⟩ := List.forall₂_cons_left_iff.mp hrest
    obtain rfl := List.forall₂_nil_left_iff.mp hnil
    have hevent : ("event", v) ∈ got := hv.resolve_right fun hnone => by cases hnone.2.1
    obtain ⟨event, rfl⟩ : ∃ event, v = .text event := by
      rcases eq_of_mem_members h hevent with ⟨-, htext⟩ | hname
      · exact htext
      · exact absurd hname (by decide)
    rcases hw with hdata | ⟨hnone, -, rfl⟩
    · refine ⟨event, some w, rfl, .object ha h (perm_of_members h hnodup hevent fun v => ?_) hb⟩
      constructor
      · intro hsome
        cases hsome
        exact hdata
      · exact fun hmem => congrArg some (eq_of_mem hnodup hdata hmem)
    · refine ⟨event, none, rfl, .object ha h (perm_of_members h hnodup hevent fun v => ?_) hb⟩
      constructor
      · intro hsome
        cases hsome
      · exact fun hmem => absurd (List.mem_map.mpr ⟨_, hmem, rfl⟩) hnone
  | noElements _ _ hfields =>
    have hkind := hfields ⟨"event", .text⟩ List.mem_cons_self
    cases hkind
  | @list a cs b ha h hb =>
    have hfields : Json.Shape.Elements [⟨"event", .text⟩, ⟨"data", .any⟩] vs cs := h
    cases hfields with
    | last hevent _ =>
      cases hevent with
      | text hevent => exact ⟨_, none, rfl, .single ha hevent hb⟩
    | more hevent hrest =>
      cases hevent with
      | text hevent =>
        cases hrest with
        | last hdata _ =>
          cases hdata with
          | any hdata => exact ⟨_, some _, rfl, .pair ha hevent hdata hb⟩
        | more _ hnone => cases hnone

/-- An envelope as it is written is derived by the shape. -/
theorem derives_of_written (h : Written event data cs) :
    shape.Derives [.text event, data.getD .null] cs := by
  cases h with
  | @object _ got a cs b ha h hgot hb =>
    have hnames := hgot.map Prod.fst
    have hnodup : (got.map Prod.fst).Nodup := by
      rw [hnames.nodup_iff]
      cases data <;> simp
    have hevent := hgot.mem_iff.mpr List.mem_cons_self
    refine .object ha h hnodup (.cons (Or.inl hevent) (.cons ?_ .nil)) hb
    cases data with
    | some v => exact Or.inl (hgot.mem_iff.mpr (by simp))
    | none =>
      refine Or.inr ⟨fun hmem => ?_, rfl, rfl⟩
      have hname := hnames.mem_iff.mp hmem
      simp at hname
  | single ha h hb =>
    refine .list ha (.last (.text h) fun f hf => ?_) hb
    rw [List.mem_singleton.mp hf]
  | pair ha h hdata hb =>
    refine .list ha (.more (.text h) (.last (.any hdata) fun f hf => ?_)) hb
    cases hf

end Written

/-! ## What is brought -/

section Decode

variable {event audioEvent text : String} {data : Option Json}

/-- An envelope is decoded by its event, and that of audio by its payload. -/
theorem decode_of_written (h : Written event data text.toList) :
    decode audioEvent text =
      if event = audioEvent then
        match payload? (data.getD .null) with
        | some bytes => .ok (.audio bytes)
        | none => .error (.noVariant "AudioPayload")
      else .ok (.other event) := by
  have hread := Json.Shape.ofText_eq_ok_iff.mpr (derives_of_written h)
  unfold decode
  generalize shape.ofText text = read at hread ⊢
  subst hread
  rfl

/-- What is decoded is an envelope. -/
theorem written_of_decode {e : Envelope} (h : decode audioEvent text = .ok e) :
    ∃ event data, Written event data text.toList := by
  unfold decode at h
  cases hread : shape.ofText text with
  | error problem =>
    rw [hread] at h
    cases h
  | ok vs =>
    obtain ⟨event, data, -, hwritten⟩ :=
      written_of_derives (Json.Shape.ofText_eq_ok_iff.mp hread)
    exact ⟨event, data, hwritten⟩

/-- Audio is decoded just from envelopes of its event with a payload. -/
theorem decode_eq_audio_iff {bytes : List UInt8} :
    decode audioEvent text = .ok (.audio bytes) ↔
      ∃ data, Written audioEvent (some data) text.toList ∧ Payload bytes data := by
  constructor
  · intro h
    obtain ⟨event, data, hwritten⟩ := written_of_decode h
    rw [decode_of_written hwritten] at h
    split at h
    · next hevent =>
      subst hevent
      split at h
      · next found hpayload =>
        cases h
        cases data with
        | none => cases hpayload
        | some data => exact ⟨data, hwritten, payload?_eq_some_iff.mp hpayload⟩
      · cases h
    · cases h
  · rintro ⟨data, hwritten, hpayload⟩
    rw [decode_of_written hwritten, if_pos rfl, Option.getD_some,
      payload?_eq_some_iff.mpr hpayload]

/-- Another event is decoded just from its own envelopes, whatever data they have. -/
theorem decode_eq_other_iff :
    decode audioEvent text = .ok (.other event) ↔
      event ≠ audioEvent ∧ ∃ data, Written event data text.toList := by
  constructor
  · intro h
    obtain ⟨written, data, hwritten⟩ := written_of_decode h
    rw [decode_of_written hwritten] at h
    split at h
    · split at h <;> cases h
    · next hevent =>
      cases h
      exact ⟨hevent, data, hwritten⟩
  · rintro ⟨hevent, data, hwritten⟩
    rw [decode_of_written hwritten, if_neg hevent]

/-- A text brings audio bytes if and only if it is an envelope of the audio event whose data are
their payload. It is passed over if and only if it is an envelope of another event, with any data or
none. Every other text is an error. -/
theorem decode_exact (audioEvent text : String) :
    (∀ bytes, decode audioEvent text = .ok (.audio bytes) ↔
      ∃ data, Written audioEvent (some data) text.toList ∧ Payload bytes data) ∧
    (∀ event, decode audioEvent text = .ok (.other event) ↔
      event ≠ audioEvent ∧ ∃ data, Written event data text.toList) ∧
    ((∃ problem, decode audioEvent text = .error problem) ↔
      (¬ ∃ bytes data, Written audioEvent (some data) text.toList ∧ Payload bytes data) ∧
      ¬ ∃ event data, event ≠ audioEvent ∧ Written event data text.toList) := by
  refine ⟨fun _ => decode_eq_audio_iff, fun _ => decode_eq_other_iff, ?_⟩
  constructor
  · rintro ⟨problem, h⟩
    refine ⟨?_, ?_⟩
    · rintro ⟨bytes, hbytes⟩
      rw [decode_eq_audio_iff.mpr hbytes] at h
      cases h
    · rintro ⟨event, data, hevent, hwritten⟩
      rw [decode_eq_other_iff.mpr ⟨hevent, data, hwritten⟩] at h
      cases h
  · rintro ⟨haudio, hother⟩
    cases h : decode audioEvent text with
    | error problem => exact ⟨problem, rfl⟩
    | ok e =>
      cases e with
      | audio bytes => exact absurd ⟨bytes, decode_eq_audio_iff.mp h⟩ haudio
      | other event =>
        obtain ⟨hevent, data, hwritten⟩ := decode_eq_other_iff.mp h
        exact absurd ⟨event, data, hevent, hwritten⟩ hother

/-- A name with an escape, a number beyond all doubles in a member that is passed over, and bytes in
an object. -/
example : (decode "audio" ("\x7b\"data\": \x7b\"type\": \"Buffer\", \"data\": [0, 255]\x7d, " ++
    "\"n\": [1e999], \"\\u0065vent\": \"audio\"\x7d")).toOption = some (.audio [0, 255]) := by
  decide +kernel

end Decode

end SpeechRelay.Link.Envelope
