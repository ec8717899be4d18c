import SpeechRelay.Proofs.Feeder.Counting
import SpeechRelay.Proofs.Intake.Events
import SpeechRelay.Proofs.Link.WireForms
import SpeechRelay.Proofs.Relay.Basic

/-!
# What a session takes in

During a session the client hears the messages of the gateway one after the other, up to the first
goodbye. What it reports takes effect before it hears the next message: `receiveAll`.

A message that brings bytes adds them to the buffer and is counted, a silent one is only noted, and a
goodbye ends the session. So the messages before the goodbye come to the concatenation of the chunks
in them, in whichever forms these are (`receiveAll_heard`), and sequences that say the same come to
the same (`sameEnd_of_reworded`).
-/

set_option autoImplicit false

namespace SpeechRelay

open Audio

/-! ## Messages heard in a session -/

namespace Relay

/-- A client that hears messages while nothing else happens: the client and the pipeline after them,
and the messages that were not heard. -/
def receiveAll (s : Link.Setup) (clearOnDisconnect : Bool) (c : Link.Client) (p : Pipeline) :
    List Link.Message → Except Halt (Link.Client × Pipeline × List Link.Message)
  | [] => .ok (c, p, [])
  | m :: ms =>
    match c.step s (.received m) with
    | none => .ok (c, p, m :: ms)
    | some (c, seen) =>
      match Intake.runAll p (effects clearOnDisconnect seen) with
      | .error halt => .error halt
      | .ok p => receiveAll s clearOnDisconnect c p ms

/-- Notes take effect at once and do nothing else. -/
theorem runAll_notes (clearOnDisconnect : Bool) (p : Pipeline) (entries : Journal) :
    Intake.runAll p (effects clearOnDisconnect (entries.map .note)) = .ok (p.note entries) := by
  induction entries generalizing p with
  | nil =>
    show Except.ok p = .ok (p.note [])
    rw [Pipeline.note, List.append_nil]
  | cons entry entries ih =>
    have hnotes : (p.note [entry]).note entries = p.note (entry :: entries) := by
      simp [Pipeline.note]
    rw [← hnotes]
    exact ih (p.note [entry])

section Receive

variable {s : Link.Setup} {clearOnDisconnect : Bool} {c : Link.Client} (hc : c.phase = .session)
  (p : Pipeline) {m : Link.Message} (ms : List Link.Message)

include hc

/-- In a session every message is heard. -/
theorem step_received (s : Link.Setup) (m : Link.Message) :
    c.step s (.received m) = some (c.onMessage s m) := by
  simp [Link.Client.step, Link.Client.stepOwn, hc]

/-- Bytes are handled as audio. -/
theorem receiveAll_chunk {bytes : List UInt8} (h : m.chunk? s.audioEvent = some bytes) :
    receiveAll s clearOnDisconnect c p (m :: ms) =
      match Intake.handle clearOnDisconnect p (.audio bytes) with
      | .error halt => .error halt
      | .ok p => receiveAll s clearOnDisconnect c p ms := by
  have hmessage : c.onMessage s m = (c, [.report (.audio bytes)]) := by
    cases m with
    | binary found =>
      cases h
      rfl
    | text body =>
      have hdecode := Link.Message.chunk?_text_eq_some_iff.mp h
      simp only [Link.Client.onMessage, Link.Client.onText, hdecode]
    | close goodbye => cases h
    | keepAlive => cases h
  rw [receiveAll, step_received hc s m, hmessage]
  rfl

/-- A silent message is at most noted. -/
theorem receiveAll_silent (h : m.Silent s.audioEvent) :
    receiveAll s clearOnDisconnect c p (m :: ms) =
      receiveAll s clearOnDisconnect c (p.note (m.notes s.audioEvent)) ms := by
  obtain ⟨hnone, hopen⟩ := Link.Message.silent_iff.mp h
  have hmessage : c.onMessage s m = (c, (m.notes s.audioEvent).map .note) := by
    cases m with
    | binary bytes => cases hnone
    | text body =>
      simp only [Link.Message.chunk?] at hnone
      simp only [Link.Client.onMessage, Link.Client.onText, Link.Message.notes]
      cases hdecode : Link.Envelope.decode s.audioEvent body with
      | error why => rfl
      | ok e =>
        cases e with
        | audio bytes =>
          rw [hdecode] at hnone
          cases hnone
        | other event => rfl
    | close goodbye => cases hopen
    | keepAlive => rfl
  rw [receiveAll, step_received hc s m, hmessage]
  dsimp only
  rw [runAll_notes]

/-- A goodbye ends the session, and what follows it is not heard. -/
theorem receiveAll_close (goodbye : Option Link.Goodbye) :
    receiveAll s clearOnDisconnect c p (.close goodbye :: ms) =
      (Intake.handle clearOnDisconnect p (.disconnected (Link.closeReason goodbye))).map
        fun p => (c.enter .pausing, p, ms) := by
  have hdeaf (p : Pipeline) :
      receiveAll s clearOnDisconnect (c.enter .pausing) p ms = .ok (c.enter .pausing, p, ms) := by
    cases ms with
    | nil => rfl
    | cons m ms =>
      have hnone : (c.enter .pausing).step s (.received m) = none := rfl
      rw [receiveAll, hnone]
  have heffects : effects clearOnDisconnect
      [.report (.disconnected (Link.closeReason goodbye))] =
        Intake.effects clearOnDisconnect (.disconnected (Link.closeReason goodbye)) := by
    simp [effects]
  rw [receiveAll, step_received hc s (.close goodbye)]
  dsimp only [Link.Client.onMessage, Link.Client.lose]
  rw [heffects, Intake.handle]
  cases Intake.runAll p
      (Intake.effects clearOnDisconnect (.disconnected (Link.closeReason goodbye))) with
  | error halt => rfl
  | ok p => exact hdeaf p

end Receive

/-! ## The chunks before a goodbye -/

end Relay

/-- The counters have room for chunks. -/
def Counters.RoomFor (c : Counters) (chunks : List (List UInt8)) : Prop :=
  chunks = [] ∨ c.bytesIngested + chunks.flatten.length < Machine.wordSize ∧
    c.chunksIngested + chunks.length < Machine.wordSize

instance (c : Counters) (chunks : List (List UInt8)) : Decidable (c.RoomFor chunks) :=
  inferInstanceAs (Decidable (_ ∨ _ ∧ _))

/-- The counters after chunks. -/
def Counters.withChunks (c : Counters) (chunks : List (List UInt8)) : Counters :=
  { c with
    bytesIngested := c.bytesIngested + chunks.flatten.length
    chunksIngested := c.chunksIngested + chunks.length }

/-- The pipeline after messages without a goodbye among them. -/
def Pipeline.afterMessages (audioEvent : String) (p : Pipeline) (ms : List Link.Message) :
    Pipeline where
  buffer := p.buffer.append (ms.filterMap (·.chunk? audioEvent)).flatten
  counters := p.counters.withChunks (ms.filterMap (·.chunk? audioEvent))
  journal := p.journal ++ ms.flatMap (·.notes audioEvent)

section Chunks

variable {c : Counters}

/-- A chunk is counted if there is room for it, and else counting halts. -/
theorem Counters.ingest_cases (c : Counters) (bytes : Nat) :
    (c.bytesIngested + bytes < Machine.wordSize ∧ c.chunksIngested + 1 < Machine.wordSize ∧
      c.record (.ingested bytes) = .ok (c.counted (.ingested bytes))) ∨
    (¬ (c.bytesIngested + bytes < Machine.wordSize ∧ c.chunksIngested + 1 < Machine.wordSize) ∧
      c.record (.ingested bytes) = .error .overflow) := by
  have hrecord : c.record (.ingested bytes) = c.ingest bytes := rfl
  rw [hrecord, ingest]
  by_cases hbytes : c.bytesIngested + bytes < Machine.wordSize
  · rw [word_bind_of_lt hbytes]
    by_cases hchunks : c.chunksIngested + 1 < Machine.wordSize
    · rw [word_bind_of_lt hchunks]
      exact .inl ⟨hbytes, hchunks, rfl⟩
    · have hfull : Machine.word (c.chunksIngested + 1) = .error .overflow := if_neg hchunks
      rw [hfull]
      exact .inr ⟨fun h => hchunks h.2, rfl⟩
  · have hfull : Machine.word (c.bytesIngested + bytes) = .error .overflow := if_neg hbytes
    rw [hfull]
    exact .inr ⟨fun h => hbytes h.1, rfl⟩

/-- There is room for chunks just if there is for the first one, and then for the others. -/
theorem Counters.roomFor_cons (bytes : List UInt8) (chunks : List (List UInt8)) :
    c.RoomFor (bytes :: chunks) ↔ (c.bytesIngested + bytes.length < Machine.wordSize ∧
      c.chunksIngested + 1 < Machine.wordSize) ∧
        (c.counted (.ingested bytes.length)).RoomFor chunks := by
  cases chunks with
  | nil => simp [RoomFor]
  | cons next chunks =>
    simp only [RoomFor, counted, List.flatten_cons, List.length_append, List.length_cons,
      reduceCtorEq, false_or]
    omega

/-- Chunks are counted one after the other. -/
theorem Counters.withChunks_cons (bytes : List UInt8) (chunks : List (List UInt8)) :
    c.withChunks (bytes :: chunks) = (c.counted (.ingested bytes.length)).withChunks chunks := by
  simp only [withChunks, counted, List.flatten_cons, List.length_append, List.length_cons,
    Nat.add_assoc, Nat.add_comm 1]

variable {audioEvent : String} {p : Pipeline} {m : Link.Message} {ms : List Link.Message}

/-- No messages change nothing. -/
theorem Pipeline.afterMessages_nil : p.afterMessages audioEvent [] = p := by
  unfold afterMessages
  rw [List.filterMap_nil, List.flatten_nil, Buffer.append_nil, List.flatMap_nil, List.append_nil]
  rfl

/-- Of a silent message there is at most a note. -/
theorem Pipeline.afterMessages_silent (h : m.Silent audioEvent) :
    p.afterMessages audioEvent (m :: ms) =
      (p.note (m.notes audioEvent)).afterMessages audioEvent ms := by
  unfold afterMessages note
  rw [List.filterMap_cons_none (Link.Message.silent_iff.mp h).1, List.flatMap_cons,
    List.append_assoc]

/-- A message with a chunk has the effect of its audio. -/
theorem Pipeline.afterMessages_chunk {bytes : List UInt8} (h : m.chunk? audioEvent = some bytes)
    (clearOnDisconnect : Bool) :
    p.afterMessages audioEvent (m :: ms) =
      (p.receive clearOnDisconnect (.audio bytes)
        (p.counters.counted (.ingested bytes.length))).afterMessages audioEvent ms := by
  have hnotes : m.notes audioEvent = [] := by
    cases m with
    | text body =>
      simp only [Link.Message.notes, Link.Message.chunk?_text_eq_some_iff.mp h]
    | _ => rfl
  unfold afterMessages
  rw [List.filterMap_cons_some h, Counters.withChunks_cons, List.flatMap_cons, hnotes]
  simp [receive, note, InboundEvent.buffer, InboundEvent.clears, InboundEvent.audioBytes,
    InboundEvent.notes, Buffer.append]

end Chunks

namespace Relay

section Receive

variable {s : Link.Setup} (clearOnDisconnect : Bool) {c : Link.Client} (hc : c.phase = .session)

include hc

/-- Messages without a goodbye among them come to the chunks in them, or halt where these are too
many for the counters. -/
theorem receiveAll_heard (p : Pipeline) {heard : List Link.Message}
    (hheard : ∀ m ∈ heard, m.isClose = false) (tail : List Link.Message) :
    (p.counters.RoomFor (heard.filterMap (·.chunk? s.audioEvent)) →
      receiveAll s clearOnDisconnect c p (heard ++ tail) =
        receiveAll s clearOnDisconnect c (p.afterMessages s.audioEvent heard) tail) ∧
    (¬ p.counters.RoomFor (heard.filterMap (·.chunk? s.audioEvent)) →
      receiveAll s clearOnDisconnect c p (heard ++ tail) = .error .overflow) := by
  induction heard generalizing p with
  | nil =>
    rw [Pipeline.afterMessages_nil]
    exact ⟨fun _ => rfl, fun hfull => absurd (.inl rfl) hfull⟩
  | cons m heard ih =>
    have hrest (p : Pipeline) := ih p fun other hmem => hheard other (List.mem_cons_of_mem m hmem)
    rw [List.cons_append]
    cases hchunk : m.chunk? s.audioEvent with
    | none =>
      have hsilent := Link.Message.silent_iff.mpr ⟨hchunk, hheard m List.mem_cons_self⟩
      rw [receiveAll_silent hc p (heard ++ tail) hsilent, Pipeline.afterMessages_silent hsilent,
        List.filterMap_cons_none hchunk]
      exact hrest (p.note (m.notes s.audioEvent))
    | some bytes =>
      rw [receiveAll_chunk hc p (heard ++ tail) hchunk, List.filterMap_cons_some hchunk,
        Counters.roomFor_cons, Pipeline.afterMessages_chunk hchunk clearOnDisconnect,
        Intake.handle_eq]
      rcases p.counters.ingest_cases bytes.length with ⟨hbytes, hnumber, hrecord⟩ | ⟨hfull, hrecord⟩
      · rw [show (InboundEvent.audio bytes).happening = .ingested bytes.length from rfl, hrecord]
        obtain ⟨hroom, hhalts⟩ := hrest (p.receive clearOnDisconnect (.audio bytes)
          (p.counters.counted (.ingested bytes.length)))
        exact ⟨fun h => hroom h.2, fun h => hhalts fun hmore => h ⟨⟨hbytes, hnumber⟩, hmore⟩⟩
      · rw [show (InboundEvent.audio bytes).happening = .ingested bytes.length from rfl, hrecord]
        exact ⟨fun h => absurd h.1 hfull, fun _ => rfl⟩

end Receive

end Relay

/-! ## Messages that say the same -/

/-- An entry about a message that was not audio. -/
def JournalEntry.isAside : JournalEntry → Bool
  | .eventIgnored _ | .messageUnreadable _ => true
  | _ => false

/-- Pipelines that differ only in what they note about messages that were not audio. -/
structure Pipeline.Alike (p p' : Pipeline) : Prop where
  buffer : p'.buffer = p.buffer
  counters : p'.counters = p.counters
  journal : p'.journal.filter (!·.isAside) = p.journal.filter (!·.isAside)

namespace Pipeline.Alike

variable {p p' : Pipeline}

/-- A pipeline is like itself. -/
theorem refl (p : Pipeline) : Alike p p := ⟨rfl, rfl, rfl⟩

/-- What is alike is alike from either side. -/
theorem symm (h : Alike p p') : Alike p' p := ⟨h.buffer.symm, h.counters.symm, h.journal.symm⟩

/-- A note about a silent message makes no difference. -/
theorem note_silent (h : Alike p p') {audioEvent : String} {m : Link.Message}
    (hm : m.Silent audioEvent) : Alike (p.note (m.notes audioEvent)) p' := by
  have haside : (m.notes audioEvent).filter (!·.isAside) = [] := by
    cases hm with
    | keepAlive => rfl
    | @text body hnot =>
      simp only [Link.Message.notes]
      cases Link.Envelope.decode audioEvent body with
      | error why => rfl
      | ok e => cases e <;> rfl
  refine ⟨h.buffer, h.counters, ?_⟩
  rw [note, List.filter_append, haside, List.append_nil]
  exact h.journal

/-- Pipelines that are alike handle an event alike. -/
theorem handle (h : Alike p p') (clearOnDisconnect : Bool) (e : InboundEvent) :
    (∃ halt, Intake.handle clearOnDisconnect p e = .error halt ∧
      Intake.handle clearOnDisconnect p' e = .error halt) ∨
    ∃ q q', Intake.handle clearOnDisconnect p e = .ok q ∧
      Intake.handle clearOnDisconnect p' e = .ok q' ∧ Alike q q' := by
  rw [Intake.handle_eq, Intake.handle_eq, h.counters]
  cases p.counters.record e.happening with
  | error halt => exact .inl ⟨halt, rfl, rfl⟩
  | ok c =>
    refine .inr ⟨_, _, rfl, rfl, ?_, rfl, ?_⟩
    · show e.buffer clearOnDisconnect p'.buffer = e.buffer clearOnDisconnect p.buffer
      rw [h.buffer]
    · show (p'.journal ++ e.notes clearOnDisconnect p'.buffer).filter _ =
        (p.journal ++ e.notes clearOnDisconnect p.buffer).filter _
      rw [List.filter_append, List.filter_append, h.journal, h.buffer]

end Pipeline.Alike

namespace Relay

/-- Two sequences of messages come to the same end: to the same halt, or to the same client with
pipelines that are alike, and what they have left unheard says the same. -/
inductive SameEnd (audioEvent : String) :
    Except Halt (Link.Client × Pipeline × List Link.Message) →
      Except Halt (Link.Client × Pipeline × List Link.Message) → Prop where
  | halted (halt : Halt) : SameEnd audioEvent (.error halt) (.error halt)
  | ended (c : Link.Client) {p p' : Pipeline} {unheard unheard' : List Link.Message}
      (hp : p.Alike p') (h : Link.Reworded audioEvent unheard unheard') :
      SameEnd audioEvent (.ok (c, p, unheard)) (.ok (c, p', unheard'))

section Receive

variable {s : Link.Setup} {clearOnDisconnect : Bool} {c : Link.Client} (hc : c.phase = .session)
  {p p' : Pipeline}

include hc

/-- A chunk has the same effect in each of its forms. -/
theorem sameEnd_chunk (hp : p.Alike p') {m m' : Link.Message} {bytes : List UInt8}
    (hm : m.Brings s.audioEvent bytes) (hm' : m'.Brings s.audioEvent bytes)
    {ms ms' : List Link.Message}
    (h : ∀ {p p' : Pipeline}, p.Alike p' →
      SameEnd s.audioEvent (receiveAll s clearOnDisconnect c p ms)
        (receiveAll s clearOnDisconnect c p' ms')) :
    SameEnd s.audioEvent (receiveAll s clearOnDisconnect c p (m :: ms))
      (receiveAll s clearOnDisconnect c p' (m' :: ms')) := by
  rw [receiveAll_chunk hc p ms (Link.Message.chunk?_eq_some_iff.mpr hm),
    receiveAll_chunk hc p' ms' (Link.Message.chunk?_eq_some_iff.mpr hm')]
  rcases hp.handle clearOnDisconnect (.audio bytes) with
    ⟨halt, hhalt, hhalt'⟩ | ⟨q, q', hq, hq', halike⟩
  · rw [hhalt, hhalt']
    exact .halted halt
  · rw [hq, hq']
    exact h halike

/-- Sequences that are reworded come to the same end. -/
theorem sameEnd_of_reworded (hp : p.Alike p') {ms ms' : List Link.Message}
    (h : Link.Reworded s.audioEvent ms ms') :
    SameEnd s.audioEvent (receiveAll s clearOnDisconnect c p ms)
      (receiveAll s clearOnDisconnect c p' ms') := by
  induction h generalizing p p' with
  | nil => exact .ended c hp .nil
  | @same ms ms' m h ih =>
    cases hchunk : m.chunk? s.audioEvent with
    | some bytes =>
      have hm := Link.Message.chunk?_eq_some_iff.mp hchunk
      exact sameEnd_chunk hc hp hm hm fun hp => ih hp
    | none =>
      cases hopen : m.isClose with
      | false =>
        have hm := Link.Message.silent_iff.mpr ⟨hchunk, hopen⟩
        rw [receiveAll_silent hc p ms hm, receiveAll_silent hc p' ms' hm]
        exact ih (((hp.note_silent hm).symm.note_silent hm).symm)
      | true =>
        -- Both sessions end here, and the messages behind it still say the same.
        cases m with
        | close goodbye =>
          rw [receiveAll_close hc p ms goodbye, receiveAll_close hc p' ms' goodbye]
          rcases hp.handle clearOnDisconnect
              (.disconnected (Link.closeReason goodbye)) with
            ⟨halt, hhalt, hhalt'⟩ | ⟨q, q', hq, hq', halike⟩
          · rw [hhalt, hhalt']
            exact .halted halt
          · rw [hq, hq']
            exact .ended (c.enter .pausing) halike h
        | _ => cases hopen
  | form hm hm' h ih => exact sameEnd_chunk hc hp hm hm' fun hp => ih hp
  | @omitted m ms ms' hm h ih =>
    rw [receiveAll_silent hc p ms hm]
    exact ih (hp.note_silent hm)
  | @inserted m ms ms' hm h ih =>
    rw [receiveAll_silent hc p' ms' hm]
    exact ih (hp.symm.note_silent hm).symm

end Receive

/-- Whatever messages a session hears: those before the first goodbye add the concatenation of the
payloads among them to the buffer, raise the numbers of bytes and of chunks by just these, and change
no other number, unless the counters have no room for them. Then the goodbye ends the session for the
reason that it gives, and what follows it is not heard. Every payload can come as bytes, in an
envelope with the list of its bytes, or in one with the object of a buffer. Which of these is chosen,
and where messages that bring nothing stand among the others, makes no difference to the buffer, the
counters, and the end of the session. -/
theorem wire_form_independent (s : Link.Setup) (clearOnDisconnect : Bool) {c : Link.Client}
    (hc : c.phase = .session) (p : Pipeline) (ms : List Link.Message) :
    let heard := ms.takeWhile (!·.isClose)
    let chunks := heard.filterMap (·.chunk? s.audioEvent)
    (p.counters.RoomFor chunks → ∃ q : Pipeline,
      q.buffer = p.buffer.append chunks.flatten ∧
      q.counters = { p.counters with
        bytesIngested := p.counters.bytesIngested + chunks.flatten.length
        chunksIngested := p.counters.chunksIngested + chunks.length } ∧
      q.journal = p.journal ++ heard.flatMap (·.notes s.audioEvent) ∧
      receiveAll s clearOnDisconnect c p ms =
        match ms.dropWhile (!·.isClose) with
        | .close goodbye :: unheard =>
          (Intake.handle clearOnDisconnect q (.disconnected (Link.closeReason goodbye))).map
            fun q => (c.enter .pausing, q, unheard)
        | _ => .ok (c, q, [])) ∧
    (¬ p.counters.RoomFor chunks → receiveAll s clearOnDisconnect c p ms = .error .overflow) ∧
    (∀ (bytes : List UInt8) (m : Link.Message),
      m = .binary bytes ∨ m = .ofList s.audioEvent bytes ∨ m = .ofBuffer s.audioEvent bytes →
        m.Brings s.audioEvent bytes) ∧
    ∀ ms', Link.Reworded s.audioEvent ms ms' →
      SameEnd s.audioEvent (receiveAll s clearOnDisconnect c p ms)
        (receiveAll s clearOnDisconnect c p ms') := by
  intro heard chunks
  have hopen : ∀ m ∈ heard, m.isClose = false := fun m hmem => by
    simpa using List.mem_takeWhile_imp hmem
  obtain ⟨hroom, hfull⟩ :=
    receiveAll_heard clearOnDisconnect hc p hopen (ms.dropWhile (!·.isClose))
  rw [List.takeWhile_append_dropWhile] at hroom hfull
  refine ⟨fun h => ⟨p.afterMessages s.audioEvent heard, rfl, rfl, rfl, ?_⟩, hfull, ?_, ?_⟩
  · rw [hroom h]
    -- Behind the messages that are heard stands a goodbye, or nothing.
    cases hrest : ms.dropWhile (!·.isClose) with
    | nil => rfl
    | cons m unheard =>
      have hclose : m.isClose = true := by
        have hne : ms.dropWhile (!·.isClose) ≠ [] := by simp [hrest]
        have hhead := List.head_dropWhile_not (fun m : Link.Message => !m.isClose) hne
        simpa [hrest] using hhead
      cases m with
      | close goodbye => exact receiveAll_close hc _ unheard goodbye
      | _ => cases hclose
  · rintro bytes m (rfl | rfl | rfl)
    · exact .binary
    · exact Link.Message.brings_list s.audioEvent bytes
    · exact Link.Message.brings_buffer s.audioEvent bytes
  · exact fun ms' h => sameEnd_of_reworded hc (.refl p) h

/-- Bytes, an envelope, a text that is none, and a goodbye with bytes behind it; then the same bytes
in other forms, and other silent messages. -/
theorem wire_form_independent_mixed :
    let s : Link.Setup := ⟨"", "audio", "transcript"⟩
    let c : Link.Client := ⟨.session, .create, false⟩
    let p : Pipeline := .create ⟨8, 2, [7], by decide⟩
    let behind : List Link.Message := [.close none, .binary [9]]
    let ms : List Link.Message :=
      .binary [1, 2] :: .text "[\"audio\",[3]]" :: .text "junk" :: behind
    let ms' : List Link.Message :=
      .keepAlive :: .text "[\"audio\",\x7b\"data\":[1,2]\x7d]" :: .binary [3] ::
        .text "[\"other\"]" :: behind
    Link.Reworded s.audioEvent ms ms' ∧
      (∃ q : Pipeline, q.buffer.bytes = [7, 1, 2, 3] ∧ q.counters.bytesIngested = 3 ∧
        q.counters.chunksIngested = 2 ∧
        receiveAll s false c p ms =
          (Intake.handle false q (.disconnected (Link.closeReason none))).map
            fun q => (c.enter .pausing, q, [.binary [9]])) ∧
      SameEnd s.audioEvent (receiveAll s false c p ms) (receiveAll s false c p ms') := by
  intro s c p behind ms ms'
  have brings {m : Link.Message} {bytes : List UInt8} (h : m.chunk? s.audioEvent = some bytes) :
      m.Brings s.audioEvent bytes := Link.Message.chunk?_eq_some_iff.mp h
  have silent {body : String} (h : (Link.Message.text body).chunk? s.audioEvent = none) :
      (Link.Message.text body).Silent s.audioEvent := Link.Message.silent_iff.mpr ⟨h, rfl⟩
  have hreworded : Link.Reworded s.audioEvent ms ms' :=
    .inserted .keepAlive
      (.form .binary (brings (by decide +kernel))
        (.form (brings (by decide +kernel)) .binary
          (.omitted (silent (by decide +kernel))
            (.inserted (silent (by decide +kernel)) (.same _ (.same _ .nil))))))
  obtain ⟨hheard, -, -, hsame⟩ := wire_form_independent s false (c := c) rfl p ms
  obtain ⟨q, hbuffer, hcounters, -, hend⟩ := hheard (by decide +kernel)
  refine ⟨hreworded, ⟨q, ?_, ?_, ?_, hend⟩, hsame ms' hreworded⟩
  · rw [hbuffer]
    decide +kernel
  · rw [hcounters]
    decide +kernel
  · rw [hcounters]
    decide +kernel

end Relay

end SpeechRelay
