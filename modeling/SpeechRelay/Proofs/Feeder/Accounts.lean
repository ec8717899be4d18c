import SpeechRelay.Proofs.Feeder.Calls

/-!
# The books balance

Intake and feeder count what they do in one place, from normal and from failing paths. However calls
on the two follow each other, and whatever the recognizer, the outlet and the log of samples do, the
counters say what has happened: they are the totals over the events handled, the rounds made, the
chunks taken and the transcripts offered. And no byte is lost: what came in was fed, is still
buffered, or was noted as cleared (`accounts_balance`).

One call adds its own part to what is booked (`booked_complete`), and calls one after the other add
their parts one after the other (`booked_completeAll`).
-/

set_option autoImplicit false

namespace SpeechRelay.Feeder

open Audio

variable {σ τ ω : Type}

/-! ## Totals -/

/-- The event that a call hands over. -/
def Call.event? : Call → Option InboundEvent
  | .handle e => some e
  | _ => none

/-- Whether a call is a tick. -/
def Call.isTick : Call → Bool
  | .tick _ => true
  | _ => false

/-- The outcome of a tick. -/
def Reply.outcome? : Reply → Option Outcome
  | .ticked o => some o
  | _ => none

/-- What a call takes from the buffer. -/
def Call.taken? (b : Buffer) : Call → Option Chunk
  | .tick _ => b.take.1
  | _ => none

/-- What calls take from the buffer, one after the other. -/
def takes (s : Setup σ τ ω) (clearOnDisconnect : Bool) (f : Feeder σ τ ω) : List Call → List Chunk
  | [] => []
  | call :: calls =>
    (call.taken? f.pipeline.buffer).toList ++
      match complete s clearOnDisconnect f call with
      | .error _ => []
      | .ok (_, f) => takes s clearOnDisconnect f calls

/-- Whether the outlet refused what was offered. -/
def Offer.isRefused (offer : Offer) : Bool :=
  match offer.answer with
  | .ok () => false
  | .error _ => true

/-- The counters that events, outcomes, chunks and offers add up to. -/
def totals (events : List InboundEvent) (outcomes : List Outcome) (chunks : List Chunk)
    (offers : List Offer) : Counters where
  bytesIngested := (events.map fun e => e.audioBytes.length).sum
  chunksIngested := events.countP InboundEvent.isAudio
  framesBuffered := outcomes.countP (·.source = .buffered)
  framesSilence := outcomes.countP (·.source = .silence)
  samplesFed := (outcomes.map Outcome.samples).sum
  remainderEvents := chunks.countP (·.remainder ≠ 0)
  transcriptsEmitted := (accepted offers).length
  recognizerFaults := outcomes.countP (·.fault.isSome)
  sinkFailures := offers.countP Offer.isRefused
  connection := (events.filterMap InboundEvent.connection?).getLast?.getD .connecting
  connects := events.countP (·.happening = .linked .connected)
  disconnects := events.countP (·.happening = .linked .disconnected)
  connectErrors := events.countP (·.happening = .connectFailed)
  lastTranscriptAt := (accepted offers).getLast?.map Transcript.timestamp

section Totals

variable (events : List InboundEvent) (outcomes : List Outcome) (chunks : List Chunk)
  (offers : List Offer)

/-- Counting an event keeps the totals up to date. -/
theorem totals_handled (e : InboundEvent) :
    (totals events outcomes chunks offers).counted e.happening =
      totals (events ++ [e]) outcomes chunks offers := by
  cases e <;> simp [totals, Counters.counted, InboundEvent.happening, InboundEvent.isAudio,
    InboundEvent.audioBytes, InboundEvent.connection?]

/-- Counting the answers to offers keeps the totals up to date. -/
theorem totals_offered (more : List Offer) :
    (more.map Offer.happening).foldl Counters.counted (totals events outcomes chunks offers) =
      totals events outcomes chunks (offers ++ more) := by
  induction more generalizing offers with
  | nil => rw [List.append_nil, List.map_nil, List.foldl_nil]
  | cons offer more ih =>
    have hone : (totals events outcomes chunks offers).counted offer.happening =
        totals events outcomes chunks (offers ++ [offer]) := by
      obtain ⟨t, answer⟩ := offer
      cases answer <;> simp [totals, Counters.counted, Offer.happening, Offer.isRefused, accepted]
    rw [List.map_cons, List.foldl_cons, hone, ih, List.append_assoc]
    rfl

/-- A round that comes to its end adds its outcome and what it took. -/
theorem totals_ticked (o : Outcome) (chunk : Option Chunk) :
    (.fed o.source o.samples (chunk.elim 0 Chunk.remainder) :: o.happenings).foldl
        Counters.counted (totals events outcomes chunks offers) =
      totals events (outcomes ++ [o]) (chunks ++ chunk.toList) offers := by
  obtain ⟨source, samples, emitted, fault⟩ := o
  cases chunk <;> cases source <;> cases fault <;>
    simp [totals, Counters.counted, Outcome.happenings, List.countP_cons]

end Totals

/-! ## What calls add -/

/-- How many samples of rounds come from the buffer, all in all. -/
def bufferedSum (outcomes : List Outcome) : Nat :=
  (outcomes.map fun o => bufferedCount o.source o.samples).sum

/-- How many bytes of audio came in, all in all. -/
def audioSum (events : List InboundEvent) : Nat := (events.map fun e => e.audioBytes.length).sum

/-- From one feeder to the other these events have been handled, the rounds had these outcomes and
took these chunks, and these offers were made. -/
structure Booked (s : Setup σ τ ω) (w v : Watched σ τ ω) (events : List InboundEvent)
    (outcomes : List Outcome) (chunks : List Chunk) (offers : List Offer) : Prop where
  offered : v.outlet.2 = w.outlet.2 ++ offers
  counters : ∀ events' outcomes' chunks' offers',
    w.pipeline.counters = totals events' outcomes' chunks' offers' →
      v.pipeline.counters = totals (events' ++ events) (outcomes' ++ outcomes) (chunks' ++ chunks)
        (offers' ++ offers)
  bytes : w.pipeline.buffer.size + w.pipeline.clearedBytes + audioSum events =
    s.format.unitBytes * bufferedSum outcomes + v.pipeline.buffer.size + v.pipeline.clearedBytes
  unit : v.pipeline.buffer.unit = w.pipeline.buffer.unit

namespace Booked

variable {s : Setup σ τ ω} {u v w : Watched σ τ ω} {events later : List InboundEvent}
  {outcomes next : List Outcome} {chunks others : List Chunk} {offers more : List Offer}

/-- Where nothing was called, nothing is booked. -/
theorem nothing (s : Setup σ τ ω) (w : Watched σ τ ω) : Booked s w w [] [] [] [] := by
  refine ⟨(List.append_nil _).symm, fun _ _ _ _ hstart => ?_, ?_, rfl⟩
  · rw [List.append_nil, List.append_nil, List.append_nil, List.append_nil]
    exact hstart
  · show _ + 0 = s.format.unitBytes * 0 + _ + _
    omega

/-- What is booked in two stretches is booked over both. -/
theorem trans (hfirst : Booked s u v events outcomes chunks offers)
    (hsecond : Booked s v w later next others more) :
    Booked s u w (events ++ later) (outcomes ++ next) (chunks ++ others) (offers ++ more) := by
  refine ⟨?_, fun events' outcomes' chunks' offers' hstart => ?_, ?_,
    hsecond.unit.trans hfirst.unit⟩
  · rw [hsecond.offered, hfirst.offered, List.append_assoc]
  · rw [hsecond.counters _ _ _ _ (hfirst.counters _ _ _ _ hstart)]
    simp only [List.append_assoc]
  · have hbefore := hfirst.bytes
    have hafter := hsecond.bytes
    have haudio : audioSum (events ++ later) = audioSum events + audioSum later := by
      unfold audioSum
      rw [List.map_append, List.sum_append]
    have hfed : bufferedSum (outcomes ++ next) = bufferedSum outcomes + bufferedSum next := by
      unfold bufferedSum
      rw [List.map_append, List.sum_append]
    rw [haudio, hfed, Nat.mul_add]
    omega

end Booked

section Calls

variable {s : Setup σ τ ω} {w v : Watched σ τ ω} {clearOnDisconnect : Bool}

/-- An event that is handled is booked, and nothing else. -/
theorem booked_handle {e : InboundEvent} (h : w.handle clearOnDisconnect e = .ok v) :
    Booked s w v [e] [] [] [] := by
  obtain ⟨c, hc, rfl⟩ := handle_eq_ok h
  have hcounted := Counters.eq_counted_of_record hc
  have hsize := InboundEvent.size_buffer_add_cleared clearOnDisconnect w.pipeline.buffer e
  refine ⟨(List.append_nil _).symm, fun events outcomes chunks offers hstart => ?_, ?_, ?_⟩
  · rw [List.append_nil, List.append_nil, List.append_nil, ← totals_handled, ← hstart]
    exact hcounted
  · have hcleared : (w.pipeline.receive clearOnDisconnect e c).clearedBytes =
        w.pipeline.clearedBytes + ((e.notes clearOnDisconnect w.pipeline.buffer).map
          JournalEntry.clearedBytes).sum :=
      Pipeline.clearedBytes_note _ _
    show w.pipeline.buffer.size + w.pipeline.clearedBytes + (e.audioBytes.length + 0) =
      s.format.unitBytes * 0 + (e.buffer clearOnDisconnect w.pipeline.buffer).size +
        (w.pipeline.receive clearOnDisconnect e c).clearedBytes
    omega
  · exact e.unit_buffer clearOnDisconnect w.pipeline.buffer

/-- A tick books its outcome, what it took from the buffer, and what it offered. -/
theorem booked_tick (hf : s.format.IsPcm16) (hunit : w.pipeline.buffer.unit = s.format.unitBytes)
    {r : Reading} {o : Outcome} (h : tick s.watched r w = (.ok o, v)) :
    ∃ offers, Booked s w v [] [o] w.pipeline.buffer.take.1.toList offers := by
  obtain ⟨frame, remainder, made, c, hframe, -⟩ := tick_eq_ok h
  have hframe : (nextFrame s.watched w).1 = .ok (frame, remainder) := by rw [hframe]
  have hof := frameOf_nextFrame (s := s.watched) hf hunit hframe
  obtain ⟨offers, more, houtlet, -, hcounts, hmore⟩ := counts_tick s r w hframe
  have hbuffer := buffer_tick s.watched r w
  rw [h] at houtlet hcounts hmore hbuffer
  obtain ⟨hsource, hsamples, rfl⟩ := hmore o rfl
  refine ⟨offers, houtlet, fun events outcomes chunks offers' hstart => ?_, ?_, ?_⟩
  · rw [hcounts.counted o rfl, hstart, hof.remainder, ← hsource, ← hsamples, ← List.cons_append,
      List.foldl_append, leftBehind, totals_ticked, totals_offered, List.append_nil]
  · have hbytes := hof.bytes
    have hcleared := hcounts.cleared
    rw [← hsource, ← hsamples] at hbytes
    show w.pipeline.buffer.size + w.pipeline.clearedBytes + 0 =
      s.format.unitBytes * (bufferedCount o.source o.samples + 0) + v.pipeline.buffer.size +
        v.pipeline.clearedBytes
    have hformat : s.watched.format = s.format := rfl
    rw [hformat] at hbytes
    rw [show v.pipeline.buffer = _ from hbuffer, show v.pipeline.clearedBytes = _ from hcleared,
      Nat.add_zero, Nat.add_zero]
    omega
  · rw [show v.pipeline.buffer = _ from hbuffer]
    exact Buffer.unit_take _

/-- The end of a run books nothing but what it offered. -/
theorem booked_finish {r : Reading} {emitted : Option Transcript}
    (h : finish s.watched r w = (.ok emitted, v)) : ∃ offers, Booked s w v [] [] [] offers := by
  obtain ⟨offers, houtlet, -, hcounts⟩ := counts_finish s r w
  have hbuffer := (touches_finish s.watched r w).buffer (by simp)
  rw [h] at houtlet hcounts hbuffer
  refine ⟨offers, houtlet, fun events outcomes chunks offers' hstart => ?_, ?_, ?_⟩
  · rw [hcounts.counted emitted rfl, hstart, totals_offered, List.append_nil, List.append_nil,
      List.append_nil]
  · show w.pipeline.buffer.size + w.pipeline.clearedBytes + 0 =
      s.format.unitBytes * 0 + v.pipeline.buffer.size + v.pipeline.clearedBytes
    rw [show v.pipeline.buffer = _ from hbuffer,
      show v.pipeline.clearedBytes = _ from hcounts.cleared]
    omega
  · rw [show v.pipeline.buffer = _ from hbuffer]

/-- A call adds its event, the outcome and the chunk of its round, and its offer. -/
theorem booked_complete (hf : s.format.IsPcm16)
    (hunit : w.pipeline.buffer.unit = s.format.unitBytes) {call : Call} {reply : Reply}
    (h : complete s.watched clearOnDisconnect w call = .ok (reply, v)) :
    ∃ offers, Booked s w v call.event?.toList reply.outcome?.toList
      (call.taken? w.pipeline.buffer).toList offers := by
  rcases complete_eq_ok h with ⟨e, rfl, hv, rfl⟩ | ⟨r, o, rfl, hv, rfl⟩ | ⟨r, emitted, rfl, hv, rfl⟩
  · exact ⟨[], booked_handle hv⟩
  · exact booked_tick hf hunit hv
  · exact booked_finish hv

/-- What is kept of the first element comes first. -/
theorem filterMap_cons_eq {α β : Type} (k : α → Option β) (a : α) (as : List α) :
    (a :: as).filterMap k = (k a).toList ++ as.filterMap k := by
  cases h : k a <;> simp [h]

/-- So do calls one after the other. -/
theorem booked_completeAll (hf : s.format.IsPcm16) (calls : List Call)
    (hunit : w.pipeline.buffer.unit = s.format.unitBytes) {replies : List Reply}
    (h : completeAll s.watched clearOnDisconnect w calls = .ok (replies, v)) :
    ∃ offers, Booked s w v (calls.filterMap Call.event?) (replies.filterMap Reply.outcome?)
      (takes s clearOnDisconnect w.plain calls) offers := by
  induction calls generalizing w replies with
  | nil =>
    cases h
    exact ⟨[], Booked.nothing s _⟩
  | cons call calls ih =>
    obtain ⟨reply, later, u, rfl, hcall, hrest⟩ := completeAll_cons_eq_ok h
    obtain ⟨offers, hfirst⟩ := booked_complete hf hunit hcall
    obtain ⟨more, hothers⟩ := ih (hfirst.unit.trans hunit) hrest
    have hplain := complete_plain s clearOnDisconnect w call
    rw [hcall] at hplain
    refine ⟨offers ++ more, ?_⟩
    rw [filterMap_cons_eq, filterMap_cons_eq, takes, hplain]
    exact hfirst.trans hothers

end Calls

/-! ## Rounds and ticks -/

/-- A tick that comes to its end has an outcome, and no other call has one. -/
theorem length_outcome? {s : Setup σ τ ω} {clearOnDisconnect : Bool} {f g : Feeder σ τ ω}
    {call : Call} {reply : Reply} (h : complete s clearOnDisconnect f call = .ok (reply, g)) :
    reply.outcome?.toList.length = [call].countP Call.isTick := by
  rcases complete_eq_ok h with ⟨e, rfl, -, rfl⟩ | ⟨r, o, rfl, -, rfl⟩ | ⟨r, emitted, rfl, -, rfl⟩ <;>
    rfl

/-- Every tick is a round. -/
theorem length_outcomes {s : Setup σ τ ω} {clearOnDisconnect : Bool} (calls : List Call)
    {f g : Feeder σ τ ω} {replies : List Reply}
    (h : completeAll s clearOnDisconnect f calls = .ok (replies, g)) :
    (replies.filterMap Reply.outcome?).length = calls.countP Call.isTick := by
  induction calls generalizing f replies with
  | nil =>
    cases h
    rfl
  | cons call calls ih =>
    obtain ⟨reply, later, v, rfl, hcall, hrest⟩ := completeAll_cons_eq_ok h
    rw [filterMap_cons_eq, List.length_append, length_outcome? hcall, ih hrest,
      ← List.countP_append]
    rfl

/-- Every frame comes from the buffer or is silence. -/
theorem countP_source (outcomes : List Outcome) :
    outcomes.countP (·.source = .buffered) + outcomes.countP (·.source = .silence) =
      outcomes.length := by
  induction outcomes with
  | nil => rfl
  | cons o outcomes ih =>
    cases hsource : o.source <;> simp [hsource] <;> omega

/-! ## The books of a run -/

/-- Whatever the recognizer, the outlet and the log of samples do, and however calls follow each
other: they all come to their end while their costs stay below the size of a word. If they did, then
the counters are the totals over the events that were handled, the outcomes of the rounds, the
chunks that were taken and the transcripts that were offered; every byte that came in was fed, is
still buffered or was noted as cleared; and only audio and the clearing end of a session change the
buffer. -/
theorem accounts_balance {s : Setup σ τ ω} (hf : s.format.IsPcm16) {gate : Nat} {b : Buffer}
    (hb : Buffer.create s.format gate = .ok b) {f : Feeder σ τ ω} (hfresh : f.pipeline = .create b)
    (clearOnDisconnect : Bool) (calls : List Call) :
    (s.silenceSamples * 2 ≤ Machine.maxBytes →
      (calls.map (Call.cost s)).sum < Machine.wordSize →
        ∃ replies g, completeAll s clearOnDisconnect f calls = .ok (replies, g)) ∧
    (∀ replies g, completeAll s clearOnDisconnect f calls = .ok (replies, g) →
      ∃ w, completeAll s.watched clearOnDisconnect f.watched calls = .ok (replies, w) ∧
        w.plain = g ∧
        let counters := g.pipeline.counters
        let events := calls.filterMap Call.event?
        let outcomes := replies.filterMap Reply.outcome?
        let chunks := takes s clearOnDisconnect f calls
        let offers := w.outlet.2
        counters.bytesIngested = audioSum events ∧
        counters.bytesIngested = s.format.unitBytes * bufferedSum outcomes +
          g.pipeline.buffer.size + g.pipeline.clearedBytes ∧
        counters.chunksIngested = events.countP InboundEvent.isAudio ∧
        counters.framesBuffered = outcomes.countP (·.source = .buffered) ∧
        counters.framesBuffered + counters.framesSilence = calls.countP Call.isTick ∧
        counters.samplesFed = (outcomes.map Outcome.samples).sum ∧
        counters.remainderEvents = chunks.countP (·.remainder ≠ 0) ∧
        counters.recognizerFaults = outcomes.countP (·.fault.isSome) ∧
        counters.transcriptsEmitted = (accepted offers).length ∧
        counters.sinkFailures = offers.countP Offer.isRefused ∧
        counters.lastTranscriptAt = (accepted offers).getLast?.map Transcript.timestamp) ∧
    ∀ (before after : Feeder σ τ ω) (e : InboundEvent),
      before.handle clearOnDisconnect e = .ok after → e.isAudio = false →
        e.clears clearOnDisconnect = false → after.pipeline.buffer = before.pipeline.buffer := by
  refine ⟨fun hsilence hcost => ?_, fun replies g hrun => ?_, fun before after e h haudio hkeep => ?_⟩
  · exact completes_of_cost hf hsilence hb hfresh clearOnDisconnect hcost
  · -- The same run, watched.
    have hplain := completeAll_plain s clearOnDisconnect calls f.watched
    rw [show f.watched.plain = f from rfl, hrun] at hplain
    cases hwatched : completeAll s.watched clearOnDisconnect f.watched calls with
    | error halt =>
      rw [hwatched] at hplain
      cases hplain
    | ok done =>
      obtain ⟨replies', w⟩ := done
      rw [hwatched] at hplain
      obtain ⟨rfl, rfl⟩ := Prod.mk.inj (Except.ok.inj hplain)
      obtain ⟨-, hunit, hempty⟩ := Buffer.create_eq_ok hb
      have hpos := hf.unitBytes_pos
      have hstart : f.watched.pipeline = .create b := hfresh
      obtain ⟨offers, hbooked⟩ := booked_completeAll hf calls
        (by rw [hstart]; exact hunit.trans (Nat.max_eq_left hpos)) hwatched
      have hoffers : w.outlet.2 = offers := hbooked.offered
      have hcounters : w.pipeline.counters = totals (calls.filterMap Call.event?)
          (replies.filterMap Reply.outcome?) (takes s clearOnDisconnect f calls) w.outlet.2 := by
        rw [hoffers]
        exact hbooked.counters [] [] [] [] (congrArg Pipeline.counters hstart)
      have hbytes := hbooked.bytes
      have hnone : f.watched.pipeline.buffer.size + f.watched.pipeline.clearedBytes = 0 := by
        rw [hstart]
        show b.bytes.length + 0 = 0
        rw [hempty]
        rfl
      rw [hnone, Nat.zero_add] at hbytes
      have hticks := length_outcomes calls hrun
      refine ⟨w, rfl, rfl, ?_⟩
      dsimp only
      rw [show w.plain.pipeline = w.pipeline from rfl, hcounters]
      refine ⟨rfl, hbytes, rfl, rfl, ?_, rfl, rfl, rfl, rfl, rfl, rfl⟩
      exact (countP_source _).trans hticks
  · obtain ⟨c, -, rfl⟩ := handle_eq_ok h
    exact e.buffer_of_quiet hkeep (InboundEvent.audioBytes_eq_nil haudio) before.pipeline.buffer

/-- A recognizer that fails on every second frame, and an outlet that accepts one transcript: a
round that leaves a byte behind, a fault, an end of the session that clears two bytes, and a
refusal. -/
theorem accounts_balance_scripted :
    let script : Recognizer Nat :=
      { name := "scripted"
        accept := fun _ n => (if n % 2 = 1 then .error (.decode "odd") else .ok true, n + 1)
        result := fun n => (.ok "[\"oui\"]", n)
        partialResult := fun n => (.ok "[\"\"]", n)
        finalResult := fun n => (.ok "[\"\"]", n) }
    let once : Outlet Nat := ⟨fun _ n => (if n = 0 then .ok () else .error .closed, n + 1)⟩
    let s : Setup Nat Nat Disk := ⟨.stereo, 2, false, script, once, Disk.medium⟩
    let b : Buffer := ⟨4, 4, [], by decide⟩
    let f : Feeder Nat Nat Disk := .create 0 0 (.file []) (.create b)
    let r : Reading := ⟨⟨0⟩, ⟨7, 0⟩, 0⟩
    let calls : List Call :=
      [.handle (.connected "gateway"), .handle (.audio [1, 0, 3, 0, 5]), .tick r, .tick r,
        .handle (.audio [6]), .handle (.disconnected "gone"), .tick r,
        .handle (.connectError "refused"), .handle (.audio []), .finish r]
    s.format.IsPcm16 ∧ Buffer.create s.format 4 = .ok b ∧ f.pipeline = .create b ∧
      ∃ replies g, completeAll s true f calls = .ok (replies, g) ∧
        g.pipeline.counters = ⟨6, 3, 1, 2, 5, 1, 1, 1, 1, .disconnected, 1, 1, 1, some ⟨7, 0⟩⟩ ∧
        g.pipeline.clearedBytes = 2 ∧
        6 = s.format.unitBytes * bufferedSum (replies.filterMap Reply.outcome?) +
          g.pipeline.buffer.size + g.pipeline.clearedBytes := by
  intro script once s b f r calls
  have hf : s.format.IsPcm16 := ⟨rfl, by decide⟩
  have hb : Buffer.create s.format 4 = .ok b := rfl
  have hbalance := accounts_balance hf hb (f := f) rfl true calls
  obtain ⟨replies, g, hrun⟩ := hbalance.1 (by decide) (by decide)
  obtain ⟨w, -, -, hbooks⟩ := hbalance.2.1 replies g hrun
  have hseen : (completeAll s true f calls).map
      (fun done => (done.2.pipeline.counters, done.2.pipeline.clearedBytes)) =
        .ok (⟨6, 3, 1, 2, 5, 1, 1, 1, 1, .disconnected, 1, 1, 1, some ⟨7, 0⟩⟩, 2) := by
    decide +kernel
  rw [hrun] at hseen
  obtain ⟨hcounters, hcleared⟩ := Prod.mk.inj (Except.ok.inj hseen)
  have hbytes := hbooks.2.1
  dsimp only at hcounters
  rw [hcounters] at hbytes
  exact ⟨hf, hb, rfl, replies, g, hrun, hcounters, hcleared, hbytes⟩

end SpeechRelay.Feeder
