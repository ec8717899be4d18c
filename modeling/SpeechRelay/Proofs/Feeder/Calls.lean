import SpeechRelay.Feeder.Run
import SpeechRelay.Proofs.Feeder.Bookkeeping

/-!
# Calls that come to their end

The intake handles events, and the feeder ticks and finishes. Every such call goes to its end before
the next one starts, or halts. With samples of 16 bits, a call halts only where a counter is full or
a frame of silence is larger than the address space. So there is a budget: a call can spend no more
of the counters than its cost (`within_complete`), and calls whose costs together are below the size
of a word all come to their end (`completes_of_cost`).
-/

set_option autoImplicit false

namespace SpeechRelay.Feeder

open Audio

variable {σ τ ω : Type}

/-! ## Calls -/

/-- A call on the intake or the feeder. -/
inductive Call where
  | handle (e : InboundEvent)
  | tick (r : Reading)
  | finish (r : Reading)

/-- What a call gives back. -/
inductive Reply where
  | handled
  | ticked (o : Outcome)
  | finished (emitted : Option Transcript)

/-- A result that came to its end, as a reply. -/
def answered {α : Type} (reply : α → Reply) :
    Result σ τ ω α → Except Halt (Reply × Feeder σ τ ω)
  | (.ok a, f) => .ok (reply a, f)
  | (.error halt, _) => .error halt

/-- A call from its start to its end. -/
def complete (s : Setup σ τ ω) (clearOnDisconnect : Bool) (f : Feeder σ τ ω) :
    Call → Except Halt (Reply × Feeder σ τ ω)
  | .handle e => (f.handle clearOnDisconnect e).map fun g => (.handled, g)
  | .tick r => answered .ticked (tick s r f)
  | .finish r => answered .finished (finish s r f)

/-- Calls one after the other. -/
def completeAll (s : Setup σ τ ω) (clearOnDisconnect : Bool) (f : Feeder σ τ ω) :
    List Call → Except Halt (List Reply × Feeder σ τ ω)
  | [] => .ok ([], f)
  | call :: calls =>
    match complete s clearOnDisconnect f call with
    | .error halt => .error halt
    | .ok (reply, f) =>
      match completeAll s clearOnDisconnect f calls with
      | .error halt => .error halt
      | .ok (replies, f) => .ok (reply :: replies, f)

section Handle

variable {f g : Feeder σ τ ω} {clearOnDisconnect : Bool} {e : InboundEvent}

/-- An event that was handled has been counted, and the buffer and the journal have changed as the
event says. -/
theorem handle_eq_ok (h : f.handle clearOnDisconnect e = .ok g) :
    ∃ c, f.pipeline.counters.record e.happening = .ok c ∧
      g = { f with pipeline := f.pipeline.receive clearOnDisconnect e c } := by
  unfold handle at h
  rw [Intake.handle_eq] at h
  cases hc : f.pipeline.counters.record e.happening with
  | error halt =>
    rw [hc] at h
    cases h
  | ok c =>
    rw [hc] at h
    exact ⟨c, rfl, (Except.ok.inj h).symm⟩

end Handle

/-- A reply is there only if the result came to its end, and then it carries the answer. -/
theorem answered_eq_ok {α : Type} {k : α → Reply} {result : Result σ τ ω α} {reply : Reply}
    {g : Feeder σ τ ω} (h : answered k result = .ok (reply, g)) :
    ∃ a, result = (.ok a, g) ∧ reply = k a := by
  obtain ⟨answer, last⟩ := result
  cases answer with
  | error halt => cases h
  | ok a =>
    obtain ⟨rfl, rfl⟩ := Prod.mk.inj (Except.ok.inj h)
    exact ⟨a, rfl, rfl⟩

section Inversion

variable {s : Setup σ τ ω} {clearOnDisconnect : Bool} {f g : Feeder σ τ ω} {call : Call}

/-- What a call that came to its end has done. -/
theorem complete_eq_ok {reply : Reply} (h : complete s clearOnDisconnect f call = .ok (reply, g)) :
    (∃ e, call = .handle e ∧ f.handle clearOnDisconnect e = .ok g ∧ reply = .handled) ∨
    (∃ r o, call = .tick r ∧ tick s r f = (.ok o, g) ∧ reply = .ticked o) ∨
    ∃ r emitted, call = .finish r ∧ finish s r f = (.ok emitted, g) ∧
      reply = .finished emitted := by
  cases call with
  | handle e =>
    rw [complete] at h
    cases hv : f.handle clearOnDisconnect e with
    | error halt =>
      rw [hv] at h
      cases h
    | ok v =>
      rw [hv] at h
      obtain ⟨rfl, rfl⟩ := Prod.mk.inj (Except.ok.inj h)
      exact .inl ⟨e, rfl, hv, rfl⟩
  | tick r =>
    obtain ⟨o, htick, hreply⟩ := answered_eq_ok h
    exact .inr (.inl ⟨r, o, rfl, htick, hreply⟩)
  | finish r =>
    obtain ⟨emitted, hfinish, hreply⟩ := answered_eq_ok h
    exact .inr (.inr ⟨r, emitted, rfl, hfinish, hreply⟩)

/-- Calls came to their end only if the first did and the others did after it. -/
theorem completeAll_cons_eq_ok {calls : List Call} {replies : List Reply}
    (h : completeAll s clearOnDisconnect f (call :: calls) = .ok (replies, g)) :
    ∃ reply later v, replies = reply :: later ∧
      complete s clearOnDisconnect f call = .ok (reply, v) ∧
        completeAll s clearOnDisconnect v calls = .ok (later, g) := by
  rw [completeAll] at h
  cases hcall : complete s clearOnDisconnect f call with
  | error halt =>
    rw [hcall] at h
    cases h
  | ok next =>
    obtain ⟨reply, v⟩ := next
    rw [hcall] at h
    dsimp only at h
    split at h
    · cases h
    · next later last hlater =>
      obtain ⟨rfl, rfl⟩ := Prod.mk.inj (Except.ok.inj h)
      exact ⟨reply, later, v, rfl, rfl, hlater⟩

end Inversion

/-- Calls on a watched feeder end as they do when nobody watches. -/
theorem complete_plain (s : Setup σ τ ω) (clearOnDisconnect : Bool) (w : Watched σ τ ω)
    (call : Call) :
    complete s clearOnDisconnect w.plain call =
      (complete s.watched clearOnDisconnect w call).map (Prod.map id plain) := by
  cases call with
  | handle e =>
    unfold complete handle
    dsimp only
    rw [show w.plain.pipeline = w.pipeline from rfl]
    cases Intake.handle clearOnDisconnect w.pipeline e <;> rfl
  | tick r =>
    unfold complete
    dsimp only
    rw [plain, tick_image (resembles_watched s)]
    obtain ⟨result, g⟩ := tick s.watched r w
    cases result <;> rfl
  | finish r =>
    unfold complete
    dsimp only
    rw [plain, finish_image (resembles_watched s)]
    obtain ⟨result, g⟩ := finish s.watched r w
    cases result <;> rfl

/-- So do calls one after the other. -/
theorem completeAll_plain (s : Setup σ τ ω) (clearOnDisconnect : Bool) (calls : List Call)
    (w : Watched σ τ ω) :
    completeAll s clearOnDisconnect w.plain calls =
      (completeAll s.watched clearOnDisconnect w calls).map (Prod.map id plain) := by
  induction calls generalizing w with
  | nil => rfl
  | cons call calls ih =>
    rw [completeAll, completeAll, complete_plain]
    cases complete s.watched clearOnDisconnect w call with
    | error halt => rfl
    | ok next =>
      obtain ⟨reply, v⟩ := next
      dsimp only [Except.map, Prod.map]
      rw [ih v]
      cases completeAll s.watched clearOnDisconnect v calls <;> rfl

/-! ## The frame of a round and the buffer -/

/-- How many of the samples come from the buffer. -/
def bufferedCount (source : FrameSource) (samples : Nat) : Nat :=
  match source with
  | .buffered => samples
  | .silence => 0

/-- What taking has left behind, 0 if nothing was taken. -/
def leftBehind (b : Buffer) : Nat := b.take.1.elim 0 Chunk.remainder

/-- A frame is made of what a buffer gives: of whole units, or of silence if the gate is shut. -/
structure FrameOf (s : Setup σ τ ω) (b : Buffer) (frame : MonoFrame) (remainder : Nat) : Prop where
  remainder : remainder = leftBehind b
  source : frame.source = .buffered ↔ b.take.1.isSome
  bytes : b.size =
    s.format.unitBytes * bufferedCount frame.source frame.samples.length + b.take.2.size
  silence : frame.source = .silence → frame.samples.length = s.silenceSamples

section Frames

variable {s : Setup σ τ ω} {f : Feeder σ τ ω}

/-- The frame that a round makes is made of what the buffer gives. -/
theorem frameOf_nextFrame (hf : s.format.IsPcm16)
    (hunit : f.pipeline.buffer.unit = s.format.unitBytes) {frame : MonoFrame} {remainder : Nat}
    (h : (nextFrame s f).1 = .ok (frame, remainder)) :
    FrameOf s f.pipeline.buffer frame remainder := by
  by_cases hgate : f.pipeline.buffer.gate ≤ f.pipeline.buffer.size
  · have htake := Buffer.take_of_le hgate
    have hwhole := f.pipeline.buffer.unit_dvd_wholeBytes
    have hle := f.pipeline.buffer.wholeBytes_le
    rw [nextFrame_of_le hf hgate] at h
    obtain ⟨rfl, rfl⟩ := Prod.mk.inj (Except.ok.inj h)
    refine ⟨?_, ?_, ?_, fun hsilence => by cases hsilence⟩
    · rw [leftBehind, htake]
      rfl
    · rw [htake]
      exact ⟨fun _ => rfl, fun _ => rfl⟩
    · rw [hunit] at hwhole
      rw [htake]
      dsimp only [bufferedCount]
      rw [SampleFormat.length_mono, Buffer.length_take_wholeBytes, Nat.mul_div_cancel' hwhole]
      unfold Buffer.size at hle ⊢
      rw [List.length_drop]
      omega
  · have htake := Buffer.take_of_lt (Nat.not_le.mp hgate)
    rw [nextFrame_of_lt (Nat.not_le.mp hgate)] at h
    cases hsilence : silence s.silenceSamples with
    | error halt =>
      rw [hsilence] at h
      cases h
    | ok samples =>
      rw [hsilence] at h
      obtain ⟨rfl, rfl⟩ := Prod.mk.inj (Except.ok.inj h)
      refine ⟨?_, ?_, ?_, fun _ => ?_⟩
      · rw [leftBehind, htake]
        rfl
      · rw [htake]
        constructor <;> intro hnone <;> cases hnone
      · rw [htake]
        exact (Nat.zero_add _).symm
      · rw [silence_eq_ok hsilence]
        exact List.length_replicate

/-- A frame is made if a frame of silence has room. -/
theorem nextFrame_completes (hf : s.format.IsPcm16)
    (hsilence : s.silenceSamples * 2 ≤ Machine.maxBytes) :
    ∃ frame remainder, (nextFrame s f).1 = .ok (frame, remainder) := by
  by_cases hgate : f.pipeline.buffer.gate ≤ f.pipeline.buffer.size
  · exact ⟨_, _, nextFrame_of_le hf hgate⟩
  · rw [nextFrame_of_lt (Nat.not_le.mp hgate), silence_of_le hsilence]
    exact ⟨_, _, rfl⟩

end Frames

/-! ## The budget -/

/-- No counter is above `n`, and what is buffered may be fed without one of them being so. -/
structure Within (f : Feeder σ τ ω) (n : Nat) : Prop where
  counters : f.pipeline.counters.AtMost n
  audio : f.pipeline.counters.samplesFed + f.pipeline.buffer.size ≤ n

/-- How much of a counter a call can use up. -/
def Call.cost (s : Setup σ τ ω) : Call → Nat
  | .handle e => e.audioBytes.length + 1
  | .tick _ => s.silenceSamples + 2
  | .finish _ => 1

namespace Within

variable {f : Feeder σ τ ω} {n : Nat}

/-- A larger budget does as well. -/
theorem mono (hw : Within f n) {m : Nat} (hle : n ≤ m) : Within f m :=
  ⟨hw.counters.mono hle, Nat.le_trans hw.audio hle⟩

/-- Bytes that are added to the buffer cost their number. -/
theorem append (hw : Within f n) (bytes : List UInt8) :
    Within { f with pipeline := { f.pipeline with buffer := f.pipeline.buffer.append bytes } }
      (n + bytes.length) := by
  refine ⟨hw.counters.mono (Nat.le_add_right _ _), ?_⟩
  show f.pipeline.counters.samplesFed + (f.pipeline.buffer.bytes ++ bytes).length ≤ _
  rw [List.length_append, ← Nat.add_assoc]
  exact Nat.add_le_add_right hw.audio bytes.length

/-- Clearing the buffer costs nothing. -/
theorem clear (hw : Within f n) :
    Within { f with pipeline := { f.pipeline with buffer := f.pipeline.buffer.clear } } n := by
  refine ⟨hw.counters, ?_⟩
  show f.pipeline.counters.samplesFed + 0 ≤ n
  exact Nat.le_trans (Nat.le_add_right _ _) hw.audio

end Within

/-- A feeder whose buffer has just been created stays within whatever its counters do. -/
theorem within_of_create {format : SampleFormat} {gate n : Nat} {f : Feeder σ τ ω}
    (hcreate : Buffer.create format gate = .ok f.pipeline.buffer)
    (hcounters : f.pipeline.counters.AtMost n) : Within f n := by
  refine ⟨hcounters, ?_⟩
  rw [Buffer.size, (Buffer.create_eq_ok hcreate).2.2]
  exact hcounters.samplesFed

/-- A feeder that nothing has happened to yet has spent nothing. -/
theorem within_of_fresh {f : Feeder σ τ ω} {b : Buffer} (hfresh : f.pipeline = .create b)
    (hempty : b.bytes = []) : Within f 0 := by
  constructor
  · rw [hfresh]
    exact Counters.atMost_zero 0
  · rw [hfresh]
    show 0 + b.size ≤ 0
    rw [Buffer.size, hempty]
    exact Nat.le_refl 0

section Budget

variable {s : Setup σ τ ω} {w : Watched σ τ ω} {n : Nat}

/-- An event is handled at the cost of its audio, and one more for itself. -/
theorem within_handle (clearOnDisconnect : Bool) (e : InboundEvent) (hw : Within w n)
    (hroom : n + (e.audioBytes.length + 1) < Machine.wordSize) :
    ∃ v, w.handle clearOnDisconnect e = .ok v ∧ Within v (n + (e.audioBytes.length + 1)) ∧
      v.pipeline.buffer.unit = w.pipeline.buffer.unit := by
  have hcost : e.happening.cost = e.audioBytes.length + 1 := by
    cases e <;> rfl
  have hgrown := w.pipeline.counters.grown_counted e.happening
  rw [hcost] at hgrown
  have hcounters := hw.counters.grow hgrown
  have hrecord := Counters.record_of_atMost hroom hcounters
  have hsame : (w.pipeline.counters.counted e.happening).samplesFed =
      w.pipeline.counters.samplesFed := by
    cases e <;> rfl
  have hsize := InboundEvent.size_buffer_add_cleared clearOnDisconnect w.pipeline.buffer e
  refine ⟨{ w with
      pipeline := w.pipeline.receive clearOnDisconnect e
        (w.pipeline.counters.counted e.happening) }, ?_, ⟨hcounters, ?_⟩, ?_⟩
  · unfold handle
    rw [Intake.handle_eq, hrecord]
    rfl
  · have haudio := hw.audio
    show (w.pipeline.counters.counted e.happening).samplesFed +
      (e.buffer clearOnDisconnect w.pipeline.buffer).size ≤ _
    omega
  · exact e.unit_buffer clearOnDisconnect w.pipeline.buffer

/-- A tick that is watched comes to its end at the cost of a frame of silence, and two more. -/
theorem within_tick (r : Reading) (hf : s.format.IsPcm16)
    (hsilence : s.silenceSamples * 2 ≤ Machine.maxBytes)
    (hunit : w.pipeline.buffer.unit = s.format.unitBytes) (hw : Within w n)
    (hroom : n + (s.silenceSamples + 2) < Machine.wordSize) :
    ∃ o v, tick s.watched r w = (.ok o, v) ∧ Within v (n + (s.silenceSamples + 2)) ∧
      v.pipeline.buffer.unit = w.pipeline.buffer.unit := by
  obtain ⟨frame, remainder, hframe⟩ :=
    nextFrame_completes (s := s.watched) (f := w) hf hsilence
  have hof := frameOf_nextFrame (s := s.watched) hf hunit hframe
  have hbuffer := buffer_tick s.watched r w
  obtain ⟨offers, more, -, hmore, hcounts, -⟩ := counts_tick s r w hframe
  -- The samples of the frame are paid for by the bytes they were made of, or they are silence.
  have haudio := hw.audio
  have hfed : w.pipeline.counters.samplesFed + frame.samples.length +
      w.pipeline.buffer.take.2.size ≤ n + s.silenceSamples := by
    have hbytes := hof.bytes
    have hpos : 0 < s.watched.format.unitBytes := hf.unitBytes_pos
    cases hsource : frame.source with
    | buffered =>
      rw [hsource] at hbytes
      have hle : frame.samples.length ≤ s.watched.format.unitBytes * frame.samples.length :=
        Nat.le_mul_of_pos_left _ hpos
      simp only [bufferedCount] at hbytes
      omega
    | silence =>
      rw [hsource] at hbytes
      have hlength : frame.samples.length = s.silenceSamples := hof.silence hsource
      simp only [bufferedCount] at hbytes
      omega
  have hstart := hw.counters.mono (Nat.le_add_right n s.silenceSamples)
  have hsamples : w.pipeline.counters.samplesFed + frame.samples.length ≤
      n + s.silenceSamples + 1 := by omega
  have hfirst := hstart.counted_fed hsamples frame.source remainder
  have hgrown := Counters.grown_foldl (w.pipeline.counters.counted
    (.fed frame.source frame.samples.length remainder)) more
  have hcounters : (List.foldl Counters.counted w.pipeline.counters
      (.fed frame.source frame.samples.length remainder :: more)).AtMost
        (n + (s.silenceSamples + 2)) :=
    (hfirst.grow hgrown).mono (by omega)
  obtain ⟨o, ho⟩ := hcounts.completes _ hroom hcounters
  have hafter := hcounts.counted o ho
  refine ⟨o, (tick s.watched r w).2, Prod.ext ho rfl, ⟨?_, ?_⟩, ?_⟩
  · rw [hafter]
    exact hcounters
  · have hsamples := hgrown.samplesFed.2
    rw [hafter, hbuffer, List.foldl_cons]
    simp only [Counters.counted] at hsamples ⊢
    omega
  · rw [hbuffer]
    exact Buffer.unit_take _

/-- A tick that nobody watches comes to its end at the same cost. -/
theorem within_tick_plain {f : Feeder σ τ ω} (r : Reading) (hf : s.format.IsPcm16)
    (hsilence : s.silenceSamples * 2 ≤ Machine.maxBytes)
    (hunit : f.pipeline.buffer.unit = s.format.unitBytes) (hw : Within f n)
    (hroom : n + (s.silenceSamples + 2) < Machine.wordSize) :
    ∃ o g, tick s r f = (.ok o, g) ∧ Within g (n + (s.silenceSamples + 2)) ∧
      g.pipeline.buffer.unit = f.pipeline.buffer.unit := by
  have hwatched : Within f.watched n := ⟨hw.counters, hw.audio⟩
  obtain ⟨o, v, hv, hwithin, hsame⟩ := within_tick (s := s) r hf hsilence hunit hwatched hroom
  refine ⟨o, v.plain, ?_, ⟨hwithin.counters, hwithin.audio⟩, hsame⟩
  show tick s r f.watched.plain = _
  rw [plain, tick_image (resembles_watched s), hv]
  rfl

/-- The end of a run costs one answer at most. -/
theorem within_finish (r : Reading) (hw : Within w n) (hroom : n + 1 < Machine.wordSize) :
    ∃ emitted v, finish s.watched r w = (.ok emitted, v) ∧ Within v (n + 1) ∧
      v.pipeline.buffer.unit = w.pipeline.buffer.unit := by
  obtain ⟨offers, -, hone, hcounts⟩ := counts_finish s r w
  have hbuffer := (touches_finish s.watched r w).buffer (by simp)
  have haudio := hw.audio
  have hgrown := Counters.grown_foldl w.pipeline.counters (offers.map Offer.happening)
  rw [sum_cost_offers] at hgrown
  have hcounters := (hw.counters.grow hgrown).mono (Nat.add_le_add_left hone n)
  obtain ⟨emitted, hemitted⟩ := hcounts.completes _ hroom hcounters
  have hafter := hcounts.counted emitted hemitted
  refine ⟨emitted, (finish s.watched r w).2, Prod.ext hemitted rfl, ⟨?_, ?_⟩, ?_⟩
  · rw [hafter]
    exact hcounters
  · have hsamples := hgrown.samplesFed.2
    rw [hafter, hbuffer]
    omega
  · rw [hbuffer]

/-- A call comes to its end as long as the budget has its cost. -/
theorem within_complete (hf : s.format.IsPcm16)
    (hsilence : s.silenceSamples * 2 ≤ Machine.maxBytes)
    (hunit : w.pipeline.buffer.unit = s.format.unitBytes) (clearOnDisconnect : Bool) (call : Call)
    (hw : Within w n) (hroom : n + call.cost s < Machine.wordSize) :
    ∃ reply v, complete s.watched clearOnDisconnect w call = .ok (reply, v) ∧
      Within v (n + call.cost s) ∧ v.pipeline.buffer.unit = w.pipeline.buffer.unit := by
  cases call with
  | handle e =>
    obtain ⟨v, hv, hwithin⟩ := within_handle clearOnDisconnect e hw hroom
    exact ⟨.handled, v, congrArg (Except.map fun g => (Reply.handled, g)) hv, hwithin⟩
  | tick r =>
    obtain ⟨o, v, hv, hwithin⟩ := within_tick r hf hsilence hunit hw hroom
    exact ⟨.ticked o, v, congrArg (answered Reply.ticked) hv, hwithin⟩
  | finish r =>
    obtain ⟨emitted, v, hv, hwithin⟩ := within_finish r hw hroom
    exact ⟨.finished emitted, v, congrArg (answered Reply.finished) hv, hwithin⟩

/-- So do calls one after the other. -/
theorem within_completeAll (hf : s.format.IsPcm16)
    (hsilence : s.silenceSamples * 2 ≤ Machine.maxBytes)
    (hunit : w.pipeline.buffer.unit = s.format.unitBytes) (clearOnDisconnect : Bool)
    (calls : List Call) (hw : Within w n)
    (hroom : n + (calls.map (Call.cost s)).sum < Machine.wordSize) :
    ∃ replies v, completeAll s.watched clearOnDisconnect w calls = .ok (replies, v) := by
  induction calls generalizing w n with
  | nil => exact ⟨[], w, rfl⟩
  | cons call calls ih =>
    rw [List.map_cons, List.sum_cons] at hroom
    obtain ⟨reply, v, hv, hwithin, hsame⟩ :=
      within_complete hf hsilence hunit clearOnDisconnect call hw (by omega)
    obtain ⟨replies, last, hlast⟩ := ih (hsame.trans hunit) hwithin (by omega)
    refine ⟨reply :: replies, last, ?_⟩
    rw [completeAll, hv]
    dsimp only
    rw [hlast]

end Budget

/-- From a fresh start, calls come to their end if their costs together stay below the size of a
word. -/
theorem completes_of_cost {s : Setup σ τ ω} (hf : s.format.IsPcm16)
    (hsilence : s.silenceSamples * 2 ≤ Machine.maxBytes) {gate : Nat} {b : Buffer}
    (hb : Buffer.create s.format gate = .ok b) {f : Feeder σ τ ω}
    (hfresh : f.pipeline = .create b) (clearOnDisconnect : Bool) {calls : List Call}
    (hcost : (calls.map (Call.cost s)).sum < Machine.wordSize) :
    ∃ replies g, completeAll s clearOnDisconnect f calls = .ok (replies, g) := by
  obtain ⟨-, hunit, hempty⟩ := Buffer.create_eq_ok hb
  have hpos := hf.unitBytes_pos
  have hwithin : Within f.watched 0 := within_of_fresh hfresh hempty
  have hbuffer : f.watched.pipeline.buffer = b := congrArg Pipeline.buffer hfresh
  obtain ⟨replies, w, hw⟩ := within_completeAll hf hsilence (by rw [hbuffer, hunit]; omega)
    clearOnDisconnect calls hwithin (by omega)
  have hplain := completeAll_plain s clearOnDisconnect calls f.watched
  rw [hw] at hplain
  exact ⟨replies, w.plain, hplain⟩

end SpeechRelay.Feeder
