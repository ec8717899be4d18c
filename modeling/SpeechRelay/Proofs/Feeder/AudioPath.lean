import Mathlib.Data.List.Forall2
import Mathlib.Data.Option.Basic
import SpeechRelay.Proofs.Feeder.Bookkeeping
import SpeechRelay.Recognizer.Backend

/-!
# The way of the audio

What a feeder does with its audio is decided by the audio alone. Two feeders with the same buffer
that get the same moves make the same frames, keep the same bytes and count the same frames, however
their recognizers and outlets answer, whatever their logs do and whatever their clocks show
(`audio_independent`).

Of a round, the frame depends on nothing but the buffer (`nextFrame_eq_mixed`), and counting it
depends on nothing but the numbers that count frames (`frames_feed`). What comes behind can count
one answer at most (`Ends`), which is no frame.
-/

set_option autoImplicit false

namespace SpeechRelay

open Audio

/-! ## The audio of a pipeline -/

/-- The numbers that count frames. -/
structure FrameCounts where
  framesBuffered : Nat
  framesSilence : Nat
  samplesFed : Nat
  remainderEvents : Nat
  deriving DecidableEq

/-- What the counters say about frames. -/
def Counters.frames (c : Counters) : FrameCounts :=
  ⟨c.framesBuffered, c.framesSilence, c.samplesFed, c.remainderEvents⟩

/-- What of a pipeline has to do with its audio. -/
structure AudioState where
  buffer : Buffer
  frames : FrameCounts

/-- The buffer and what has been counted about frames. -/
def Pipeline.audio (p : Pipeline) : AudioState := ⟨p.buffer, p.counters.frames⟩

/-- An answer of the recognizer or the outlet is counted. -/
inductive Happening.IsAnswer : Happening → Prop where
  | transcribed (timestamp : Calendar.Instant) : IsAnswer (.transcribed timestamp)
  | recognizerFailed : IsAnswer .recognizerFailed
  | outletRefused : IsAnswer .outletRefused

/-- The counters of answers have room for `n` more. -/
structure Counters.Spare (c : Counters) (n : Nat) : Prop where
  transcriptsEmitted : c.transcriptsEmitted + n < Machine.wordSize
  recognizerFaults : c.recognizerFaults + n < Machine.wordSize
  sinkFailures : c.sinkFailures + n < Machine.wordSize

namespace Counters

/-- The answers of recognizer and outlet do not count as frames. -/
theorem frames_counted (c : Counters) {h : Happening} (hanswer : h.IsAnswer) :
    (c.counted h).frames = c.frames := by
  cases hanswer <;> rfl

/-- Counting a frame depends on the numbers that count frames, and so does whether it halts. -/
theorem frames_feed {c d : Counters} (h : d.frames = c.frames) (source : FrameSource)
    (samples remainder : Nat) :
    (d.record (.fed source samples remainder)).map frames =
      (c.record (.fed source samples remainder)).map frames := by
  obtain ⟨hbuffered, hsilence, hfed, hevents⟩ := FrameCounts.mk.inj h
  show (d.feed source samples remainder).map frames = (c.feed source samples remainder).map frames
  unfold feed
  rw [hbuffered, hsilence, hfed, hevents]
  -- The same words are tried one after the other, and the first that does not fit halts both.
  cases source with
  | buffered =>
    dsimp only
    cases Machine.word (c.framesBuffered + 1) with
    | error halt => rfl
    | ok buffered =>
      cases Machine.word (c.samplesFed + samples) with
      | error halt => rfl
      | ok fed =>
        by_cases hzero : remainder = 0
        · simp only [if_pos hzero]
          rfl
        · simp only [if_neg hzero]
          cases Machine.word (c.remainderEvents + 1) <;> rfl
  | silence =>
    dsimp only
    cases Machine.word (c.framesSilence + 1) with
    | error halt => rfl
    | ok silent =>
      cases Machine.word (c.samplesFed + samples) with
      | error halt => rfl
      | ok fed =>
        by_cases hzero : remainder = 0
        · simp only [if_pos hzero]
          rfl
        · simp only [if_neg hzero]
          cases Machine.word (c.remainderEvents + 1) <;> rfl

/-- Counting a frame takes no room from the counters of answers. -/
theorem spare_record_fed {c d : Counters} {n : Nat} (hc : c.Spare n) {source : FrameSource}
    {samples remainder : Nat} (h : c.record (.fed source samples remainder) = .ok d) :
    d.Spare n := by
  rw [eq_counted_of_record h]
  exact ⟨hc.transcriptsEmitted, hc.recognizerFaults, hc.sinkFailures⟩

/-- With room left, an answer can be counted and uses up one place at most. -/
theorem record_of_spare {c : Counters} {n : Nat} (hc : c.Spare (n + 1)) {h : Happening}
    (hanswer : h.IsAnswer) : ∃ d, c.record h = .ok d ∧ d.Spare n := by
  have hemitted := hc.transcriptsEmitted
  have hfaults := hc.recognizerFaults
  have hfailures := hc.sinkFailures
  refine ⟨c.counted h, ?_, ?_⟩
  · cases hanswer with
    | transcribed timestamp => exact word_bind_of_lt (by omega) _
    | recognizerFailed => exact word_bind_of_lt (by omega) _
    | outletRefused => exact word_bind_of_lt (by omega) _
  · cases hanswer <;> constructor <;> simp only [counted] <;> omega

/-- Room for more answers is room for fewer. -/
theorem Spare.mono {c : Counters} {n m : Nat} (hc : c.Spare n) (h : m ≤ n) : c.Spare m := by
  have hemitted := hc.transcriptsEmitted
  have hfaults := hc.recognizerFaults
  have hfailures := hc.sinkFailures
  constructor <;> omega

end Counters

namespace Feeder

variable {σ τ ω σ' τ' ω' : Type}

/-! ## Behind the verdict -/

/-- A call counts one answer at most: it comes to its end, or the answer has no room. -/
inductive Ends {α : Type} (f : Feeder σ τ ω) (result : Result σ τ ω α) : Prop where
  | uncounted (a : α) (hend : result.1 = .ok a)
    (hcounters : result.2.pipeline.counters = f.pipeline.counters)
  | counted (a : α) (h : Happening) (hanswer : h.IsAnswer) (hend : result.1 = .ok a)
    (hrecord : f.pipeline.counters.record h = .ok result.2.pipeline.counters)
  | halted (halt : Halt) (h : Happening) (hanswer : h.IsAnswer) (hend : result.1 = .error halt)
    (hrecord : f.pipeline.counters.record h = .error halt)
    (hcounters : result.2.pipeline.counters = f.pipeline.counters)

namespace Ends

variable {α β : Type} {f g : Feeder σ τ ω} {result : Result σ τ ω α}

/-- Whichever way a call ends, it counts no frame. -/
theorem frames (h : Ends f result) :
    result.2.pipeline.counters.frames = f.pipeline.counters.frames := by
  cases h with
  | uncounted a hend hcounters => rw [hcounters]
  | counted a h hanswer hend hrecord =>
    rw [Counters.eq_counted_of_record hrecord]
    exact Counters.frames_counted _ hanswer
  | halted halt h hanswer hend hrecord hcounters => rw [hcounters]

/-- Where answers have room, the call comes to its end. -/
theorem completes (h : Ends f result) {n : Nat} (hspare : f.pipeline.counters.Spare (n + 1)) :
    ∃ a, result.1 = .ok a ∧ result.2.pipeline.counters.Spare n := by
  cases h with
  | uncounted a hend hcounters =>
    refine ⟨a, hend, ?_⟩
    rw [hcounters]
    exact hspare.mono (Nat.le_succ n)
  | counted a h hanswer hend hrecord =>
    obtain ⟨d, hd, hroom⟩ := Counters.record_of_spare hspare hanswer
    rw [hrecord] at hd
    refine ⟨a, hend, ?_⟩
    rw [Except.ok.inj hd]
    exact hroom
  | halted halt h hanswer hend hrecord hcounters =>
    obtain ⟨d, hd, -⟩ := Counters.record_of_spare hspare hanswer
    rw [hrecord] at hd
    cases hd

/-- What comes before without counting may be left out. -/
theorem before (h : Ends g result) (hcounters : g.pipeline.counters = f.pipeline.counters) :
    Ends f result := by
  cases h with
  | uncounted a hend hsame => exact .uncounted a hend (hsame.trans hcounters)
  | counted a h hanswer hend hrecord => exact .counted a h hanswer hend (hcounters ▸ hrecord)
  | halted halt h hanswer hend hrecord hsame =>
    exact .halted halt h hanswer hend (hcounters ▸ hrecord) (hsame.trans hcounters)

/-- So may what comes after it. -/
theorem after {answer : Except Halt α} {last : Feeder σ τ ω} (h : Ends f (answer, g)) (k : α → β)
    (hcounters : last.pipeline.counters = g.pipeline.counters) :
    Ends f (answer.map k, last) := by
  cases h with
  | uncounted a hend hsame =>
    exact .uncounted (k a) (congrArg (Except.map k) hend) (hcounters.trans hsame)
  | counted a h hanswer hend hrecord =>
    exact .counted (k a) h hanswer (congrArg (Except.map k) hend)
      (hrecord.trans (congrArg Except.ok hcounters.symm))
  | halted halt h hanswer hend hrecord hsame =>
    exact .halted halt h hanswer (congrArg (Except.map k) hend) hrecord (hcounters.trans hsame)

end Ends

/-- Recording an answer comes to its end, or the answer has no room. -/
theorem ends_record (f : Feeder σ τ ω) {h : Happening} (hanswer : h.IsAnswer) :
    Ends f (f.record h) := by
  rcases record_cases f h with ⟨c, hc, heq⟩ | ⟨halt, hhalt, heq⟩
  · rw [heq]
    exact .counted () h hanswer rfl hc
  · rw [heq]
    exact .halted halt h hanswer rfl hhalt rfl

/-- Emitting a text counts one answer of the outlet at most. -/
theorem ends_emit (s : Setup σ τ ω) (r : Reading) (f : Feeder σ τ ω) (text : String) :
    Ends f (emit s r text f) := by
  by_cases htext : text = ""
  · subst htext
    exact .uncounted none rfl rfl
  · cases hanswer : s.outlet.emit (offered r f text) f.outlet with
    | mk answer outlet =>
      cases answer with
      | ok accepted =>
        have hcount := ends_record (told r f text outlet) (.transcribed r.now)
        rw [emit_of_accepted r htext hanswer]
        exact (hcount.after _ rfl).before rfl
      | error why =>
        have hcount := ends_record ((told r f text outlet).note [.transcriptDropped why])
          .outletRefused
        rw [emit_of_refused r htext hanswer]
        exact (hcount.after _ rfl).before rfl

/-- The end of a round counts one answer at most, of the recognizer or of the outlet. -/
theorem ends_conclude (s : Setup σ τ ω) (r : Reading) (f : Feeder σ τ ω) (frame : MonoFrame)
    (v : Verdict) : Ends f (conclude s r frame v f) := by
  cases v with
  | nothing => exact .uncounted _ rfl rfl
  | fault why =>
    have hcount := ends_record (f.note [.frameSkipped frame.source]) .recognizerFailed
    rw [conclude_fault]
    generalize (f.note [.frameSkipped frame.source]).record .recognizerFailed = recorded
      at hcount ⊢
    obtain ⟨counted, g⟩ := recorded
    have hnoted : Ends f (counted.map fun _ => (⟨frame.source, frame.samples.length, none,
        some why⟩ : Outcome), g) := (hcount.after _ rfl).before rfl
    cases counted with
    | ok u => exact hnoted.after id rfl
    | error halt => exact hnoted
  | utterance text =>
    have hemit := ends_emit s r (f.enter .emitting) text
    rw [conclude_utterance]
    exact (hemit.after _ rfl).before rfl

/-! ## The frame of a buffer -/

/-- What a round makes of a buffer, and how many bytes it leaves behind: the whole units mixed
down, or silence if the gate is shut. -/
def mixed (format : SampleFormat) (silenceSamples : Nat) (b : Buffer) :
    Except Halt (MonoFrame × Nat) :=
  match b.take.1 with
  | some chunk =>
    (format.downmix chunk.bytes).map fun samples => (⟨samples, .buffered⟩, chunk.remainder)
  | none => (silence silenceSamples).map fun samples => (⟨samples, .silence⟩, 0)

/-- The frame of a round depends on the format, the silence and the buffer alone. -/
theorem nextFrame_eq_mixed (s : Setup σ τ ω) (f : Feeder σ τ ω) :
    (nextFrame s f).1 = mixed s.format s.silenceSamples f.pipeline.buffer := by
  unfold nextFrame mixed
  obtain ⟨chunk, buffer⟩ := f.pipeline.buffer.take
  cases chunk with
  | none =>
    dsimp only
    cases silence s.silenceSamples <;> rfl
  | some chunk =>
    dsimp only
    cases s.format.downmix chunk.bytes <;> rfl

section Pair

variable {s : Setup σ τ ω} {s' : Setup σ' τ' ω'} {f : Feeder σ τ ω} {f' : Feeder σ' τ' ω'}

/-- Feeders with the same audio make the same frame. -/
theorem nextFrame_congr (hformat : s'.format = s.format)
    (hsilence : s'.silenceSamples = s.silenceSamples)
    (hbuffer : f'.pipeline.buffer = f.pipeline.buffer) :
    (nextFrame s' f').1 = (nextFrame s f).1 := by
  rw [nextFrame_eq_mixed, nextFrame_eq_mixed, hformat, hsilence, hbuffer]

/-- Feeders that count a happening alike, as far as one looks at the counters, record it alike. -/
theorem record_alike {α : Type} (view : Counters → α) {h : Happening}
    (hbefore : view f'.pipeline.counters = view f.pipeline.counters)
    (hcount : (f'.pipeline.counters.record h).map view = (f.pipeline.counters.record h).map view) :
    (f'.record h).1 = (f.record h).1 ∧
      view (f'.record h).2.pipeline.counters = view (f.record h).2.pipeline.counters := by
  rcases record_cases f h with ⟨c, hc, heq⟩ | ⟨halt, hc, heq⟩
  · rcases record_cases f' h with ⟨c', hc', heq'⟩ | ⟨halt', hc', heq'⟩
    · rw [hc, hc'] at hcount
      rw [heq, heq']
      exact ⟨rfl, Except.ok.inj hcount⟩
    · rw [hc, hc'] at hcount
      cases hcount
  · rcases record_cases f' h with ⟨c', hc', heq'⟩ | ⟨halt', hc', heq'⟩
    · rw [hc, hc'] at hcount
      cases hcount
    · rw [hc, hc'] at hcount
      rw [heq, heq', Except.error.inj hcount]
      exact ⟨rfl, hbefore⟩

/-- Up to the verdict, feeders with the same audio make the same frame, count it alike, and halt
alike. -/
theorem listen_congr (hformat : s'.format = s.format)
    (hsilence : s'.silenceSamples = s.silenceSamples)
    (haudio : f'.pipeline.audio = f.pipeline.audio) :
    (listen s' f').1.map Prod.fst = (listen s f).1.map Prod.fst ∧
      (listen s' f').2.pipeline.counters.frames = (listen s f).2.pipeline.counters.frames := by
  obtain ⟨hbuffer, hframes⟩ := AudioState.mk.inj haudio
  have hresult := nextFrame_congr hformat hsilence hbuffer
  have hmade := (touches_nextFrame s f).counters (by simp)
  have hmade' := (touches_nextFrame s' f').counters (by simp)
  unfold listen
  generalize nextFrame s f = framed at hresult hmade ⊢
  generalize nextFrame s' f' = framed' at hresult hmade' ⊢
  obtain ⟨result, made⟩ := framed
  obtain ⟨result', made'⟩ := framed'
  dsimp only at hresult hmade hmade'
  subst hresult
  rw [← hmade, ← hmade'] at hframes
  cases result' with
  | error halt => exact ⟨rfl, hframes⟩
  | ok next =>
    obtain ⟨frame, remainder⟩ := next
    have hfeed := Counters.frames_feed hframes frame.source frame.samples.length remainder
    obtain ⟨hcounted, hafter⟩ := record_alike Counters.frames hframes hfeed
    dsimp only
    generalize made.record (.fed frame.source frame.samples.length remainder) = recorded
      at hcounted hafter ⊢
    generalize made'.record (.fed frame.source frame.samples.length remainder) = recorded'
      at hcounted hafter ⊢
    obtain ⟨counted, g⟩ := recorded
    obtain ⟨counted', g'⟩ := recorded'
    have hsame : counted' = counted := hcounted
    subst hsame
    cases counted' with
    | error halt => exact ⟨rfl, hafter⟩
    | ok u =>
      refine ⟨rfl, ?_⟩
      dsimp only
      rw [(touches_heard s g frame.samples).counters (by simp),
        (touches_heard s' g' frame.samples).counters (by simp)]
      exact hafter

end Pair

section Tick

variable (s : Setup σ τ ω) (r : Reading) (f : Feeder σ τ ω)

/-- What a round does up to the verdict takes no room from the counters of answers. -/
theorem spare_listen {n : Nat} (hspare : f.pipeline.counters.Spare n) :
    (listen s f).2.pipeline.counters.Spare n := by
  have hmade := (touches_nextFrame s f).counters (by simp)
  unfold listen
  generalize nextFrame s f = framed at hmade ⊢
  obtain ⟨result, made⟩ := framed
  dsimp only at hmade
  rw [← hmade] at hspare
  cases result with
  | error halt => exact hspare
  | ok next =>
    obtain ⟨frame, remainder⟩ := next
    dsimp only
    rcases record_cases made (.fed frame.source frame.samples.length remainder) with
      ⟨c, hc, heq⟩ | ⟨halt, -, heq⟩
    · rw [heq]
      dsimp only
      rw [(touches_heard s (made.counting c) frame.samples).counters (by simp)]
      exact Counters.spare_record_fed hspare hc
    · rw [heq]
      exact hspare

/-- All frames of a round are counted before the verdict. -/
theorem frames_tick :
    (tick s r f).2.pipeline.counters.frames = (listen s f).2.pipeline.counters.frames := by
  rw [tick_eq]
  obtain ⟨result, heard⟩ := listen s f
  cases result with
  | error halt => rfl
  | ok verdict => exact (ends_conclude s r heard verdict.1 verdict.2).frames

end Tick

/-- What a round says of its frame. -/
def Outcome.report (o : Outcome) : FrameSource × Nat := (o.source, o.samples)

/-- Where answers have room, a round halts before the verdict or comes to its end. -/
theorem report_tick (s : Setup σ τ ω) (r : Reading) {f : Feeder σ τ ω} {n : Nat}
    (hspare : f.pipeline.counters.Spare (n + 1)) :
    (tick s r f).1.map Outcome.report =
        ((listen s f).1.map Prod.fst).map (fun frame => (frame.source, frame.samples.length)) ∧
      (tick s r f).2.pipeline.counters.Spare n := by
  have hheard := spare_listen s f hspare
  rw [tick_eq]
  generalize listen s f = listened at hheard ⊢
  obtain ⟨result, heard⟩ := listened
  cases result with
  | error halt => exact ⟨rfl, hheard.mono (Nat.le_succ n)⟩
  | ok verdict =>
    obtain ⟨frame, v⟩ := verdict
    obtain ⟨o, ho, hroom⟩ := (ends_conclude s r heard frame v).completes hheard
    obtain ⟨hsource, hsamples⟩ := conclude_eq_ok (Prod.ext ho rfl)
    refine ⟨?_, hroom⟩
    dsimp only
    rw [ho]
    show Except.ok (o.source, o.samples) = Except.ok (frame.source, frame.samples.length)
    rw [hsource, hsamples]

/-! ## Moves -/

/-- Something that is done with the audio. -/
inductive Move where
  | append (bytes : List UInt8)
  | clear
  | tick
  deriving DecidableEq

/-- What is seen of the audio around a move, and the round if the move was a tick. -/
structure Glimpse where
  before : AudioState
  round : Option Round
  after : AudioState

/-- A move and the feeder after it. -/
def make (s : Setup σ τ ω) (f : Feeder (σ × List RecognizerCall) τ ω) (r : Reading) :
    Move → Option Round × Feeder (σ × List RecognizerCall) τ ω
  | .append bytes =>
    (none, { f with pipeline := { f.pipeline with buffer := f.pipeline.buffer.append bytes } })
  | .clear => (none, { f with pipeline := { f.pipeline with buffer := f.pipeline.buffer.clear } })
  | .tick => (some (round s r f).1, (round s r f).2)

/-- What is seen of moves, each of which comes with what the clocks show. -/
def glimpses (s : Setup σ τ ω) (f : Feeder (σ × List RecognizerCall) τ ω) :
    List (Move × Reading) → List Glimpse
  | [] => []
  | (move, r) :: moves =>
    match make s f r move with
    | (round, g) => ⟨f.pipeline.audio, round, g.pipeline.audio⟩ :: glimpses s g moves

/-- Rounds over the same audio: they make the same frame, and if both come to their end, then both
report that frame and both recognizers hear its samples. -/
structure Round.Agree (a b : Round) : Prop where
  frame : b.frame = a.frame
  report : ∀ o o', a.outcome = .ok o → b.outcome = .ok o' →
    o'.source = o.source ∧ o'.samples = o.samples ∧ b.heard = a.heard

/-- Glimpses of the same audio before and after, with rounds that agree. -/
structure Glimpse.Agree (a b : Glimpse) : Prop where
  before : b.before = a.before
  round : Option.Rel Round.Agree a.round b.round
  after : b.after = a.after

/-- Rounds that end alike: in a report of the same frame, or in the same halt. -/
def Glimpse.EndAlike (a b : Glimpse) : Prop :=
  b.round.map (fun round => round.outcome.map Outcome.report) =
    a.round.map (fun round => round.outcome.map Outcome.report)

/-- A round takes what its frame is made of from the front of the buffer and leaves the rest, and it
reports no other frame. -/
structure Round.Exact (format : SampleFormat) (silenceSamples : Nat) (before after : Buffer)
    (round : Round) : Prop where
  frame : round.frame = (mixed format silenceSamples before).map Prod.fst
  rest : after = before.take.2
  faithful : round.Faithful

/-- If the move was a tick, its round is exact for the buffers before and after it. -/
def Glimpse.Exact (format : SampleFormat) (silenceSamples : Nat) (g : Glimpse) : Prop :=
  ∀ round, g.round = some round → round.Exact format silenceSamples g.before.buffer g.after.buffer

/-- A round is exact, whatever recognizer, outlet and medium it has. -/
theorem exact_round (s : Setup σ τ ω) (r : Reading) (f : Feeder (σ × List RecognizerCall) τ ω) :
    (round s r f).1.Exact s.format s.silenceSamples f.pipeline.buffer
      (round s r f).2.pipeline.buffer where
  frame := congrArg (Except.map Prod.fst) (nextFrame_eq_mixed s.recorded f)
  rest := buffer_tick s.recorded r f
  faithful := faithful_round s r f

/-- So are all rounds that are seen of moves. -/
theorem exact_glimpses (s : Setup σ τ ω) (moves : List (Move × Reading))
    (f : Feeder (σ × List RecognizerCall) τ ω) :
    ∀ g ∈ glimpses s f moves, g.Exact s.format s.silenceSamples := by
  induction moves generalizing f with
  | nil =>
    intro g hg
    cases hg
  | cons next moves ih =>
    obtain ⟨move, r⟩ := next
    intro g hg
    rcases List.mem_cons.mp hg with rfl | hg
    · intro this hthis
      cases move with
      | append bytes => cases hthis
      | clear => cases hthis
      | tick =>
        cases hthis
        exact exact_round s r f
    · exact ih _ g hg

section Runs

variable {s : Setup σ τ ω} {s' : Setup σ' τ' ω'} {f : Feeder (σ × List RecognizerCall) τ ω}
  {f' : Feeder (σ' × List RecognizerCall) τ' ω'}

/-- A move keeps the audio of two feeders the same. -/
theorem audio_make (hformat : s'.format = s.format)
    (hsilence : s'.silenceSamples = s.silenceSamples)
    (haudio : f'.pipeline.audio = f.pipeline.audio) (r r' : Reading) (move : Move) :
    (make s' f' r' move).2.pipeline.audio = (make s f r move).2.pipeline.audio := by
  obtain ⟨hbuffer, hframes⟩ := AudioState.mk.inj haudio
  cases move with
  | append bytes =>
    show AudioState.mk (f'.pipeline.buffer.append bytes) f'.pipeline.counters.frames =
      AudioState.mk (f.pipeline.buffer.append bytes) f.pipeline.counters.frames
    rw [hbuffer, hframes]
  | clear =>
    show AudioState.mk f'.pipeline.buffer.clear f'.pipeline.counters.frames =
      AudioState.mk f.pipeline.buffer.clear f.pipeline.counters.frames
    rw [hbuffer, hframes]
  | tick =>
    have hrecorded : s'.recorded.format = s.recorded.format := hformat
    have hlisten := listen_congr hrecorded hsilence haudio
    show AudioState.mk (tick s'.recorded r' f').2.pipeline.buffer
        (tick s'.recorded r' f').2.pipeline.counters.frames =
      AudioState.mk (tick s.recorded r f).2.pipeline.buffer
        (tick s.recorded r f).2.pipeline.counters.frames
    rw [buffer_tick, buffer_tick, frames_tick, frames_tick, hbuffer, hlisten.2]

/-- Moves of feeders with the same audio agree, whatever else is different between them. -/
theorem agree_make (hformat : s'.format = s.format)
    (hsilence : s'.silenceSamples = s.silenceSamples)
    (haudio : f'.pipeline.audio = f.pipeline.audio) (r r' : Reading) (move : Move) :
    Option.Rel Round.Agree (make s f r move).1 (make s' f' r' move).1 := by
  obtain ⟨hbuffer, -⟩ := AudioState.mk.inj haudio
  cases move with
  | append bytes => exact .none
  | clear => exact .none
  | tick =>
    have hrecorded : s'.recorded.format = s.recorded.format := hformat
    have hframe : (round s' r' f').1.frame = (round s r f).1.frame :=
      congrArg (Except.map Prod.fst) (nextFrame_congr hrecorded hsilence hbuffer)
    refine .some ⟨hframe, fun o o' ho ho' => ?_⟩
    obtain ⟨frame, hmade, hsource, hsamples, hheard⟩ := faithful_round s r f o ho
    obtain ⟨frame', hmade', hsource', hsamples', hheard'⟩ := faithful_round s' r' f' o' ho'
    have hsame : frame' = frame := by
      rw [hframe, hmade] at hmade'
      exact (Except.ok.inj hmade').symm
    rw [hsource', hsamples', hheard', hsource, hsamples, hheard, hsame]
    exact ⟨rfl, rfl, rfl⟩

/-- Where answers have room, a move ends alike for both, and uses up one place at most. -/
theorem end_make (hformat : s'.format = s.format)
    (hsilence : s'.silenceSamples = s.silenceSamples)
    (haudio : f'.pipeline.audio = f.pipeline.audio) {n : Nat}
    (hspare : f.pipeline.counters.Spare (n + 1)) (hspare' : f'.pipeline.counters.Spare (n + 1))
    (r r' : Reading) (move : Move) :
    ((make s' f' r' move).1.map fun round => round.outcome.map Outcome.report) =
        ((make s f r move).1.map fun round => round.outcome.map Outcome.report) ∧
      (make s f r move).2.pipeline.counters.Spare n ∧
        (make s' f' r' move).2.pipeline.counters.Spare n := by
  cases move with
  | append bytes => exact ⟨rfl, hspare.mono (Nat.le_succ n), hspare'.mono (Nat.le_succ n)⟩
  | clear => exact ⟨rfl, hspare.mono (Nat.le_succ n), hspare'.mono (Nat.le_succ n)⟩
  | tick =>
    have hrecorded : s'.recorded.format = s.recorded.format := hformat
    have hlisten := listen_congr hrecorded hsilence haudio
    obtain ⟨hreport, hroom⟩ := report_tick s.recorded r hspare
    obtain ⟨hreport', hroom'⟩ := report_tick s'.recorded r' hspare'
    refine ⟨congrArg some ?_, hroom, hroom'⟩
    show (tick s'.recorded r' f').1.map Outcome.report = (tick s.recorded r f).1.map Outcome.report
    rw [hreport, hreport', hlisten.1]

/-- Along the same moves, feeders with the same audio agree at every step. -/
theorem agree_glimpses (hformat : s'.format = s.format)
    (hsilence : s'.silenceSamples = s.silenceSamples)
    (haudio : f'.pipeline.audio = f.pipeline.audio) {moves moves' : List (Move × Reading)}
    (hmoves : moves'.map Prod.fst = moves.map Prod.fst) :
    List.Forall₂ Glimpse.Agree (glimpses s f moves) (glimpses s' f' moves') := by
  induction moves generalizing f f' moves' with
  | nil =>
    rw [List.map_eq_nil_iff.mp hmoves]
    exact .nil
  | cons next moves ih =>
    obtain ⟨move, r⟩ := next
    obtain ⟨⟨move', r'⟩, rest, rfl, hmove, hrest⟩ := List.map_eq_cons_iff.mp hmoves
    have hsame : move' = move := hmove
    subst hsame
    have hafter := audio_make hformat hsilence haudio r r' move'
    have hround := agree_make hformat hsilence haudio r r' move'
    exact .cons ⟨haudio, hround, hafter⟩ (ih hafter hrest)

/-- With room for the answers, the rounds of such feeders also end alike. -/
theorem endAlike_glimpses (hformat : s'.format = s.format)
    (hsilence : s'.silenceSamples = s.silenceSamples)
    (haudio : f'.pipeline.audio = f.pipeline.audio) {moves moves' : List (Move × Reading)}
    (hmoves : moves'.map Prod.fst = moves.map Prod.fst)
    (hspare : f.pipeline.counters.Spare moves.length)
    (hspare' : f'.pipeline.counters.Spare moves.length) :
    List.Forall₂ Glimpse.EndAlike (glimpses s f moves) (glimpses s' f' moves') := by
  induction moves generalizing f f' moves' with
  | nil =>
    rw [List.map_eq_nil_iff.mp hmoves]
    exact .nil
  | cons next moves ih =>
    obtain ⟨move, r⟩ := next
    obtain ⟨⟨move', r'⟩, rest, rfl, hmove, hrest⟩ := List.map_eq_cons_iff.mp hmoves
    have hsame : move' = move := hmove
    subst hsame
    have hafter := audio_make hformat hsilence haudio r r' move'
    obtain ⟨hend, hroom, hroom'⟩ :=
      end_make hformat hsilence haudio hspare hspare' r r' move'
    exact .cons hend (ih hafter hrest hroom hroom')

end Runs

/-- Two feeders with the same audio get the same moves. Whatever their recognizers and outlets
answer, whether they keep a log and note hypotheses, and whatever their clocks show: around every
move their buffers and the numbers that count frames are the same, and every tick makes the same
frame of both, reports it alike and gives the same samples to the recognizer. In each run a round,
also one that ends in a fault, takes just the bytes of its frame from the buffer. Only where a
counter of answers is full does one of two ticks halt alone. -/
theorem audio_independent {s : Setup σ τ ω} {s' : Setup σ' τ' ω'} (hformat : s'.format = s.format)
    (hsilence : s'.silenceSamples = s.silenceSamples) {f : Feeder (σ × List RecognizerCall) τ ω}
    {f' : Feeder (σ' × List RecognizerCall) τ' ω'}
    (haudio : f'.pipeline.audio = f.pipeline.audio) {moves moves' : List (Move × Reading)}
    (hmoves : moves'.map Prod.fst = moves.map Prod.fst) :
    List.Forall₂ Glimpse.Agree (glimpses s f moves) (glimpses s' f' moves') ∧
      (∀ g ∈ glimpses s f moves, g.Exact s.format s.silenceSamples) ∧
      (f.pipeline.counters.Spare moves.length → f'.pipeline.counters.Spare moves.length →
        List.Forall₂ Glimpse.EndAlike (glimpses s f moves) (glimpses s' f' moves')) := by
  have hexact := exact_glimpses s moves f
  refine ⟨agree_glimpses hformat hsilence haudio hmoves, hexact, fun hspare hspare' => ?_⟩
  exact endAlike_glimpses hformat hsilence haudio hmoves hspare hspare'

/-- A recognizer that fails on every second frame, an outlet that refuses the second transcript and
a log on a full device, beside the null recognizer with no log: the faults cost no audio. -/
theorem audio_independent_scripted :
    let script : Recognizer Nat :=
      { name := "scripted"
        accept := fun _ n => (if n % 2 = 1 then .error (.decode "odd") else .ok true, n + 1)
        result := fun n => (.ok "[\"oui\"]", n)
        partialResult := fun n => (.error (.decode "no hypothesis"), n)
        finalResult := fun n => (.ok "[\"\"]", n) }
    let once : Outlet Nat := ⟨fun _ n => (if n = 0 then .ok () else .error .closed, n + 1)⟩
    let s : Setup Nat Nat Disk := ⟨.stereo, 2, true, script, once, Disk.medium⟩
    let s' : Setup Unit TranscriptQueue Disk :=
      ⟨.stereo, 2, false, Recognizer.null, TranscriptQueue.outlet, Disk.medium⟩
    let b : Buffer := ⟨4, 4, [], by decide⟩
    let f : Feeder (Nat × List RecognizerCall) Nat Disk :=
      { Feeder.create (0, []) 0 .full (.create b) with pcmLog := some ⟨true, 0⟩ }
    let f' : Feeder (Unit × List RecognizerCall) TranscriptQueue Disk :=
      .create ((), []) .create (.file []) (.create b)
    let moves (r : Reading) : List (Move × Reading) :=
      [(.append [100, 0, 200, 0, 7], r), (.tick, r), (.append [0, 9, 0, 11], r), (.tick, r),
        (.clear, r), (.tick, r)]
    let early : List (Move × Reading) := moves ⟨⟨0⟩, ⟨7, 0⟩, 0⟩
    let late : List (Move × Reading) := moves ⟨⟨1⟩, ⟨8, 0⟩, 5⟩
    let faults (seen : List Glimpse) : List (Option Bool) := seen.map fun g =>
      g.round.map fun round => (round.outcome.map fun o => o.fault.isSome).toOption = some true
    s'.format = s.format ∧ s'.silenceSamples = s.silenceSamples ∧
      f'.pipeline.audio = f.pipeline.audio ∧ late.map Prod.fst = early.map Prod.fst ∧
      f.pipeline.counters.Spare early.length ∧ f'.pipeline.counters.Spare early.length ∧
      faults (glimpses s f early) = [none, some false, none, some true, none, some false] ∧
      (glimpses s f early).map (fun g => g.round.map Round.heard) =
        [none, some [150], none, some [8], none, some [0, 0]] ∧
      List.Forall₂ Glimpse.Agree (glimpses s f early) (glimpses s' f' late) ∧
      List.Forall₂ Glimpse.EndAlike (glimpses s f early) (glimpses s' f' late) := by
  intro script once s s' b f f' moves early late faults
  have haudio : f'.pipeline.audio = f.pipeline.audio := rfl
  have hmoves : late.map Prod.fst = early.map Prod.fst := rfl
  have hspare : f.pipeline.counters.Spare early.length := by
    constructor <;> decide
  have hspare' : f'.pipeline.counters.Spare early.length := by
    constructor <;> decide
  have hformat : s'.format = s.format := rfl
  have hsilence : s'.silenceSamples = s.silenceSamples := rfl
  have h := audio_independent hformat hsilence haudio hmoves
  refine ⟨rfl, rfl, haudio, hmoves, hspare, hspare', ?_, ?_, h.1, h.2.2 hspare hspare'⟩
  · decide +kernel
  · decide +kernel

end Feeder

end SpeechRelay
