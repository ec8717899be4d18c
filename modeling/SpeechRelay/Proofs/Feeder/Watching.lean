import SpeechRelay.Proofs.Feeder.Touches

/-!
# Watching a feeder

What passes between the feeder and its recognizer, and between the feeder and its outlet, is not
part of its state. A watched setup keeps it beside the states of the two: every exchange with the
recognizer, and every transcript offered to the outlet with the answer.

Watching changes nothing (`tick_image`, `finish_image`). This is a case of a more general fact: if
the recognizer and the outlet of a setup answer like those of another one, and their states are
taken to states of the other by two maps, then so is the whole feeder.
-/

set_option autoImplicit false

namespace SpeechRelay.Feeder

open Audio

variable {σ τ ω σ' τ' : Type}

/-! ## What emitting comes to -/

section Emit

/-- An outlet is left as it was, or one transcript is offered to it. -/
def OffersOnce (o : Outlet τ) (before after : τ) : Prop :=
  after = before ∨ ∃ t, after = (o.emit t before).2

variable (s : Setup σ τ ω) (r : Reading) (f : Feeder σ τ ω)

/-- Emitting a text offers one transcript at most. -/
theorem offersOnce_emit (text : String) :
    OffersOnce s.outlet f.outlet (emit s r text f).2.outlet := by
  by_cases htext : text = ""
  · subst htext
    exact Or.inl rfl
  · right
    refine ⟨offered r f text, ?_⟩
    cases hanswer : s.outlet.emit (offered r f text) f.outlet with
    | mk answer outlet =>
      cases answer with
      | ok accepted =>
        rw [emit_of_accepted r htext hanswer]
        exact ((touches_record s (told r f text outlet) rfl).outlet (by simp)).1
      | error why =>
        rw [emit_of_refused r htext hanswer]
        exact ((touches_record s ((told r f text outlet).note [.transcriptDropped why])
          rfl).outlet (by simp)).1

/-- So does the end of a round. -/
theorem offersOnce_conclude (frame : MonoFrame) (v : Verdict) :
    OffersOnce s.outlet f.outlet (conclude s r frame v f).2.outlet := by
  cases v with
  | nothing => exact Or.inl rfl
  | fault why =>
    left
    have hcount := ((touches_record s (f.note [.frameSkipped frame.source])
      (h := .recognizerFailed) rfl).outlet (by simp)).1
    rw [conclude_fault]
    generalize (f.note [.frameSkipped frame.source]).record .recognizerFailed = recorded
      at hcount ⊢
    obtain ⟨counted, g⟩ := recorded
    cases counted <;> exact hcount
  | utterance text =>
    rw [conclude_utterance]
    exact offersOnce_emit s r (f.enter .emitting) text

/-- The end of a run offers one transcript at most. -/
theorem offersOnce_finish : OffersOnce s.outlet f.outlet (finish s r f).2.outlet := by
  unfold finish
  split
  · exact Or.inl rfl
  · next answer state heq =>
    cases Recognizer.readFinal answer with
    | error why => exact Or.inl rfl
    | ok text =>
      have hemit := offersOnce_emit s r (f.hearing state) text
      dsimp only
      generalize emit s r text (f.hearing state) = emitted at hemit ⊢
      obtain ⟨result, g⟩ := emitted
      cases result <;> exact hemit

end Emit

/-! ## Setups that answer alike -/

/-- The setups differ only in what the states of their recognizers and outlets hold. -/
structure Setup.Resembles (s' : Setup σ' τ' ω) (s : Setup σ τ ω) (p : σ' → σ) (q : τ' → τ) :
    Prop where
  format : s'.format = s.format
  silenceSamples : s'.silenceSamples = s.silenceSamples
  logHypotheses : s'.logHypotheses = s.logHypotheses
  medium : s'.medium = s.medium
  accept : ∀ samples x,
    s.recognizer.accept samples (p x) = (s'.recognizer.accept samples x).map id p
  result : ∀ x, s.recognizer.result (p x) = (s'.recognizer.result x).map id p
  partialResult : ∀ x,
    s.recognizer.partialResult (p x) = (s'.recognizer.partialResult x).map id p
  finalResult : ∀ x, s.recognizer.finalResult (p x) = (s'.recognizer.finalResult x).map id p
  emit : ∀ t y, s.outlet.emit t (q y) = (s'.outlet.emit t y).map id q

/-- The feeder with mapped states of its recognizer and its outlet. -/
def image (p : σ' → σ) (q : τ' → τ) (f : Feeder σ' τ' ω) : Feeder σ τ ω where
  stage := f.stage
  recognizer := p f.recognizer
  outlet := q f.outlet
  pcmLog := f.pcmLog
  medium := f.medium
  lastTranscript := f.lastTranscript
  pipeline := f.pipeline

section Image

variable {s' : Setup σ' τ' ω} {s : Setup σ τ ω} {p : σ' → σ} {q : τ' → τ}

/-- Recording does not look into recognizer or outlet. -/
theorem record_image (f : Feeder σ' τ' ω) (h : Happening) :
    (f.image p q).record h = (f.record h).map id (image p q) := by
  have hpipeline : (f.image p q).pipeline = f.pipeline := rfl
  unfold record
  rw [hpipeline]
  cases f.pipeline.record h <;> rfl

/-- Writing samples to the log does not look into recognizer or outlet. -/
theorem logSamples_image (hs : s'.Resembles s p q) (samples : List Int16) (f : Feeder σ' τ' ω) :
    logSamples s samples (f.image p q) = (logSamples s' samples f).image p q := by
  have hlog : (f.image p q).pcmLog = f.pcmLog := rfl
  unfold logSamples
  rw [hs.medium, hlog]
  cases f.pcmLog <;> rfl

/-- Making a frame does not look into recognizer or outlet. -/
theorem nextFrame_image (hs : s'.Resembles s p q) (f : Feeder σ' τ' ω) :
    nextFrame s (f.image p q) = (nextFrame s' f).map id (image p q) := by
  have hbuffer : (f.image p q).pipeline.buffer.take = f.pipeline.buffer.take := rfl
  unfold nextFrame
  rw [hbuffer, hs.format, hs.silenceSamples]
  obtain ⟨chunk, buffer⟩ := f.pipeline.buffer.take
  cases chunk with
  | none =>
    dsimp only
    cases silence s.silenceSamples <;> rfl
  | some chunk =>
    dsimp only
    cases s.format.downmix chunk.bytes <;> rfl

/-- A hypothesis is the same from either recognizer. -/
theorem askHypothesis_image (hs : s'.Resembles s p q) (f : Feeder σ' τ' ω) :
    askHypothesis s (f.image p q) = (askHypothesis s' f).map id (image p q) := by
  have hanswer : s.recognizer.partialResult (f.image p q).recognizer =
      (s'.recognizer.partialResult f.recognizer).map id p := hs.partialResult f.recognizer
  unfold askHypothesis
  rw [hanswer]
  obtain ⟨answer, state⟩ := s'.recognizer.partialResult f.recognizer
  cases answer with
  | error why => rfl
  | ok json =>
    dsimp only [Prod.map, id]
    cases Recognizer.readPartial json <;> rfl

/-- An utterance is the same from either recognizer. -/
theorem askUtterance_image (hs : s'.Resembles s p q) (f : Feeder σ' τ' ω) :
    askUtterance s (f.image p q) = (askUtterance s' f).map id (image p q) := by
  have hanswer : s.recognizer.result (f.image p q).recognizer =
      (s'.recognizer.result f.recognizer).map id p := hs.result f.recognizer
  unfold askUtterance
  rw [hanswer]
  obtain ⟨answer, state⟩ := s'.recognizer.result f.recognizer
  cases answer with
  | error why => rfl
  | ok json =>
    dsimp only [Prod.map, id]
    cases Recognizer.readFinal json <;> rfl

/-- A frame is heard the same by either recognizer. -/
theorem hear_image (hs : s'.Resembles s p q) (samples : List Int16) (f : Feeder σ' τ' ω) :
    hear s samples (f.image p q) = (hear s' samples f).map id (image p q) := by
  have hanswer : s.recognizer.accept samples (f.image p q).recognizer =
      (s'.recognizer.accept samples f.recognizer).map id p := hs.accept samples f.recognizer
  unfold hear
  by_cases hempty : samples.isEmpty
  · rw [if_pos hempty, if_pos hempty]
    rfl
  · rw [if_neg hempty, if_neg hempty, hanswer, hs.logHypotheses]
    obtain ⟨answer, state⟩ := s'.recognizer.accept samples f.recognizer
    cases answer with
    | error why => rfl
    | ok ended =>
      cases ended with
      | true => exact askUtterance_image hs (f.hearing state)
      | false =>
        dsimp only [Prod.map, id]
        cases s.logHypotheses with
        | false => rfl
        | true => exact askHypothesis_image hs (f.hearing state)

/-- A text is emitted the same to either outlet. -/
theorem emit_image (hs : s'.Resembles s p q) (r : Reading) (text : String)
    (f : Feeder σ' τ' ω) :
    emit s r text (f.image p q) = (emit s' r text f).map id (image p q) := by
  by_cases htext : text = ""
  · subst htext
    rfl
  · have hoffer : s.outlet.emit (offered r (f.image p q) text) (f.image p q).outlet =
        (s'.outlet.emit (offered r f text) f.outlet).map id q := hs.emit _ _
    cases hanswer : s'.outlet.emit (offered r f text) f.outlet with
    | mk answer outlet =>
      rw [hanswer] at hoffer
      cases answer with
      | ok accepted =>
        rw [emit_of_accepted r htext hanswer, emit_of_accepted r htext hoffer,
          show told r (f.image p q) text (q outlet) = (told r f text outlet).image p q from rfl,
          record_image]
        rfl
      | error why =>
        rw [emit_of_refused r htext hanswer, emit_of_refused r htext hoffer,
          show (told r (f.image p q) text (q outlet)).note [.transcriptDropped why] =
            ((told r f text outlet).note [.transcriptDropped why]).image p q from rfl,
          record_image]
        rfl

/-- A round ends the same with either outlet. -/
theorem conclude_image (hs : s'.Resembles s p q) (r : Reading) (frame : MonoFrame) (v : Verdict)
    (f : Feeder σ' τ' ω) :
    conclude s r frame v (f.image p q) = (conclude s' r frame v f).map id (image p q) := by
  cases v with
  | nothing => rfl
  | fault why =>
    rw [conclude_fault, conclude_fault, show (f.image p q).note [.frameSkipped frame.source] =
      (f.note [.frameSkipped frame.source]).image p q from rfl, record_image]
    obtain ⟨counted, g⟩ := (f.note [.frameSkipped frame.source]).record .recognizerFailed
    cases counted <;> rfl
  | utterance text =>
    rw [conclude_utterance, conclude_utterance,
      show (f.image p q).enter .emitting = (f.enter .emitting).image p q from rfl, emit_image hs]
    rfl

/-- A round goes the same up to its verdict. -/
theorem listen_image (hs : s'.Resembles s p q) (f : Feeder σ' τ' ω) :
    listen s (f.image p q) = (listen s' f).map id (image p q) := by
  unfold listen
  rw [nextFrame_image hs]
  obtain ⟨result, made⟩ := nextFrame s' f
  cases result with
  | error halt => rfl
  | ok next =>
    obtain ⟨frame, remainder⟩ := next
    dsimp only [Prod.map, id]
    rw [record_image]
    obtain ⟨counted, g⟩ := made.record (.fed frame.source frame.samples.length remainder)
    cases counted with
    | error halt => rfl
    | ok u =>
      dsimp only [Prod.map, id]
      rw [logSamples_image hs, show ((logSamples s' frame.samples g).image p q).enter .recognizing =
        ((logSamples s' frame.samples g).enter .recognizing).image p q from rfl, hear_image hs]
      rfl

/-- A round is the same for setups that answer alike. -/
theorem tick_image (hs : s'.Resembles s p q) (r : Reading) (f : Feeder σ' τ' ω) :
    tick s r (f.image p q) = (tick s' r f).map id (image p q) := by
  rw [tick_eq, tick_eq, listen_image hs]
  obtain ⟨result, heard⟩ := listen s' f
  cases result with
  | error halt => rfl
  | ok verdict => exact conclude_image hs r verdict.1 verdict.2 heard

/-- So is the end. -/
theorem finish_image (hs : s'.Resembles s p q) (r : Reading) (f : Feeder σ' τ' ω) :
    finish s r (f.image p q) = (finish s' r f).map id (image p q) := by
  have hanswer : s.recognizer.finalResult (f.image p q).recognizer =
      (s'.recognizer.finalResult f.recognizer).map id p := hs.finalResult f.recognizer
  unfold finish
  rw [hanswer]
  obtain ⟨answer, state⟩ := s'.recognizer.finalResult f.recognizer
  cases answer with
  | error why => rfl
  | ok json =>
    dsimp only [Prod.map, id]
    cases Recognizer.readFinal json with
    | error why => rfl
    | ok text =>
      have hemit := emit_image hs r text (f.hearing state)
      dsimp only
      rw [show (f.image p q).hearing (p state) = (f.hearing state).image p q from rfl, hemit]
      obtain ⟨result, g⟩ := emit s' r text (f.hearing state)
      cases result <;> rfl

end Image

/-! ## The watched setup -/

/-- What the recognizer was asked, and its answer. -/
inductive Exchange where
  | accept (samples : List Int16) (answer : Except RecognizerError Bool)
  | result (answer : Except RecognizerError String)
  | partialResult (answer : Except RecognizerError String)
  | finalResult (answer : Except RecognizerError String)

/-- A transcript that was offered to the outlet, and its answer. -/
structure Offer where
  transcript : Transcript
  answer : Except OutletError Unit

/-- An answer that is kept behind those before it. -/
def keeping {α ε : Type} (entry : α → ε) (kept : List ε) (answer : α × σ) : α × (σ × List ε) :=
  (answer.1, (answer.2, kept ++ [entry answer.1]))

/-- The setup with a recognizer and an outlet that keep what they are asked and what they answer. -/
def Setup.watched (s : Setup σ τ ω) : Setup (σ × List Exchange) (τ × List Offer) ω where
  format := s.format
  silenceSamples := s.silenceSamples
  logHypotheses := s.logHypotheses
  recognizer :=
    { name := s.recognizer.name
      accept := fun samples x =>
        keeping (.accept samples) x.2 (s.recognizer.accept samples x.1)
      result := fun x => keeping .result x.2 (s.recognizer.result x.1)
      partialResult := fun x => keeping .partialResult x.2 (s.recognizer.partialResult x.1)
      finalResult := fun x => keeping .finalResult x.2 (s.recognizer.finalResult x.1) }
  outlet := ⟨fun t y => keeping (Offer.mk t) y.2 (s.outlet.emit t y.1)⟩
  medium := s.medium

/-- A feeder that also holds what has been kept. -/
abbrev Watched (σ τ ω : Type) : Type := Feeder (σ × List Exchange) (τ × List Offer) ω

/-- The feeder before anything has been kept. -/
def watched (f : Feeder σ τ ω) : Watched σ τ ω := f.image (·, []) (·, [])

/-- The feeder without what has been kept. -/
def plain (f : Watched σ τ ω) : Feeder σ τ ω := f.image Prod.fst Prod.fst

/-- Keeping what happens does not change what happens. -/
theorem resembles_watched (s : Setup σ τ ω) : s.watched.Resembles s Prod.fst Prod.fst :=
  ⟨rfl, rfl, rfl, rfl, fun _ _ => rfl, fun _ => rfl, fun _ => rfl, fun _ => rfl, fun _ _ => rfl⟩

/-! ## Runs -/

/-- Something that is done with a feeder. -/
inductive Act where
  | append (bytes : List UInt8)
  | tick (r : Reading)
  | finish (r : Reading)

/-- The feeder after an act, and the transcript that the act says it has emitted. -/
def perform (s : Setup σ τ ω) (f : Feeder σ τ ω) : Act → Result σ τ ω (Option Transcript)
  | .append bytes =>
    (.ok none, { f with pipeline := { f.pipeline with
      buffer := f.pipeline.buffer.append bytes } })
  | .tick r => (tick s r f).map (Except.map Outcome.emitted) id
  | .finish r => finish s r f

/-- Acts one after the other, each with what it says it has emitted. -/
def performAll (s : Setup σ τ ω) (f : Feeder σ τ ω) :
    List Act → List (Except Halt (Option Transcript)) × Feeder σ τ ω
  | [] => ([], f)
  | act :: acts =>
    match perform s f act with
    | (emitted, f) =>
      match performAll s f acts with
      | (rest, f) => (emitted :: rest, f)

/-- What was seen of one act. -/
structure Turn where
  emitted : Except Halt (Option Transcript)
  exchanges : List Exchange
  offers : List Offer

/-- An act as it is seen. -/
def turn (s : Setup σ τ ω) (f : Watched σ τ ω) (act : Act) : Turn × Watched σ τ ω :=
  match perform s.watched f act with
  | (emitted, g) =>
    (⟨emitted, g.recognizer.2.drop f.recognizer.2.length, g.outlet.2.drop f.outlet.2.length⟩, g)

/-- Acts one after the other, as they are seen. -/
def turns (s : Setup σ τ ω) (f : Watched σ τ ω) : List Act → List Turn × Watched σ τ ω
  | [] => ([], f)
  | act :: acts =>
    match turn s f act with
    | (this, f) =>
      match turns s f acts with
      | (rest, f) => (this :: rest, f)

/-- An act is the same for a watched feeder and one that nobody watches. -/
theorem perform_plain (s : Setup σ τ ω) (f : Watched σ τ ω) (act : Act) :
    perform s f.plain act = (perform s.watched f act).map id plain := by
  cases act with
  | append bytes => rfl
  | tick r =>
    unfold perform
    dsimp only
    rw [plain, tick_image (resembles_watched s)]
    rfl
  | finish r => exact finish_image (resembles_watched s) r f

/-- Whoever watches a run sees the acts end as they do when nobody watches. -/
theorem performAll_plain (s : Setup σ τ ω) (f : Watched σ τ ω) (acts : List Act) :
    performAll s f.plain acts = ((turns s f acts).1.map Turn.emitted, (turns s f acts).2.plain) := by
  induction acts generalizing f with
  | nil => rfl
  | cons act acts ih =>
    rw [performAll, perform_plain, turns, turn]
    have hrest := ih (perform s.watched f act).2
    dsimp only [Prod.map, id]
    rw [hrest]
    rfl

end SpeechRelay.Feeder
