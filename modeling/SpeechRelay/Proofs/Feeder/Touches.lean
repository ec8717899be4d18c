import Mathlib.Logic.Relation
import Mathlib.Tactic.Common
import SpeechRelay.Feeder.Basic

/-!
# What the parts of a round touch

A feeder has aspects: its stage, the journal, the counters, the states of its recognizer and of its
outlet, the buffer, and the log of samples. `Touch` lists all that a part of a round does to one of
them, and `Touches s aspects f g` says that from `f` to `g` nothing else was touched than these.

For every part there is one lemma that names its aspects, also when a limit of the machine halts it
half-way: `touches_hear`, `touches_emit`, `touches_conclude` and so on, up to `touches_tick` and
`touches_finish`. What a part leaves alone follows from its lemma and from what a single touch
leaves alone (`Touches.same`).
-/

set_option autoImplicit false

namespace SpeechRelay

/-- Whether an entry is about a frame, an utterance or a transcript. -/
def JournalEntry.isOfRound : JournalEntry → Bool
  | .partialUnit _ | .trailingBytes _ | .hypothesis _ | .frameSkipped _ | .flushFailed _
  | .utterance _ | .transcriptDropped _ => true
  | _ => false

/-- Whether the feeder counts such happenings. -/
def Happening.isOfFeeder : Happening → Bool
  | .fed _ _ _ | .transcribed _ | .recognizerFailed | .outletRefused => true
  | _ => false

namespace Feeder

open Audio

variable {σ τ ω : Type}

/-! ## The parts in other words -/

section Parts

variable (s : Setup σ τ ω) (r : Reading) (f : Feeder σ τ ω)

/-- The feeder with other counters. -/
def counting (c : Counters) : Feeder σ τ ω :=
  { f with pipeline := { f.pipeline with counters := c } }

/-- Counting a happening either changes the counters and nothing else, or halts and changes
nothing. -/
theorem record_cases (h : Happening) :
    (∃ c, f.pipeline.counters.record h = .ok c ∧ f.record h = (.ok (), f.counting c)) ∨
      (∃ halt, f.pipeline.counters.record h = .error halt ∧ f.record h = (.error halt, f)) := by
  unfold record Pipeline.record
  cases f.pipeline.counters.record h with
  | ok c => exact Or.inl ⟨c, rfl, rfl⟩
  | error halt => exact Or.inr ⟨halt, rfl, rfl⟩

/-- A round up to the verdict of the recognizer on its frame. -/
def listen : Result σ τ ω (MonoFrame × Verdict) :=
  match nextFrame s f with
  | (.error halt, f) => (.error halt, f)
  | (.ok (frame, remainder), f) =>
    match f.record (.fed frame.source frame.samples.length remainder) with
    | (.error halt, f) => (.error halt, f)
    | (.ok (), f) =>
      match hear s frame.samples ((logSamples s frame.samples f).enter .recognizing) with
      | (verdict, f) => (.ok (frame, verdict), f)

/-- A round comes to a verdict and concludes from it. -/
theorem tick_eq : tick s r f =
    match listen s f with
    | (.error halt, f) => (.error halt, f)
    | (.ok (frame, verdict), f) => conclude s r frame verdict f := by
  unfold tick listen
  obtain ⟨result, made⟩ := nextFrame s f
  cases result with
  | error halt => rfl
  | ok next =>
    dsimp only
    obtain ⟨counted, g⟩ := made.record (.fed next.1.source next.1.samples.length next.2)
    cases counted <;> rfl

/-- The transcript that is offered for a text. -/
def offered (text : String) : Transcript :=
  Transcript.make text ⟨r.id, r.now, Calendar.Span.ofNanos (r.uptime - f.lastTranscript)⟩

/-- The feeder after it has offered the transcript of a text, before it has counted that. -/
def told (text : String) (outlet : τ) : Feeder σ τ ω :=
  { ({ f with lastTranscript := r.uptime }).note [.utterance text] with outlet }

variable {s f} {text : String} {outlet : τ}

/-- A transcript that the outlet accepts is counted and emitted. -/
theorem emit_of_accepted (htext : text ≠ "")
    (h : s.outlet.emit (offered r f text) f.outlet = (.ok (), outlet)) :
    emit s r text f = ((told r f text outlet).record (.transcribed r.now)).map
      (Except.map fun _ => some (offered r f text)) id := by
  have hemit : s.outlet.emit (Transcript.make text
      ⟨r.id, r.now, Calendar.Span.ofNanos (r.uptime - f.lastTranscript)⟩)
      (({ f with lastTranscript := r.uptime }).note [.utterance text]).outlet =
        (.ok (), outlet) := h
  cases hrecord : (told r f text outlet).record (.transcribed r.now) with
  | mk counted g =>
    have hcount : Feeder.record
        { ({ f with lastTranscript := r.uptime }).note [.utterance text] with outlet }
        (.transcribed (Transcript.make text
          ⟨r.id, r.now, Calendar.Span.ofNanos (r.uptime - f.lastTranscript)⟩).timestamp) =
          (counted, g) := hrecord
    unfold emit
    rw [if_neg htext]
    simp only [hemit, hcount]
    cases counted <;> rfl

/-- A transcript that the outlet refuses is dropped, and the refusal is noted and counted. -/
theorem emit_of_refused (htext : text ≠ "") {why : OutletError}
    (h : s.outlet.emit (offered r f text) f.outlet = (.error why, outlet)) :
    emit s r text f =
      (((told r f text outlet).note [.transcriptDropped why]).record .outletRefused).map
        (Except.map fun _ => none) id := by
  have hemit : s.outlet.emit (Transcript.make text
      ⟨r.id, r.now, Calendar.Span.ofNanos (r.uptime - f.lastTranscript)⟩)
      (({ f with lastTranscript := r.uptime }).note [.utterance text]).outlet =
        (.error why, outlet) := h
  cases hrecord : ((told r f text outlet).note [.transcriptDropped why]).record .outletRefused with
  | mk counted g =>
    have hcount : Feeder.record (Feeder.note
        { ({ f with lastTranscript := r.uptime }).note [.utterance text] with outlet }
        [.transcriptDropped why]) .outletRefused = (counted, g) := hrecord
    unfold emit
    rw [if_neg htext]
    simp only [hemit, hcount]
    cases counted <;> rfl

/-- Behind a fault, the round notes and counts it, and waits if it could be counted. -/
theorem conclude_fault (frame : MonoFrame) (why : RecognizerError) :
    conclude s r frame (.fault why) f =
      (match (f.note [.frameSkipped frame.source]).record .recognizerFailed with
      | (counted, g) =>
        (counted.map fun _ => ⟨frame.source, frame.samples.length, none, some why⟩,
          if counted.isOk then g.enter .awaiting else g)) := by
  unfold conclude
  dsimp only
  obtain ⟨counted, g⟩ := (f.note [.frameSkipped frame.source]).record .recognizerFailed
  cases counted <;> rfl

/-- Behind an utterance that has ended, the round emits its text. -/
theorem conclude_utterance (frame : MonoFrame) :
    conclude s r frame (.utterance text) f = (emit s r text (f.enter .emitting)).map
      (Except.map fun emitted => ⟨frame.source, frame.samples.length, emitted, none⟩) id := by
  unfold conclude
  dsimp only
  obtain ⟨result, g⟩ := emit s r text (f.enter .emitting)
  cases result <;> rfl

end Parts

/-! ## Touches -/

/-- What of a feeder a part of a round may touch. -/
inductive Aspect where
  | stage
  | journal
  | counters
  | recognizer
  | outlet
  | buffer
  | log
  deriving DecidableEq

/-- All that is ever done to one aspect at a time. -/
inductive Touch (s : Setup σ τ ω) : Aspect → Feeder σ τ ω → Feeder σ τ ω → Prop where
  | stage (f : Feeder σ τ ω) (stage : Stage) : Touch s .stage f (f.enter stage)
  | journal (f : Feeder σ τ ω) (entries : Journal) (h : ∀ entry ∈ entries, entry.isOfRound) :
    Touch s .journal f (f.note entries)
  | counters (f : Feeder σ τ ω) (h : Happening) (c : Counters) (hh : h.isOfFeeder)
    (hc : f.pipeline.counters.record h = .ok c) : Touch s .counters f (f.counting c)
  | recognizer (f : Feeder σ τ ω) (state : σ) : Touch s .recognizer f (f.hearing state)
  | outlet (f : Feeder σ τ ω) (uptime : Nat) (t : Transcript) :
    Touch s .outlet f
      { f with lastTranscript := uptime, outlet := (s.outlet.emit t f.outlet).2 }
  | buffer (f : Feeder σ τ ω) :
    Touch s .buffer f
      { f with pipeline := { f.pipeline with buffer := f.pipeline.buffer.take.2 } }
  | log (f : Feeder σ τ ω) (pcmLog : Option PcmLog) (medium : ω) (entries : Journal)
    (h : ∀ entry ∈ entries, entry = .pcmLogUnavailable) :
    Touch s .log f ({ f with pcmLog, medium }.note entries)

/-- From one feeder to the other only these aspects have been touched. -/
def Touches (s : Setup σ τ ω) (aspects : List Aspect) : Feeder σ τ ω → Feeder σ τ ω → Prop :=
  Relation.ReflTransGen fun f g => ∃ aspect ∈ aspects, Touch s aspect f g

namespace Touches

variable {s : Setup σ τ ω} {aspects more : List Aspect} {f g h : Feeder σ τ ω}

/-- Nothing done touches nothing. -/
theorem refl (f : Feeder σ τ ω) : Touches s aspects f f := Relation.ReflTransGen.refl

/-- What is touched in two stretches is all that is touched over both. -/
theorem trans (hfirst : Touches s aspects f g) (hsecond : Touches s aspects g h) :
    Touches s aspects f h :=
  Relation.ReflTransGen.trans hfirst hsecond

/-- One touch more. -/
theorem touch {aspect : Aspect} (hfg : Touches s aspects f g) (ht : Touch s aspect g h)
    (hmem : aspect ∈ aspects) : Touches s aspects f h :=
  Relation.ReflTransGen.tail hfg ⟨aspect, hmem, ht⟩

/-- More aspects may be named than are touched. -/
theorem mono (hfg : Touches s aspects f g) (hsub : ∀ aspect ∈ aspects, aspect ∈ more) :
    Touches s more f g := by
  refine Relation.ReflTransGen.mono ?_ f g hfg
  rintro f g ⟨aspect, hmem, ht⟩
  exact ⟨aspect, hsub aspect hmem, ht⟩

/-- What no touch of these aspects changes is the same before and after. -/
theorem same {α : Type} (hfg : Touches s aspects f g) (field : Feeder σ τ ω → α)
    (hfield : ∀ aspect ∈ aspects, ∀ f g, Touch s aspect f g → field g = field f) :
    field g = field f := by
  induction hfg with
  | refl => rfl
  | tail _ hlast ih =>
    obtain ⟨aspect, hmem, ht⟩ := hlast
    exact (hfield aspect hmem _ _ ht).trans ih

/-- An untouched buffer is the same. -/
theorem buffer (hfg : Touches s aspects f g) (hnot : .buffer ∉ aspects) :
    g.pipeline.buffer = f.pipeline.buffer := by
  apply hfg.same fun f => f.pipeline.buffer
  intro aspect hmem f g ht
  cases ht with
  | buffer => exact absurd hmem hnot
  | _ => rfl

/-- Untouched counters are the same. -/
theorem counters (hfg : Touches s aspects f g) (hnot : .counters ∉ aspects) :
    g.pipeline.counters = f.pipeline.counters := by
  apply hfg.same fun f => f.pipeline.counters
  intro aspect hmem f g ht
  cases ht with
  | counters => exact absurd hmem hnot
  | _ => rfl

/-- An untouched recognizer is in the same state. -/
theorem recognizer (hfg : Touches s aspects f g) (hnot : .recognizer ∉ aspects) :
    g.recognizer = f.recognizer := by
  apply hfg.same Feeder.recognizer
  intro aspect hmem f g ht
  cases ht with
  | recognizer => exact absurd hmem hnot
  | _ => rfl

/-- Without a touch of the outlet, the time of the last transcript is the same, too. -/
theorem outlet (hfg : Touches s aspects f g) (hnot : .outlet ∉ aspects) :
    g.outlet = f.outlet ∧ g.lastTranscript = f.lastTranscript := by
  apply Prod.mk.inj
  apply hfg.same fun f => (f.outlet, f.lastTranscript)
  intro aspect hmem f g ht
  cases ht with
  | outlet => exact absurd hmem hnot
  | _ => rfl

/-- A feeder whose stage is untouched is in the same stage. -/
theorem stage (hfg : Touches s aspects f g) (hnot : .stage ∉ aspects) : g.stage = f.stage := by
  apply hfg.same Feeder.stage
  intro aspect hmem f g ht
  cases ht with
  | stage => exact absurd hmem hnot
  | _ => rfl

/-- An untouched log is the same, and so is its medium. -/
theorem log (hfg : Touches s aspects f g) (hnot : .log ∉ aspects) :
    g.pcmLog = f.pcmLog ∧ g.medium = f.medium := by
  apply Prod.mk.inj
  apply hfg.same fun f => (f.pcmLog, f.medium)
  intro aspect hmem f g ht
  cases ht with
  | log => exact absurd hmem hnot
  | _ => rfl

end Touches

/-! ## What each part touches -/

section Lemmas

variable (s : Setup σ τ ω) (r : Reading) (f : Feeder σ τ ω)

/-- Recording a happening touches the counters alone, also if it halts. -/
theorem touches_record {h : Happening} (hh : h.isOfFeeder) :
    Touches s [.counters] f (f.record h).2 := by
  rcases record_cases f h with ⟨c, hc, heq⟩ | ⟨halt, -, heq⟩
  · rw [heq]
    exact (Touches.refl f).touch (.counters f h c hh hc) (by simp)
  · rw [heq]
    exact Touches.refl f

/-- Writing samples to the log touches the log alone. -/
theorem touches_logSamples (samples : List Int16) :
    Touches s [.log] f (logSamples s samples f) := by
  unfold logSamples
  split
  · exact Touches.refl f
  · next log _ =>
    have hentries : ∀ entry ∈ (log.append s.medium samples f.medium).1.2,
        entry = .pcmLogUnavailable := by
      unfold PcmLog.append PcmLog.fail
      split
      · split
        · simp
        · dsimp only
          split <;> simp
      · simp
    exact (Touches.refl f).touch (.log f _ _ _ hentries) (by simp)

/-- Making a frame takes from the buffer, and shows in the stage and the journal. -/
theorem touches_nextFrame :
    Touches s [.buffer, .stage, .journal] f (nextFrame s f).2 := by
  unfold nextFrame
  split
  · next chunk buffer heq =>
    have hnotes : ∀ entry ∈ chunk.notes ++ s.format.notes chunk.bytes, entry.isOfRound := by
      unfold Chunk.notes SampleFormat.notes
      split <;> split <;> simp [JournalEntry.isOfRound]
    have htaken : buffer = f.pipeline.buffer.take.2 := (congrArg Prod.snd heq).symm
    subst htaken
    have htook : Touches s [.buffer, .stage, .journal] f _ :=
      (Touches.refl f).touch (.buffer f) (by simp)
    have hmade := (htook.touch (.stage _ .mixing) (by simp)).touch (.journal _ _ hnotes) (by simp)
    dsimp only
    split <;> exact hmade
  · dsimp only
    split <;> exact (Touches.refl f).touch (.stage f .polling) (by simp)

/-- The buffer is taken from once. -/
theorem buffer_nextFrame : (nextFrame s f).2.pipeline.buffer = f.pipeline.buffer.take.2 := by
  unfold nextFrame
  by_cases hgate : f.pipeline.buffer.gate ≤ f.pipeline.buffer.size
  · rw [Buffer.take_of_le hgate]
    dsimp only
    split <;> rfl
  · rw [Buffer.take_of_lt (Nat.not_le.mp hgate)]
    dsimp only
    split <;> rfl

/-- A hypothesis is asked for and noted. -/
theorem touches_askHypothesis :
    Touches s [.recognizer, .journal] f (askHypothesis s f).2 := by
  have hasked (state : σ) : Touches s [.recognizer, .journal] f (f.hearing state) :=
    (Touches.refl f).touch (.recognizer f state) (by simp)
  unfold askHypothesis
  split
  · exact hasked _
  · split
    · exact hasked _
    · next text _ =>
      have hentries : ∀ entry ∈ (if text = "" then [] else [.hypothesis text] : Journal),
          entry.isOfRound := by
        split <;> simp [JournalEntry.isOfRound]
      exact (hasked _).touch (.journal _ _ hentries) (by simp)

/-- Asking for an utterance touches the recognizer alone. -/
theorem touches_askUtterance : Touches s [.recognizer] f (askUtterance s f).2 := by
  have hasked (state : σ) : Touches s [.recognizer] f (f.hearing state) :=
    (Touches.refl f).touch (.recognizer f state) (by simp)
  unfold askUtterance
  split
  · exact hasked _
  · split <;> exact hasked _

/-- Hearing a frame touches the recognizer, and notes a hypothesis or why a frame was skipped. -/
theorem touches_hear (samples : List Int16) :
    Touches s [.recognizer, .journal] f (hear s samples f).2 := by
  have hasked (state : σ) : Touches s [.recognizer, .journal] f (f.hearing state) :=
    (Touches.refl f).touch (.recognizer f state) (by simp)
  unfold hear
  split
  · exact Touches.refl f
  · split
    · exact hasked _
    · split
      · exact (hasked _).trans (touches_askHypothesis s _)
      · exact hasked _
    · exact (hasked _).trans ((touches_askUtterance s _).mono (by simp))

/-- Before the recognizer hears samples, they are logged. -/
theorem touches_ready (samples : List Int16) :
    Touches s [.log, .stage] f ((logSamples s samples f).enter .recognizing) :=
  ((touches_logSamples s f samples).mono (by simp)).touch (.stage _ .recognizing) (by simp)

/-- Logging and hearing samples touch neither the buffer, nor the counters, nor the outlet. -/
theorem touches_heard (samples : List Int16) :
    Touches s [.log, .stage, .recognizer, .journal] f
      (hear s samples ((logSamples s samples f).enter .recognizing)).2 :=
  ((touches_ready s f samples).mono (by simp)).trans ((touches_hear s _ samples).mono (by simp))

/-- Offering a transcript touches the outlet, and the journal before. -/
theorem touches_told (text : String) :
    Touches s [.journal, .outlet] f
      (told r f text (s.outlet.emit (offered r f text) f.outlet).2) := by
  have hnoted : Touches s [.journal, .outlet] f (f.note [.utterance text]) :=
    (Touches.refl f).touch (.journal f _ (by simp [JournalEntry.isOfRound])) (by simp)
  exact hnoted.touch (.outlet _ r.uptime (offered r f text)) (by simp)

/-- Emitting a text touches the outlet, notes it and counts the answer. -/
theorem touches_emit (text : String) :
    Touches s [.journal, .outlet, .counters] f (emit s r text f).2 := by
  by_cases htext : text = ""
  · subst htext
    exact Touches.refl f
  · have htold : Touches s [.journal, .outlet, .counters] f _ :=
      (touches_told s r f text).mono (by simp)
    cases hanswer : s.outlet.emit (offered r f text) f.outlet with
    | mk answer outlet =>
      rw [hanswer] at htold
      cases answer with
      | ok accepted =>
        rw [emit_of_accepted r htext hanswer]
        exact htold.trans ((touches_record s _ rfl).mono (by simp))
      | error why =>
        rw [emit_of_refused r htext hanswer]
        have hnoted := htold.touch (.journal _ [.transcriptDropped why]
          (by simp [JournalEntry.isOfRound])) (by simp)
        exact hnoted.trans ((touches_record s _ rfl).mono (by simp))

/-- The end of a round touches neither the buffer, nor the recognizer, nor the log. -/
theorem touches_conclude (frame : MonoFrame) (v : Verdict) :
    Touches s [.stage, .journal, .outlet, .counters] f (conclude s r frame v f).2 := by
  cases v with
  | nothing => exact (Touches.refl f).touch (.stage f .awaiting) (by simp)
  | fault why =>
    have hnoted : Touches s [.stage, .journal, .outlet, .counters] f
        (f.note [.frameSkipped frame.source]) :=
      (Touches.refl f).touch (.journal f _ (by simp [JournalEntry.isOfRound])) (by simp)
    have hcounted := hnoted.trans ((touches_record s _ (h := .recognizerFailed) rfl).mono (by simp))
    rw [conclude_fault]
    dsimp only
    split
    · exact hcounted.touch (.stage _ .awaiting) (by simp)
    · exact hcounted
  | utterance text =>
    have hentered : Touches s [.stage, .journal, .outlet, .counters] f (f.enter .emitting) :=
      (Touches.refl f).touch (.stage f .emitting) (by simp)
    rw [conclude_utterance]
    exact hentered.trans ((touches_emit s r _ text).mono (by simp))

/-- Behind its frame, a round leaves the buffer alone. -/
theorem touches_behind_frame :
    Touches s [.counters, .log, .stage, .recognizer, .journal] (nextFrame s f).2
      (listen s f).2 := by
  unfold listen
  obtain ⟨result, made⟩ := nextFrame s f
  cases result with
  | error halt => exact Touches.refl made
  | ok next =>
    obtain ⟨frame, remainder⟩ := next
    have hcount : Touches s [.counters, .log, .stage, .recognizer, .journal] made _ :=
      (touches_record s made (h := .fed frame.source frame.samples.length remainder) rfl).mono
        (by simp)
    dsimp only
    generalize made.record (.fed frame.source frame.samples.length remainder) = recorded
      at hcount ⊢
    obtain ⟨counted, g⟩ := recorded
    cases counted with
    | error halt => exact hcount
    | ok u => exact hcount.trans ((touches_heard s g frame.samples).mono (by simp))

/-- Up to the verdict, a round leaves the outlet alone. -/
theorem touches_listen :
    Touches s [.buffer, .stage, .journal, .counters, .log, .recognizer] f (listen s f).2 := by
  have hframe : Touches s [.buffer, .stage, .journal, .counters, .log, .recognizer] f
      (nextFrame s f).2 := (touches_nextFrame s f).mono (by simp)
  exact hframe.trans ((touches_behind_frame s f).mono (by simp))

/-- A round may touch everything. -/
theorem touches_tick :
    Touches s [.buffer, .stage, .journal, .counters, .log, .recognizer, .outlet] f
      (tick s r f).2 := by
  have hlisten : Touches s [.buffer, .stage, .journal, .counters, .log, .recognizer, .outlet] f
      (listen s f).2 := (touches_listen s f).mono (by simp)
  rw [tick_eq]
  generalize listen s f = listened at hlisten ⊢
  obtain ⟨result, heard⟩ := listened
  cases result with
  | error halt => exact hlisten
  | ok verdict => exact hlisten.trans ((touches_conclude s r heard _ _).mono (by simp))

/-- A round takes from the buffer once and leaves it alone otherwise. -/
theorem buffer_tick : (tick s r f).2.pipeline.buffer = f.pipeline.buffer.take.2 := by
  have hlisten : (listen s f).2.pipeline.buffer = f.pipeline.buffer.take.2 :=
    ((touches_behind_frame s f).buffer (by simp)).trans (buffer_nextFrame s f)
  rw [tick_eq]
  generalize listen s f = listened at hlisten ⊢
  obtain ⟨result, heard⟩ := listened
  cases result with
  | error halt => exact hlisten
  | ok verdict => exact ((touches_conclude s r heard _ _).buffer (by simp)).trans hlisten

/-- The end touches neither the buffer nor the log. -/
theorem touches_finish :
    Touches s [.recognizer, .journal, .stage, .outlet, .counters] f (finish s r f).2 := by
  have hasked (state : σ) :
      Touches s [.recognizer, .journal, .stage, .outlet, .counters] f (f.hearing state) :=
    (Touches.refl f).touch (.recognizer f state) (by simp)
  have hfailed (state : σ) (why : RecognizerError) :
      Touches s [.recognizer, .journal, .stage, .outlet, .counters] f
        (((f.hearing state).note [.flushFailed why]).enter .stopped) :=
    ((hasked state).touch (.journal _ _ (by simp [JournalEntry.isOfRound])) (by simp)).touch
      (.stage _ .stopped) (by simp)
  unfold finish
  split
  · exact hfailed _ _
  · next answer state _ =>
    cases Recognizer.readFinal answer with
    | error why => exact hfailed _ _
    | ok text =>
      have hemit := (hasked state).trans ((touches_emit s r _ text).mono (by simp))
      dsimp only
      generalize emit s r text (f.hearing state) = emitted at hemit ⊢
      obtain ⟨result, g⟩ := emitted
      cases result with
      | error halt => exact hemit
      | ok last => exact hemit.touch (.stage _ .stopped) (by simp)

end Lemmas

end Feeder

end SpeechRelay
