import SpeechRelay.Proofs.Audio.LogKeeping
import SpeechRelay.Proofs.Feeder.CallOrder

/-!
# The log mirrors what the recognizer hears

A feeder gives every frame to its log before it gives it to the recognizer, and neither the answer
of the medium nor that of the recognizer comes between. So the log has got just the frames that the
recognizer has heard, and empty ones, of which the recognizer does not hear and which have no bytes
(`Mirrored`). One act adds one frame at most, and the same one on both sides (`mirrored_perform`).

A log may be opened on the same medium again and again, by the same feeder or by another one.
`LogSession` is what happens from one opening to the next. `log_mirrors_hearing` says of every
session what its log has come to, and of all sessions together what the medium holds.
-/

set_option autoImplicit false

namespace SpeechRelay

open Audio

namespace Feeder

variable {σ τ ω : Type}

/-! ## What leaves the log alone -/

/-- From one feeder to the other nothing has happened to the log. -/
structure SameLog (f g : Feeder σ τ ω) : Prop where
  pcmLog : g.pcmLog = f.pcmLog
  medium : g.medium = f.medium
  warnings : logWarnings g.pipeline.journal = logWarnings f.pipeline.journal

/-- Only entries about the log itself are warnings about it. -/
theorem Touches.sameLog {s : Setup σ τ ω} {aspects : List Aspect} {f g : Feeder σ τ ω}
    (h : Touches s aspects f g) (hnot : .log ∉ aspects) : SameLog f g := by
  refine ⟨(h.log hnot).1, (h.log hnot).2, ?_⟩
  apply h.same fun f => logWarnings f.pipeline.journal
  intro aspect hmem f g ht
  cases ht with
  | journal f entries hround =>
    have hnone : logWarnings entries = 0 := by
      apply List.countP_eq_zero.mpr
      intro entry hentry
      have hof := hround entry hentry
      cases entry <;> simp_all [JournalEntry.isOfRound, JournalEntry.isLogWarning]
    simp [Feeder.note, Pipeline.note, hnone]
  | log => exact absurd hmem hnot
  | _ => rfl

/-! ## Frames on both sides -/

/-- The frames of exchanges in a row are heard one after the other. -/
@[simp] theorem framesHeard_append (exchanges more : List Exchange) :
    framesHeard (exchanges ++ more) = framesHeard exchanges ++ framesHeard more :=
  List.filterMap_append

/-- The log was opened on the medium `start`, when the journal had so many warnings, and has been
given the frames. The recognizer has heard those of them that are not empty. -/
structure Mirrored (s : Setup σ τ ω) (start : ω) (before : Nat) (frames : List (List Int16))
    (f : Watched σ τ ω) : Prop where
  kept : ∃ log warnings, f.pcmLog = some log ∧
    logWarnings f.pipeline.journal = before + warnings ∧
    log.Kept s.medium start frames f.medium warnings
  heard : framesHeard f.recognizer.2 = frames.filter (· ≠ [])

section Mirror

variable {s : Setup σ τ ω} {start : ω} {before : Nat} {frames : List (List Int16)}
  {f g : Watched σ τ ω}

/-- What does not touch the log and gives the recognizer no frame leaves the log a mirror. -/
theorem Mirrored.still (h : Mirrored s start before frames f) (hlog : SameLog f g)
    (hheard : framesHeard g.recognizer.2 = framesHeard f.recognizer.2) :
    Mirrored s start before frames g := by
  obtain ⟨log, warnings, hsome, hjournal, hkept⟩ := h.kept
  refine ⟨⟨log, warnings, ?_, ?_, ?_⟩, ?_⟩
  · rw [hlog.pcmLog, hsome]
  · rw [hlog.warnings, hjournal]
  · rw [hlog.medium]
    exact hkept
  · rw [hheard, h.heard]

/-- Samples are logged and then heard, unless there are none. -/
theorem Mirrored.hear (h : Mirrored s start before frames f) (samples : List Int16) :
    Mirrored s start before (frames ++ [samples])
      (hear s.watched samples ((logSamples s.watched samples f).enter .recognizing)).2 := by
  obtain ⟨log, warnings, hsome, hjournal, hkept⟩ := h.kept
  have hadded := hkept.append samples
  have hready : ((logSamples s.watched samples f).enter .recognizing).recognizer = f.recognizer :=
    (touches_ready s.watched f samples).recognizer (by simp)
  have hlogged : logSamples s.watched samples f =
      { f with
        pcmLog := some (log.append s.medium samples f.medium).1.1
        medium := (log.append s.medium samples f.medium).2 }.note
          (log.append s.medium samples f.medium).1.2 := by
    unfold logSamples
    rw [hsome]
    rfl
  have hsame := (touches_hear s.watched ((logSamples s.watched samples f).enter .recognizing)
    samples).sameLog (by simp)
  constructor
  case kept =>
    refine ⟨(log.append s.medium samples f.medium).1.1,
      warnings + logWarnings (log.append s.medium samples f.medium).1.2, ?_, ?_, ?_⟩
    · rw [hsame.pcmLog, hlogged]
      rfl
    · rw [hsame.warnings, hlogged]
      simp only [Feeder.note, Feeder.enter, Pipeline.note, logWarnings_append, hjournal,
        Nat.add_assoc]
    · rw [hsame.medium, hlogged]
      exact hadded
  case heard =>
    by_cases hsamples : samples = []
    · subst hsamples
      show framesHeard ((logSamples s.watched [] f).enter .recognizing).recognizer.2 = _
      rw [hready, h.heard]
      simp
    · obtain ⟨asked, hasked, hhearing⟩ := hearing_hear s
        ((logSamples s.watched samples f).enter .recognizing) hsamples
      rw [hasked, hready, framesHeard_append, framesHeard_of_hearing hhearing, h.heard]
      simp [hsamples]

/-- The samples that an act gives to the log and to the recognizer: those of the frame of a round,
unless the round halts before its verdict. -/
def framesOf (s : Setup σ τ ω) (f : Feeder σ τ ω) : Act → List (List Int16)
  | .tick _ =>
    match (listen s f).1 with
    | .ok (frame, _) => [frame.samples]
    | .error _ => []
  | _ => []

/-- The frames that acts give to the log and to the recognizer, one after the other. -/
def framesMade (s : Setup σ τ ω) (f : Feeder σ τ ω) : List Act → List (List Int16)
  | [] => []
  | act :: acts => framesOf s f act ++ framesMade s (perform s f act).2 acts

/-- A tick gives its frame to the log and to the recognizer. -/
theorem mirrored_tick (h : Mirrored s start before frames f) (r : Reading) :
    Mirrored s start before (frames ++ framesOf s.watched f (.tick r))
      (tick s.watched r f).2 := by
  have hmade : Mirrored s start before frames (nextFrame s.watched f).2 := by
    have htouched := touches_nextFrame s.watched f
    apply h.still (htouched.sameLog (by simp))
    rw [htouched.recognizer (by simp)]
  unfold framesOf
  rw [tick_eq]
  unfold listen
  generalize nextFrame s.watched f = framed at hmade ⊢
  obtain ⟨result, made⟩ := framed
  cases result with
  | error halt =>
    rw [List.append_nil]
    exact hmade
  | ok next =>
    obtain ⟨frame, remainder⟩ := next
    dsimp only
    rcases record_cases made (.fed frame.source frame.samples.length remainder) with
      ⟨c, -, heq⟩ | ⟨halt, -, heq⟩
    · -- Counted, the frame is logged and heard; what the verdict leads to changes neither.
      rw [heq]
      have hcounted : Mirrored s start before frames (made.counting c) :=
        hmade.still ⟨rfl, rfl, rfl⟩ rfl
      have hconcluded := touches_conclude s.watched r (hear s.watched frame.samples
        ((logSamples s.watched frame.samples (made.counting c)).enter .recognizing)).2 frame
        (hear s.watched frame.samples
          ((logSamples s.watched frame.samples (made.counting c)).enter .recognizing)).1
      apply (hcounted.hear frame.samples).still (hconcluded.sameLog (by simp))
      rw [hconcluded.recognizer (by simp)]
    · rw [heq, List.append_nil]
      exact hmade

/-- Every act keeps the log a mirror. -/
theorem mirrored_perform (h : Mirrored s start before frames f) (act : Act) :
    Mirrored s start before (frames ++ framesOf s.watched f act)
      (perform s.watched f act).2 := by
  cases act with
  | append bytes =>
    show Mirrored s start before (frames ++ []) _
    rw [List.append_nil]
    exact h.still ⟨rfl, rfl, rfl⟩ rfl
  | tick r => exact mirrored_tick h r
  | finish r =>
    show Mirrored s start before (frames ++ []) _
    rw [List.append_nil]
    apply h.still ((touches_finish s.watched r f).sameLog (by simp))
    obtain ⟨⟨answer, hasked⟩, -⟩ := flush_finish s r f
    show framesHeard (finish s.watched r f).2.recognizer.2 = _
    rw [hasked, framesHeard_append]
    exact List.append_nil _

/-- The frames of an act are the same for a feeder that nobody watches. -/
theorem framesOf_plain (s : Setup σ τ ω) (f : Watched σ τ ω) (act : Act) :
    framesOf s f.plain act = framesOf s.watched f act := by
  cases act with
  | append bytes => rfl
  | finish r => rfl
  | tick r =>
    unfold framesOf
    rw [plain, listen_image (resembles_watched s)]
    rfl

/-- Whatever is done with the feeder, log and recognizer get the same frames. -/
theorem mirrored_turns (acts : List Act) (h : Mirrored s start before frames f) :
    Mirrored s start before (frames ++ framesMade s f.plain acts) (turns s f acts).2 := by
  induction acts generalizing f frames with
  | nil =>
    rw [framesMade, List.append_nil]
    exact h
  | cons act acts ih =>
    have hnext := ih (mirrored_perform h act)
    rw [framesMade, perform_plain, framesOf_plain, ← List.append_assoc]
    exact hnext

/-- The frames of acts in a row come one after the other. -/
theorem framesMade_append (s : Setup σ τ ω) (f : Feeder σ τ ω) (acts more : List Act) :
    framesMade s f (acts ++ more) =
      framesMade s f acts ++ framesMade s (performAll s f acts).2 more := by
  induction acts generalizing f with
  | nil => rfl
  | cons act acts ih =>
    rw [List.cons_append, framesMade, ih, framesMade, List.append_assoc]
    rfl

/-- A log that was just opened has got nothing yet. -/
theorem mirrored_startLog (s : Setup σ τ ω) (f : Feeder σ τ ω) :
    Mirrored s f.medium (logWarnings f.pipeline.journal) [] (startLog s f).watched := by
  have hkept := PcmLog.kept_start s.medium f.medium
  refine ⟨⟨_, _, rfl, ?_, hkept⟩, rfl⟩
  exact logWarnings_append _ _

end Mirror

/-! ## From one opening to the next -/

/-- A feeder opens its log on the medium, and then it is used until the next opening. -/
structure LogSession (m : Medium ω) where
  {σ τ : Type}
  setup : Setup σ τ ω
  onMedium : setup.medium = m
  feeder : Feeder σ τ ω
  acts : List Act

namespace LogSession

variable {m : Medium ω}

/-- The session with one act more. -/
def andThen (session : LogSession m) (act : Act) : LogSession m :=
  { session with acts := session.acts ++ [act] }

section Course

variable (session : LogSession m) (w : ω)

/-- The feeder with its log opened on the medium `w`. -/
def start : Feeder session.σ session.τ ω :=
  startLog session.setup { session.feeder with medium := w }

/-- The feeder at the end of the session. -/
def last : Feeder session.σ session.τ ω :=
  (performAll session.setup (session.start w) session.acts).2

/-- The frames that the rounds of the session have come to. -/
def frames : List (List Int16) := framesMade session.setup (session.start w) session.acts

/-- The frames that the recognizer has heard in the session. -/
def heard : List (List Int16) :=
  framesHeard (turns session.setup (session.start w).watched session.acts).2.recognizer.2

/-- The answers of the medium to the opening and to one write for each frame. -/
def answers : List Bool := (m.keep (session.frames w) w).1

/-- The failures that the log has counted. -/
def failures : Option Nat := (session.last w).pcmLog.map PcmLog.failures

/-- The warnings about logs in the feeder's journal. -/
def warnings : Nat := logWarnings (session.last w).pipeline.journal

/-- What the log has come to at the end of a session that has found the medium `w`. -/
structure Mirrors : Prop where
  /-- The recognizer has heard the frames that were logged, but not the empty ones. -/
  heard : session.heard w = (session.frames w).filter (· ≠ [])
  /-- The medium was asked to open the log and, if it did, to write each frame, and nothing else. -/
  medium : (session.last w).medium = (m.keep (session.frames w) w).2
  failures : session.failures w = some ((session.answers w).count false)
  /-- No frame was left out, whatever had failed before it. -/
  tried : (m.openLog w).1 = true → (session.answers w).length = (session.frames w).length + 1
  /-- A log that could not be opened has failed once, and nothing was written. -/
  unopened : (m.openLog w).1 = false →
    session.failures w = some 1 ∧ (session.last w).medium = (m.openLog w).2
  /-- There is one warning if anything has failed. -/
  warned : session.warnings w = logWarnings session.feeder.pipeline.journal +
    if false ∈ session.answers w then 1 else 0

/-- At the end of a session the log mirrors what the recognizer has heard in it. -/
theorem mirrored :
    Mirrored session.setup w (logWarnings session.feeder.pipeline.journal) (session.frames w)
      (turns session.setup (session.start w).watched session.acts).2 := by
  have hstart := mirrored_startLog session.setup { session.feeder with medium := w }
  exact mirrored_turns session.acts hstart

/-- Nobody watches the feeder of a session, but it ends as if somebody did. -/
theorem last_eq :
    session.last w = (turns session.setup (session.start w).watched session.acts).2.plain := by
  have hplain := performAll_plain session.setup (session.start w).watched session.acts
  exact congrArg Prod.snd hplain

/-- The log of a session is kept of the frames that its rounds have come to. -/
theorem kept_last : ∃ log warnings, (session.last w).pcmLog = some log ∧
    session.warnings w = logWarnings session.feeder.pipeline.journal + warnings ∧
    log.Kept m w (session.frames w) (session.last w).medium warnings := by
  obtain ⟨log, warnings, hsome, hjournal, hkept⟩ := (session.mirrored w).kept
  rw [session.onMedium] at hkept
  unfold LogSession.warnings
  rw [last_eq]
  exact ⟨log, warnings, hsome, hjournal, hkept⟩

/-- What a session says of its log follows from the mirror. -/
theorem mirrors : session.Mirrors w := by
  obtain ⟨log, warnings, hlog, hwarnings, hkept⟩ := session.kept_last w
  have hfailures : session.failures w = some ((session.answers w).count false) := by
    rw [failures, hlog, Option.map_some, hkept.failures, answers]
  refine ⟨(session.mirrored w).heard, hkept.medium, hfailures, ?_, ?_, ?_⟩
  · intro hopened
    simp [answers, Medium.keep_of_opened hopened, Medium.length_writeAll]
  · intro hclosed
    rw [hfailures, hkept.medium, answers, Medium.keep_of_unopened hclosed]
    simp
  · have hnone : log.failures = 0 ↔ false ∉ session.answers w := by
      rw [hkept.failures, answers, List.count_eq_zero]
    rw [hwarnings, hkept.warnings]
    by_cases hzero : log.failures = 0
    · simp [hzero, hnone.mp hzero]
    · simp [hzero, Decidable.not_not.mp (mt hnone.mpr hzero)]

/-- Answers that were given stay when the session goes on. -/
theorem answers_andThen (act : Act) :
    ∃ more, (session.andThen act).answers w = session.answers w ++ more := by
  have hframes : (session.andThen act).frames w =
      session.frames w ++ framesMade session.setup (session.last w) [act] :=
    framesMade_append session.setup (session.start w) session.acts [act]
  unfold answers
  rw [hframes]
  cases hopened : (m.openLog w).1 with
  | true =>
    rw [Medium.keep_append hopened]
    exact ⟨_, rfl⟩
  | false =>
    rw [Medium.keep_of_unopened hopened, Medium.keep_of_unopened hopened]
    exact ⟨[], rfl⟩

/-- An act brings a warning if it brings the first failure. -/
theorem warnings_andThen (act : Act) :
    (session.andThen act).warnings w = session.warnings w +
      if false ∉ session.answers w ∧ false ∈ (session.andThen act).answers w then 1 else 0 := by
  have hbefore := (session.mirrors w).warned
  have hafter := ((session.andThen act).mirrors w).warned
  obtain ⟨more, hmore⟩ := session.answers_andThen w act
  have hfeeder : (session.andThen act).feeder = session.feeder := rfl
  rw [hafter, hbefore, hfeeder]
  by_cases hfailed : false ∈ session.answers w
  · have hstill : false ∈ (session.andThen act).answers w := by
      rw [hmore]
      exact List.mem_append_left more hfailed
    simp [hfailed, hstill]
  · simp [hfailed]

end Course

/-! ## Openings one behind the other -/

/-- The medium after the sessions, each of which finds it as the one before has left it. -/
def mediumAfter : List (LogSession m) → ω → ω
  | [], w => w
  | session :: sessions, w => mediumAfter sessions (session.last w).medium

/-- The answers of the medium to all openings and writes of the sessions. -/
def answersIn : List (LogSession m) → ω → List Bool
  | [], _ => []
  | session :: sessions, w => session.answers w ++ answersIn sessions (session.last w).medium

/-- The frames that the recognizers of the sessions have heard. -/
def heardIn : List (LogSession m) → ω → List (List Int16)
  | [], _ => []
  | session :: sessions, w => session.heard w ++ heardIn sessions (session.last w).medium

/-- Each session leaves behind what it has found the bytes of what was heard in it. -/
theorem contents_last {contents : ω → List UInt8} (hm : m.Holds contents)
    (session : LogSession m) (w : ω) (h : ∀ answer ∈ session.answers w, answer = true) :
    contents (session.last w).medium = contents w ++ Pcm.encode (session.heard w).flatten := by
  have hmirrors := session.mirrors w
  rw [hmirrors.medium, Medium.contents_keep hm _ w h, hmirrors.heard, List.flatten_filter_ne_nil]

/-- If every answer is a success, the sessions have written what was heard in them behind what was
there before. -/
theorem contents_mediumAfter {contents : ω → List UInt8} (hm : m.Holds contents)
    (sessions : List (LogSession m)) (w : ω) (h : ∀ answer ∈ answersIn sessions w, answer = true) :
    contents (mediumAfter sessions w) = contents w ++ Pcm.encode (heardIn sessions w).flatten := by
  induction sessions generalizing w with
  | nil => simp [mediumAfter, heardIn, Pcm.encode]
  | cons session sessions ih =>
    rw [answersIn, List.forall_mem_append] at h
    rw [mediumAfter, ih _ h.2, contents_last hm session w h.1, heardIn, List.flatten_append,
      Pcm.encode_append, List.append_assoc]

end LogSession

/-- A log mirrors what the recognizer hears, whatever the recognizer makes of it and however the
medium answers. In every session the log has got the frames that the recognizer has heard, and empty
ones; each was tried, whatever had failed before; the failures are the operations that failed, just
one if the log could not be opened; and the warning comes with the first of them and only then.
If no operation fails, then over any number of openings the medium gets the bytes of just the frames
that were heard, in order and behind what it held before. -/
theorem log_mirrors_hearing (m : Medium ω) :
    (∀ (session : LogSession m) (w : ω), session.Mirrors w ∧
      ∀ act, (session.andThen act).warnings w = session.warnings w +
        if false ∉ session.answers w ∧ false ∈ (session.andThen act).answers w then 1 else 0) ∧
    ∀ contents, m.Holds contents → ∀ (sessions : List (LogSession m)) (w : ω),
      (∀ answer ∈ LogSession.answersIn sessions w, answer = true) →
      contents (LogSession.mediumAfter sessions w) =
        contents w ++ Pcm.encode (LogSession.heardIn sessions w).flatten := by
  constructor
  · intro session w
    exact ⟨session.mirrors w, session.warnings_andThen w⟩
  · intro contents hm sessions w h
    exact LogSession.contents_mediumAfter hm sessions w h

/-- A file with one byte is opened twice: by a feeder whose recognizer fails on every frame, and
then by one whose recognizer ends an utterance with every frame. Where every second write fails,
two of four do, and there is one warning. -/
theorem log_mirrors_hearing_reopened :
    let deaf : Recognizer Unit :=
      { name := "deaf"
        accept := fun _ s => (.error (.decode "deaf"), s)
        result := fun s => (.ok "", s)
        partialResult := fun s => (.ok "", s)
        finalResult := fun s => (.error (.decode "deaf"), s) }
    let hasty : Recognizer Nat :=
      { name := "hasty"
        accept := fun _ n => (.ok true, n + 1)
        result := fun n => (.ok "[\"oui\"]", n)
        partialResult := fun n => (.ok "", n)
        finalResult := fun n => (.ok "", n) }
    let pipeline : Pipeline := .create ⟨4, 4, [], by decide⟩
    let r : Reading := ⟨⟨0⟩, ⟨0, 0⟩, 0⟩
    let first : LogSession Disk.medium :=
      ⟨⟨.stereo, 2, false, deaf, TranscriptQueue.outlet, Disk.medium⟩, rfl,
        .create () .create (.file []) pipeline, [.tick r, .append [1, 0, 3, 0], .tick r]⟩
    let second : LogSession Disk.medium :=
      ⟨⟨.stereo, 2, false, hasty, TranscriptQueue.outlet, Disk.medium⟩, rfl,
        .create 0 .create (.file []) pipeline, [.append [255, 255, 255, 255], .tick r, .finish r]⟩
    let faulty : Medium Nat := ⟨fun n => (true, n), fun _ n => (n % 2 = 0, n + 1)⟩
    let third : LogSession faulty :=
      ⟨⟨.stereo, 2, false, deaf, TranscriptQueue.outlet, faulty⟩, rfl,
        .create () .create 0 pipeline, List.replicate 4 (.tick r)⟩
    let found : Disk := .file [7]
    let left : Disk := LogSession.mediumAfter [first, second] found
    left = .file [7, 0, 0, 0, 0, 2, 0, 255, 255] ∧
    left.contents?.getD [] =
      [7] ++ Pcm.encode (LogSession.heardIn [first, second] found).flatten ∧
    third.answers 0 = [true, true, false, true, false] ∧
    third.failures 0 = some 2 ∧ third.warnings 0 = 1 ∧ third.Mirrors 0 := by
  intro deaf hasty pipeline r first second faulty third found left
  have hmirrors := (log_mirrors_hearing faulty).1 third 0
  have hcontents := (log_mirrors_hearing Disk.medium).2 _ Disk.holds_medium [first, second] found
    (by decide +kernel)
  exact ⟨by decide +kernel, hcontents, by decide +kernel, by decide +kernel, by decide +kernel,
    hmirrors.1⟩

end Feeder

end SpeechRelay
