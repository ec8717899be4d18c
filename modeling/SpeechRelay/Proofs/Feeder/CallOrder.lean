import SpeechRelay.Feeder.Run
import SpeechRelay.Proofs.Feeder.Calls

/-!
# The order of the recognizer's calls

A recognizer expects its calls in order: an utterance that has ended is asked for at once, before
more samples, and nothing comes after the flush at the end. During a run each tick that is heard
makes the calls of one `Hearing` at most, the cancellation makes the flush, and nothing else calls
the recognizer (`asks_occur`). So the calls of a run are hearings, one behind the other, with at
most the flush behind them (`course_occurAll`), and from this alone follows which call may come
behind which one (`Orderly`).

`runFrom` forgets the feeder when a limit of the machine halts the run. The calls made until then
have to be in order as well, so runs are watched here through `occurAll`, which keeps it.
-/

set_option autoImplicit false

namespace SpeechRelay.Feeder

open Audio

variable {σ τ ω : Type}

/-! ## Runs that keep the feeder -/

section Run

variable (s : Setup σ τ ω) (clearOnDisconnect : Bool)

/-- The feeder after one occurrence. The answer says whether it still runs. -/
def occur (running : Bool) (f : Feeder σ τ ω) : Occurrence × Reading → Result σ τ ω Bool
  | (.inbound e, _) =>
    match f.handle clearOnDisconnect e with
    | .error halt => (.error halt, f)
    | .ok f => (.ok running, f)
  | (.tick, r) =>
    if running then
      match tick s r f with
      | (.error halt, f) => (.error halt, f)
      | (.ok _, f) => (.ok true, f)
    else (.ok false, f)
  | (.cancel, r) =>
    if running then
      match finish s r f with
      | (.error halt, f) => (.error halt, f)
      | (.ok _, f) => (.ok false, f.note (f.lossNotes ++ [.feederStopped]))
    else (.ok false, f)

/-- The feeder after occurrences, or as it was when one of them halted. -/
def occurAll (running : Bool) (f : Feeder σ τ ω) :
    List (Occurrence × Reading) → Result σ τ ω Bool
  | [] => (.ok running, f)
  | o :: rest =>
    match occur s clearOnDisconnect running f o with
    | (.error halt, f) => (.error halt, f)
    | (.ok running, f) => occurAll running f rest

/-- The feeder at the end of a whole run, also of one that halted. -/
def lastOf (period : Nat) (f : Feeder σ τ ω) (occurrences : List (Occurrence × Reading)) :
    Result σ τ ω Bool :=
  if period = 0 then (.error .zeroPeriod, f)
  else occurAll s clearOnDisconnect true (f.note [.feederStarted]) occurrences

/-- The calls of a whole run with their answers, also of a run that halted. -/
def callsOf (period : Nat) (f : Feeder σ τ ω) (occurrences : List (Occurrence × Reading)) :
    List Exchange :=
  (lastOf s.watched clearOnDisconnect period f.watched occurrences).2.recognizer.2

/-- A run comes to the feeder that its occurrences one after the other come to, or halts with them.
-/
theorem runFrom_eq (running : Bool) (f : Feeder σ τ ω) (occurrences : List (Occurrence × Reading)) :
    runFrom s clearOnDisconnect running f occurrences =
      (occurAll s clearOnDisconnect running f occurrences).1.map fun _ =>
        (occurAll s clearOnDisconnect running f occurrences).2 := by
  induction occurrences generalizing running f with
  | nil => rfl
  | cons o rest ih =>
    obtain ⟨o, r⟩ := o
    cases o with
    | inbound e =>
      simp only [runFrom, occurAll, occur]
      cases f.handle clearOnDisconnect e with
      | error halt => rfl
      | ok g => exact ih running g
    | tick =>
      cases running with
      | false => exact ih false f
      | true =>
        simp only [runFrom, occurAll, occur, if_true]
        obtain ⟨result, g⟩ := tick s r f
        cases result with
        | error halt => rfl
        | ok o => exact ih true g
    | cancel =>
      cases running with
      | false => exact ih false f
      | true =>
        simp only [runFrom, occurAll, occur, if_true, stop]
        obtain ⟨result, g⟩ := finish s r f
        cases result with
        | error halt => rfl
        | ok emitted => exact ih false _

/-- A whole run comes to the last feeder, or halts with it. -/
theorem run_eq (period : Nat) (f : Feeder σ τ ω) (occurrences : List (Occurrence × Reading)) :
    run s clearOnDisconnect period f occurrences =
      (lastOf s clearOnDisconnect period f occurrences).1.map fun _ =>
        (lastOf s clearOnDisconnect period f occurrences).2 := by
  unfold run lastOf
  by_cases hperiod : period = 0
  · rw [if_pos hperiod, if_pos hperiod]
    rfl
  · rw [if_neg hperiod, if_neg hperiod, runFrom_eq]

/-- Occurrences do the same to a feeder that nobody watches. -/
theorem occur_plain (running : Bool) (w : Watched σ τ ω) (o : Occurrence × Reading) :
    occur s clearOnDisconnect running w.plain o =
      (occur s.watched clearOnDisconnect running w o).map id plain := by
  obtain ⟨o, r⟩ := o
  cases o with
  | inbound e =>
    unfold occur handle
    dsimp only
    rw [show w.plain.pipeline = w.pipeline from rfl]
    cases Intake.handle clearOnDisconnect w.pipeline e <;> rfl
  | tick =>
    cases running with
    | false => rfl
    | true =>
      simp only [occur, if_true]
      rw [plain, tick_image (resembles_watched s)]
      obtain ⟨result, g⟩ := tick s.watched r w
      cases result <;> rfl
  | cancel =>
    cases running with
    | false => rfl
    | true =>
      simp only [occur, if_true]
      rw [plain, finish_image (resembles_watched s)]
      obtain ⟨result, g⟩ := finish s.watched r w
      cases result <;> rfl

/-- Occurrences are the same for a watched feeder and one that nobody watches. -/
theorem occurAll_plain (running : Bool) (w : Watched σ τ ω)
    (occurrences : List (Occurrence × Reading)) :
    occurAll s clearOnDisconnect running w.plain occurrences =
      (occurAll s.watched clearOnDisconnect running w occurrences).map id plain := by
  induction occurrences generalizing running w with
  | nil => rfl
  | cons o rest ih =>
    rw [occurAll, occurAll, occur_plain]
    obtain ⟨result, g⟩ := occur s.watched clearOnDisconnect running w o
    cases result with
    | error halt => rfl
    | ok running => exact ih running g

/-- A whole run is the same for a watched feeder and one that nobody watches. -/
theorem lastOf_plain (period : Nat) (w : Watched σ τ ω)
    (occurrences : List (Occurrence × Reading)) :
    lastOf s clearOnDisconnect period w.plain occurrences =
      (lastOf s.watched clearOnDisconnect period w occurrences).map id plain := by
  unfold lastOf
  split
  · rfl
  · exact occurAll_plain s clearOnDisconnect true (w.note [.feederStarted]) occurrences

end Run

/-! ## What a tick asks -/

/-- The exchanges about a frame with these samples. -/
inductive Hearing (logHypotheses : Bool) (samples : List Int16) : List Exchange → Prop where
  | refused (why : RecognizerError) :
    Hearing logHypotheses samples [.accept samples (.error why)]
  | ended (answer : Except RecognizerError String) :
    Hearing logHypotheses samples [.accept samples (.ok true), .result answer]
  | passed (hlog : logHypotheses = false) :
    Hearing logHypotheses samples [.accept samples (.ok false)]
  | asked (hlog : logHypotheses = true) (answer : Except RecognizerError String) :
    Hearing logHypotheses samples [.accept samples (.ok false), .partialResult answer]

/-- The samples of an exchange that gave some to the recognizer. -/
def Exchange.frame? : Exchange → Option (List Int16)
  | .accept samples _ => some samples
  | _ => none

/-- The frames that the recognizer was given, one for each time. -/
def framesHeard (exchanges : List Exchange) : List (List Int16) :=
  exchanges.filterMap Exchange.frame?

/-- In the exchanges about a frame, the recognizer is given just that frame. -/
theorem framesHeard_of_hearing {logHypotheses : Bool} {samples : List Int16}
    {asked : List Exchange} (h : Hearing logHypotheses samples asked) :
    framesHeard asked = [samples] := by
  cases h <;> rfl

/-- The exchanges of a tick: there are none if its frame is empty, or if it halted before the
recognizer heard the frame. -/
def AsksOnce (logHypotheses : Bool) (asked : List Exchange) : Prop :=
  asked = [] ∨ ∃ samples, samples ≠ [] ∧ Hearing logHypotheses samples asked

section Tick

variable (s : Setup σ τ ω) (r : Reading) (w : Watched σ τ ω)

/-- Samples that are heard cause the exchanges about them. -/
theorem hearing_hear {samples : List Int16} (hsamples : samples ≠ []) :
    ∃ asked, (hear s.watched samples w).2.recognizer.2 = w.recognizer.2 ++ asked ∧
      Hearing s.logHypotheses samples asked := by
  have hcall : s.watched.recognizer.accept samples w.recognizer =
    keeping (.accept samples) w.recognizer.2 (s.recognizer.accept samples w.recognizer.1) := rfl
  unfold hear
  rw [if_neg (by simpa using hsamples), hcall]
  obtain ⟨answer, state⟩ := s.recognizer.accept samples w.recognizer.1
  cases answer with
  | error why => exact ⟨_, rfl, .refused why⟩
  | ok ended =>
    cases ended with
    | true =>
      obtain ⟨answer, hask, -⟩ := adds_askUtterance s
        (w.hearing (state, w.recognizer.2 ++ [.accept samples (.ok true)]))
      exact ⟨_, hask.exchanges.trans (List.append_assoc _ _ _), .ended answer⟩
    | false =>
      have hsame : s.watched.logHypotheses = s.logHypotheses := rfl
      dsimp only [keeping]
      rw [hsame]
      cases hlog : s.logHypotheses with
      | false => exact ⟨_, rfl, .passed rfl⟩
      | true =>
        obtain ⟨answer, hask, -⟩ := adds_askHypothesis s
          (w.hearing (state, w.recognizer.2 ++ [.accept samples (.ok false)]))
        exact ⟨_, hask.exchanges.trans (List.append_assoc _ _ _), .asked rfl answer⟩

/-- A frame is heard at most once, and not at all if it is empty. -/
theorem asksOnce_hear (samples : List Int16) :
    ∃ asked, (hear s.watched samples w).2.recognizer.2 = w.recognizer.2 ++ asked ∧
      AsksOnce s.logHypotheses asked := by
  by_cases hsamples : samples = []
  · subst hsamples
    exact ⟨[], (List.append_nil _).symm, .inl rfl⟩
  · obtain ⟨asked, hasked, hhearing⟩ := hearing_hear s w hsamples
    exact ⟨asked, hasked, .inr ⟨samples, hsamples, hhearing⟩⟩

variable {frame : MonoFrame} {remainder : Nat} {made : Watched σ τ ω}

/-- With its frame made, a round gives the recognizer the samples of the frame, unless counting the
frame halts it. -/
theorem heard_tick (hframe : nextFrame s.watched w = (.ok (frame, remainder), made)) :
    (∃ halt, (tick s.watched r w).1 = .error halt ∧
      (tick s.watched r w).2.recognizer = w.recognizer) ∨
    ∃ g : Watched σ τ ω, g.recognizer = w.recognizer ∧
      (tick s.watched r w).2.recognizer = (hear s.watched frame.samples g).2.recognizer := by
  have hmade : made.recognizer = w.recognizer := by
    have h := (touches_nextFrame s.watched w).recognizer (by simp)
    rwa [hframe] at h
  rw [tick, hframe]
  dsimp only
  rcases record_cases made (.fed frame.source frame.samples.length remainder) with
    ⟨c, -, hcount⟩ | ⟨halt, -, hcount⟩
  · right
    refine ⟨(logSamples s.watched frame.samples (made.counting c)).enter .recognizing, ?_, ?_⟩
    · exact ((touches_ready s.watched (made.counting c) frame.samples).recognizer
        (by simp)).trans hmade
    · rw [hcount]
      exact (touches_conclude s.watched r _ frame _).recognizer (by simp)
  · left
    rw [hcount]
    exact ⟨halt, rfl, hmade⟩

/-- A round asks the recognizer about its frame and no more, however it ends. -/
theorem asksOnce_tick :
    ∃ asked, (tick s.watched r w).2.recognizer.2 = w.recognizer.2 ++ asked ∧
      AsksOnce s.logHypotheses asked := by
  cases hframe : nextFrame s.watched w with
  | mk result made =>
    cases result with
    | error halt =>
      have hmade := (touches_nextFrame s.watched w).recognizer (by simp)
      rw [hframe] at hmade
      rw [tick, hframe]
      exact ⟨[], (congrArg Prod.snd hmade).trans (List.append_nil _).symm, .inl rfl⟩
    | ok next =>
      obtain ⟨frame, remainder⟩ := next
      rcases heard_tick s r w hframe with ⟨halt, -, hsame⟩ | ⟨g, hg, hheard⟩
      · exact ⟨[], (congrArg Prod.snd hsame).trans (List.append_nil _).symm, .inl rfl⟩
      · rw [hheard, ← hg]
        exact asksOnce_hear s g frame.samples

/-- The end asks for the flush, once, and if it is reached the feeder has stopped. -/
theorem flush_finish :
    (∃ answer, (finish s.watched r w).2.recognizer.2 = w.recognizer.2 ++ [.finalResult answer]) ∧
      ∀ emitted, (finish s.watched r w).1 = .ok emitted →
        (finish s.watched r w).2.stage = .stopped := by
  have hcall : s.watched.recognizer.finalResult w.recognizer =
    keeping .finalResult w.recognizer.2 (s.recognizer.finalResult w.recognizer.1) := rfl
  unfold finish
  rw [hcall]
  obtain ⟨answer, state⟩ := s.recognizer.finalResult w.recognizer.1
  cases answer with
  | error why => exact ⟨⟨_, rfl⟩, fun _ _ => rfl⟩
  | ok json =>
    dsimp only [keeping]
    cases Recognizer.readFinal json with
    | error why => exact ⟨⟨_, rfl⟩, fun _ _ => rfl⟩
    | ok text =>
      have hemit := (touches_emit s.watched r
        (w.hearing (state, w.recognizer.2 ++ [.finalResult (.ok json)])) text).recognizer (by simp)
      dsimp only
      generalize emit s.watched r text
        (w.hearing (state, w.recognizer.2 ++ [.finalResult (.ok json)])) = told at hemit ⊢
      obtain ⟨result, g⟩ := told
      cases result with
      | error halt => exact ⟨⟨_, congrArg Prod.snd hemit⟩, fun _ h => by cases h⟩
      | ok emitted => exact ⟨⟨_, congrArg Prod.snd hemit⟩, fun _ _ => rfl⟩

end Tick

/-! ## What a run asks -/

/-- What an occurrence asks the recognizer while the feeder runs. -/
def Asks (logHypotheses : Bool) : Occurrence → List Exchange → Prop
  | .inbound _, asked => asked = []
  | .tick, asked => AsksOnce logHypotheses asked
  | .cancel, asked => ∃ answer, asked = [.finalResult answer]

/-- How many ticks come before the first cancellation. -/
def ticksHeard (occurrences : List Occurrence) : Nat :=
  (occurrences.takeWhile (· ≠ .cancel)).count .tick

/-- An event is not a tick. -/
@[simp] theorem ticksHeard_inbound (e : InboundEvent) (occurrences : List Occurrence) :
    ticksHeard (.inbound e :: occurrences) = ticksHeard occurrences := by
  simp [ticksHeard]

/-- A tick is heard before what follows. -/
@[simp] theorem ticksHeard_tick (occurrences : List Occurrence) :
    ticksHeard (.tick :: occurrences) = ticksHeard occurrences + 1 := by
  simp [ticksHeard]

/-- Behind a cancellation no tick is heard. -/
@[simp] theorem ticksHeard_cancel (occurrences : List Occurrence) :
    ticksHeard (.cancel :: occurrences) = 0 := by
  simp [ticksHeard]

/-- The exchanges of a run as those about frames, tick by tick, and those at the end. The run may
have halted on its way. -/
structure Course (logHypotheses : Bool) (occurrences : List Occurrence)
    (rounds : List (List Exchange)) (ending : List Exchange) : Prop where
  asks : ∀ round ∈ rounds, AsksOnce logHypotheses round
  ticks : rounds.length ≤ ticksHeard occurrences
  flush : ending = [] ∨ .cancel ∈ occurrences ∧ rounds.length = ticksHeard occurrences ∧
    ∃ answer, ending = [.finalResult answer]

namespace Course

variable {logHypotheses : Bool} {occurrences : List Occurrence} {rounds : List (List Exchange)}
  {ending : List Exchange}

/-- No exchanges are a course of any occurrences, for the run may have halted at once. -/
theorem nothing (logHypotheses : Bool) (occurrences : List Occurrence) :
    Course logHypotheses occurrences [] [] :=
  ⟨List.forall_mem_nil _, Nat.zero_le _, .inl rfl⟩

/-- An event adds no exchanges to a course. -/
theorem inbound (e : InboundEvent) (h : Course logHypotheses occurrences rounds ending) :
    Course logHypotheses (.inbound e :: occurrences) rounds ending := by
  refine ⟨h.asks, by simpa using h.ticks, h.flush.imp_right ?_⟩
  rintro ⟨hcancel, hticks, hanswer⟩
  exact ⟨List.mem_cons_of_mem _ hcancel, by simpa using hticks, hanswer⟩

/-- A tick puts its exchanges in front of a course. -/
theorem tick {asked : List Exchange} (hasked : AsksOnce logHypotheses asked)
    (h : Course logHypotheses occurrences rounds ending) :
    Course logHypotheses (.tick :: occurrences) (asked :: rounds) ending := by
  refine ⟨?_, by simpa using h.ticks, h.flush.imp_right ?_⟩
  · intro round hmem
    rcases List.mem_cons.mp hmem with rfl | hmem
    · exact hasked
    · exact h.asks round hmem
  · rintro ⟨hcancel, hticks, hanswer⟩
    exact ⟨List.mem_cons_of_mem _ hcancel, by simpa using hticks, hanswer⟩

/-- After a cancellation there is the flush, whatever comes behind it. -/
theorem cancel (logHypotheses : Bool) (occurrences : List Occurrence)
    (answer : Except RecognizerError String) :
    Course logHypotheses (.cancel :: occurrences) [] [.finalResult answer] :=
  ⟨List.forall_mem_nil _, Nat.zero_le _,
    .inr ⟨List.mem_cons_self, by simp, answer, rfl⟩⟩

end Course

section Course

variable (s : Setup σ τ ω) (clearOnDisconnect : Bool)

/-- Handling an event leaves all but the pipeline alone. -/
theorem handle_frame {f g : Feeder σ τ ω} {e : InboundEvent}
    (h : f.handle clearOnDisconnect e = .ok g) :
    g.recognizer = f.recognizer ∧ g.stage = f.stage := by
  obtain ⟨c, -, rfl⟩ := handle_eq_ok h
  exact ⟨rfl, rfl⟩

/-- An occurrence asks what is due at it, and a cancellation that comes to its end has stopped the
feeder. -/
theorem asks_occur (w : Watched σ τ ω) (o : Occurrence × Reading) :
    ∃ asked, (occur s.watched clearOnDisconnect true w o).2.recognizer.2 =
        w.recognizer.2 ++ asked ∧ Asks s.logHypotheses o.1 asked ∧
      ∀ running, (occur s.watched clearOnDisconnect true w o).1 = .ok running →
        running = decide (o.1 ≠ .cancel) ∧
        (o.1 = .cancel → (occur s.watched clearOnDisconnect true w o).2.stage = .stopped) := by
  obtain ⟨o, r⟩ := o
  cases o with
  | inbound e =>
    refine ⟨[], ?_, rfl, ?_⟩
    · simp only [occur, List.append_nil]
      cases hv : w.handle clearOnDisconnect e with
      | error halt => rfl
      | ok v => exact congrArg Prod.snd (handle_frame clearOnDisconnect hv).1
    · simp only [occur]
      cases w.handle clearOnDisconnect e with
      | error halt => exact fun _ h => by cases h
      | ok v => exact fun _ h => by cases h; exact ⟨rfl, fun h => by cases h⟩
  | tick =>
    obtain ⟨asked, hasked, honce⟩ := asksOnce_tick s r w
    simp only [occur, if_true]
    generalize tick s.watched r w = ticked at hasked ⊢
    obtain ⟨result, g⟩ := ticked
    cases result with
    | error halt => exact ⟨asked, hasked, honce, fun _ h => by cases h⟩
    | ok o =>
      exact ⟨asked, hasked, honce, fun _ h => by cases h; exact ⟨rfl, fun h => by cases h⟩⟩
  | cancel =>
    obtain ⟨⟨answer, hasked⟩, hstage⟩ := flush_finish s r w
    simp only [occur, if_true]
    generalize finish s.watched r w = finished at hasked hstage ⊢
    obtain ⟨result, g⟩ := finished
    cases result with
    | error halt => exact ⟨_, hasked, ⟨answer, rfl⟩, fun _ h => by cases h⟩
    | ok emitted =>
      refine ⟨_, hasked, ⟨answer, rfl⟩, fun _ h => ?_⟩
      cases h
      exact ⟨rfl, fun _ => hstage emitted rfl⟩

/-- A feeder that does not run any more only takes events in. -/
theorem idle_occur (f : Feeder σ τ ω) (o : Occurrence × Reading) :
    (occur s clearOnDisconnect false f o).2.recognizer = f.recognizer ∧
      (occur s clearOnDisconnect false f o).2.stage = f.stage ∧
      ∀ running, (occur s clearOnDisconnect false f o).1 = .ok running → running = false := by
  obtain ⟨o, r⟩ := o
  cases o with
  | inbound e =>
    simp only [occur]
    cases hv : f.handle clearOnDisconnect e with
    | error halt => exact ⟨rfl, rfl, fun _ h => by cases h⟩
    | ok g =>
      obtain ⟨hrecognizer, hstage⟩ := handle_frame clearOnDisconnect hv
      exact ⟨hrecognizer, hstage, fun _ h => by cases h; rfl⟩
  | tick => exact ⟨rfl, rfl, fun _ h => by cases h; rfl⟩
  | cancel => exact ⟨rfl, rfl, fun _ h => by cases h; rfl⟩

/-- A feeder that does not run asks its recognizer nothing and stays in its stage. -/
theorem idle_occurAll (f : Feeder σ τ ω) (occurrences : List (Occurrence × Reading)) :
    (occurAll s clearOnDisconnect false f occurrences).2.recognizer = f.recognizer ∧
      (occurAll s clearOnDisconnect false f occurrences).2.stage = f.stage := by
  induction occurrences generalizing f with
  | nil => exact ⟨rfl, rfl⟩
  | cons o rest ih =>
    obtain ⟨hrecognizer, hstage, hidle⟩ := idle_occur s clearOnDisconnect f o
    rw [occurAll]
    generalize occur s clearOnDisconnect false f o = happened at hrecognizer hstage hidle ⊢
    obtain ⟨result, g⟩ := happened
    cases result with
    | error halt => exact ⟨hrecognizer, hstage⟩
    | ok running =>
      obtain rfl := hidle running rfl
      obtain ⟨hrest, hlast⟩ := ih g
      exact ⟨hrest.trans hrecognizer, hlast.trans hstage⟩

/-- An occurrence that cancels, or finds the feeder cancelled, leaves it so. -/
theorem occur_cancel (running : Bool) (f : Feeder σ τ ω) (r : Reading) :
    ∀ still, (occur s clearOnDisconnect running f (.cancel, r)).1 = .ok still → still = false := by
  cases running with
  | false => exact (idle_occur s clearOnDisconnect f (.cancel, r)).2.2
  | true =>
    simp only [occur, if_true]
    obtain ⟨result, g⟩ := finish s r f
    cases result with
    | error halt => exact fun _ h => by cases h
    | ok emitted => exact fun _ h => by cases h; rfl

/-- Ticks are not heard by a feeder that does not run any more. -/
theorem occurAll_unheard (f : Feeder σ τ ω) (occurrences : List (Occurrence × Reading)) :
    occurAll s clearOnDisconnect false f occurrences =
      occurAll s clearOnDisconnect false f (occurrences.filter fun o => o.1 ≠ .tick) := by
  induction occurrences generalizing f with
  | nil => rfl
  | cons o rest ih =>
    by_cases htick : o.1 = .tick
    · obtain ⟨o, r⟩ := o
      obtain rfl : o = .tick := htick
      rw [List.filter_cons_of_neg (by simp)]
      exact ih f
    · rw [List.filter_cons_of_pos (by simpa using htick), occurAll, occurAll]
      have hidle := (idle_occur s clearOnDisconnect f o).2.2
      generalize occur s clearOnDisconnect false f o = happened at hidle ⊢
      obtain ⟨result, g⟩ := happened
      cases result with
      | error halt => rfl
      | ok still =>
        obtain rfl := hidle still rfl
        exact ih g

/-- Behind a cancellation it does not matter how often the clock ticks. -/
theorem occurAll_cancelled (running : Bool) (f : Feeder σ τ ω)
    (before : List (Occurrence × Reading)) (r : Reading) (after : List (Occurrence × Reading)) :
    occurAll s clearOnDisconnect running f (before ++ (.cancel, r) :: after) =
      occurAll s clearOnDisconnect running f
        (before ++ (.cancel, r) :: after.filter fun o => o.1 ≠ .tick) := by
  induction before generalizing running f with
  | nil =>
    have hcancel := occur_cancel s clearOnDisconnect running f r
    rw [List.nil_append, List.nil_append, occurAll, occurAll]
    generalize occur s clearOnDisconnect running f (.cancel, r) = happened at hcancel ⊢
    obtain ⟨result, g⟩ := happened
    cases result with
    | error halt => rfl
    | ok still =>
      obtain rfl := hcancel still rfl
      exact occurAll_unheard s clearOnDisconnect g after
  | cons o before ih =>
    rw [List.cons_append, List.cons_append, occurAll, occurAll]
    obtain ⟨result, g⟩ := occur s clearOnDisconnect running f o
    cases result with
    | error halt => rfl
    | ok still => exact ih still g

/-- The exchanges of a run follow its ticks up to the first cancellation. A run that is not halted
has heard all of them, and if it was cancelled it has asked for the flush and stopped. -/
theorem course_occurAll (w : Watched σ τ ω) (occurrences : List (Occurrence × Reading)) :
    ∃ rounds ending, (occurAll s.watched clearOnDisconnect true w occurrences).2.recognizer.2 =
        w.recognizer.2 ++ (rounds.flatten ++ ending) ∧
      Course s.logHypotheses (occurrences.map Prod.fst) rounds ending ∧
      ∀ running, (occurAll s.watched clearOnDisconnect true w occurrences).1 = .ok running →
        rounds.length = ticksHeard (occurrences.map Prod.fst) ∧
        (.cancel ∈ occurrences.map Prod.fst → ending ≠ [] ∧
          (occurAll s.watched clearOnDisconnect true w occurrences).2.stage = .stopped) := by
  induction occurrences generalizing w with
  | nil =>
    refine ⟨[], [], (List.append_nil _).symm, .nothing _ _, fun _ _ => ⟨rfl, fun h => ?_⟩⟩
    cases h
  | cons o rest ih =>
    obtain ⟨asked, hasked, hasks, hends⟩ := asks_occur s clearOnDisconnect w o
    obtain ⟨o, r⟩ := o
    rw [occurAll, List.map_cons]
    generalize occur s.watched clearOnDisconnect true w (o, r) = happened at hasked hends ⊢
    obtain ⟨result, g⟩ := happened
    dsimp only at hasked hasks hends ⊢
    cases o with
    | inbound e =>
      obtain rfl : asked = [] := hasks
      rw [List.append_nil] at hasked
      cases result with
      | error halt =>
        refine ⟨[], [], ?_, .nothing _ _, fun _ h => by cases h⟩
        exact hasked.trans (List.append_nil _).symm
      | ok running =>
        obtain ⟨rfl, -⟩ := hends running rfl
        obtain ⟨rounds, ending, htrace, hcourse, hwhole⟩ := ih g
        refine ⟨rounds, ending, ?_, hcourse.inbound e, fun running hrunning => ?_⟩
        · rw [← hasked]
          exact htrace
        · obtain ⟨hticks, hstopped⟩ := hwhole running hrunning
          refine ⟨hticks.trans (ticksHeard_inbound _ _).symm, fun hcancel => hstopped ?_⟩
          simpa using hcancel
    | tick =>
      cases result with
      | error halt =>
        refine ⟨[asked], [], ?_, (Course.nothing _ _).tick hasks, fun _ h => by cases h⟩
        simpa using hasked
      | ok running =>
        obtain ⟨rfl, -⟩ := hends running rfl
        obtain ⟨rounds, ending, htrace, hcourse, hwhole⟩ := ih g
        refine ⟨asked :: rounds, ending, ?_, hcourse.tick hasks, fun running hrunning => ?_⟩
        · rw [List.flatten_cons, List.append_assoc, ← List.append_assoc, ← hasked]
          exact htrace
        · obtain ⟨hticks, hstopped⟩ := hwhole running hrunning
          refine ⟨?_, fun hcancel => hstopped ?_⟩
          · rw [ticksHeard_tick, List.length_cons, hticks]
          · simpa using hcancel
    | cancel =>
      -- The flush is the last exchange: nothing that occurs behind it moves the feeder.
      obtain ⟨answer, rfl⟩ := hasks
      refine ⟨[], [.finalResult answer], ?_, .cancel _ _ answer, ?_⟩
      · cases result with
        | error halt => exact hasked
        | ok running =>
          obtain ⟨rfl, -⟩ := hends running rfl
          exact (congrArg Prod.snd (idle_occurAll s.watched clearOnDisconnect g rest).1).trans
            hasked
      · intro running hrunning
        refine ⟨(ticksHeard_cancel _).symm, fun _ => ⟨List.cons_ne_nil _ _, ?_⟩⟩
        cases result with
        | error halt => cases hrunning
        | ok still =>
          obtain ⟨rfl, hstage⟩ := hends still rfl
          exact (idle_occurAll s.watched clearOnDisconnect g rest).2.trans (hstage rfl)

/-- The calls of a whole run are a course of its occurrences, and a full one if nothing halted. -/
theorem course_lastOf (period : Nat) (f : Feeder σ τ ω)
    (occurrences : List (Occurrence × Reading)) :
    ∃ rounds ending, callsOf s clearOnDisconnect period f occurrences = rounds.flatten ++ ending ∧
      Course s.logHypotheses (occurrences.map Prod.fst) rounds ending ∧
      ∀ running, (lastOf s.watched clearOnDisconnect period f.watched occurrences).1 =
          .ok running →
        rounds.length = ticksHeard (occurrences.map Prod.fst) ∧
        (.cancel ∈ occurrences.map Prod.fst → ending ≠ [] ∧
          (lastOf s.watched clearOnDisconnect period f.watched occurrences).2.stage =
            .stopped) := by
  unfold callsOf lastOf
  by_cases hperiod : period = 0
  · rw [if_pos hperiod]
    exact ⟨[], [], rfl, .nothing _ _, fun _ h => by cases h⟩
  · rw [if_neg hperiod]
    exact course_occurAll s clearOnDisconnect (f.watched.note [.feederStarted]) occurrences

end Course

/-! ## What may come behind what -/

/-- A call that is the first about a frame, or the flush. -/
def Exchange.opens : Exchange → Bool
  | .accept _ _ | .finalResult _ => true
  | .result _ | .partialResult _ => false

/-- Whether the recognizer failed to answer. -/
def Exchange.failed : Exchange → Bool
  | .accept _ answer => !answer.isOk
  | .result answer | .partialResult answer | .finalResult answer => !answer.isOk

/-- The law of an exchange and of what comes behind it: a frame is not empty, an utterance that has
ended is asked for at once, one in progress too if hypotheses are logged, neither is asked for
otherwise, a failure ends what is done about a frame, and nothing comes behind the flush. -/
structure Leads (logHypotheses : Bool) (e : Exchange) (next : Option Exchange) : Prop where
  frame : ∀ samples answer, e = .accept samples answer → samples ≠ []
  result : (∃ answer, next = some (.result answer)) ↔ ∃ samples, e = .accept samples (.ok true)
  hypothesis : (∃ answer, next = some (.partialResult answer)) ↔
    logHypotheses = true ∧ ∃ samples, e = .accept samples (.ok false)
  failure : e.failed → ∀ e', next = some e' → e'.opens
  flush : ∀ answer, e = .finalResult answer → next = none

/-- Calls in the order that a recognizer expects. -/
structure Orderly (logHypotheses : Bool) (calls : List Exchange) : Prop where
  start : ∀ e, calls[0]? = some e → e.opens
  leads : ∀ (i : Nat) (e : Exchange), calls[i]? = some e → Leads logHypotheses e calls[i + 1]?

section Order

variable {logHypotheses : Bool} {e : Exchange} {calls round : List Exchange}

/-- Behind an exchange that leaves nothing to ask about its frame, the next call opens. -/
theorem leads_of_opens {next : Option Exchange} (hnext : ∀ e', next = some e' → e'.opens)
    (hframe : ∀ samples answer, e = .accept samples answer → samples ≠ [])
    (hresult : ∀ samples, e ≠ .accept samples (.ok true))
    (hhypothesis : logHypotheses = true → ∀ samples, e ≠ .accept samples (.ok false))
    (hflush : ∀ answer, e ≠ .finalResult answer) : Leads logHypotheses e next := by
  refine ⟨hframe, ⟨?_, ?_⟩, ⟨?_, ?_⟩, fun _ => hnext, ?_⟩
  · rintro ⟨answer, rfl⟩
    cases hnext _ rfl
  · rintro ⟨samples, h⟩
    exact absurd h (hresult samples)
  · rintro ⟨answer, rfl⟩
    cases hnext _ rfl
  · rintro ⟨hlog, samples, h⟩
    exact absurd h (hhypothesis hlog samples)
  · exact fun answer h => absurd h (hflush answer)

/-- The law of the first exchange and that of the others together. -/
theorem leads_cons (hfirst : Leads logHypotheses e calls[0]?)
    (hrest : ∀ (i : Nat) (e' : Exchange), calls[i]? = some e' →
      Leads logHypotheses e' calls[i + 1]?)
    (i : Nat) (e' : Exchange) (h : (e :: calls)[i]? = some e') :
    Leads logHypotheses e' (e :: calls)[i + 1]? := by
  cases i with
  | zero =>
    obtain rfl : e = e' := by simpa using h
    simpa using hfirst
  | succ i =>
    rw [List.getElem?_cons_succ] at h ⊢
    exact hrest i e' h

/-- No calls at all are in order. -/
theorem orderly_nil : Orderly logHypotheses [] :=
  ⟨by simp, by simp⟩

/-- A flush alone is in order. -/
theorem orderly_flush (answer : Except RecognizerError String) :
    Orderly logHypotheses [.finalResult answer] := by
  refine ⟨by simp [Exchange.opens], leads_cons ?_ orderly_nil.leads⟩
  exact ⟨by simp, by simp, by simp, by simp, by simp⟩

/-- The calls about a frame come before any calls in order. -/
theorem Orderly.hearing {samples : List Int16} (hsamples : samples ≠ [])
    (hround : Hearing logHypotheses samples round) (hcalls : Orderly logHypotheses calls) :
    Orderly logHypotheses (round ++ calls) := by
  cases hround with
  | refused why =>
    refine ⟨by simp [Exchange.opens], leads_cons ?_ hcalls.leads⟩
    exact leads_of_opens hcalls.start (by simp [hsamples]) (by simp) (by simp) (by simp)
  | ended answer =>
    refine ⟨by simp [Exchange.opens], leads_cons ?_ (leads_cons ?_ hcalls.leads)⟩
    · exact ⟨by simp [hsamples], by simp, by simp, (by rintro ⟨⟩), by simp⟩
    · exact leads_of_opens hcalls.start (by simp) (by simp) (by simp) (by simp)
  | passed hlog =>
    refine ⟨by simp [Exchange.opens], leads_cons ?_ hcalls.leads⟩
    exact leads_of_opens hcalls.start (by simp [hsamples]) (by simp) (by simp [hlog]) (by simp)
  | asked hlog answer =>
    refine ⟨by simp [Exchange.opens], leads_cons ?_ (leads_cons ?_ hcalls.leads)⟩
    · exact ⟨by simp [hsamples], by simp, by simp [hlog], (by rintro ⟨⟩), by simp⟩
    · exact leads_of_opens hcalls.start (by simp) (by simp) (by simp) (by simp)

/-- Exchanges about frames may stand in front of calls in order. -/
theorem orderly_flatten {rounds : List (List Exchange)}
    (hrounds : ∀ round ∈ rounds, AsksOnce logHypotheses round)
    (hcalls : Orderly logHypotheses calls) :
    Orderly logHypotheses (rounds.flatten ++ calls) := by
  induction rounds with
  | nil => exact hcalls
  | cons round rounds ih =>
    rw [List.flatten_cons, List.append_assoc]
    have hrest := ih fun other hmem => hrounds other (List.mem_cons_of_mem round hmem)
    rcases hrounds round List.mem_cons_self with rfl | ⟨samples, hsamples, hround⟩
    · exact hrest
    · exact hrest.hearing hsamples hround

/-- The exchanges of a course are in order. -/
theorem Course.orderly {occurrences : List Occurrence} {rounds : List (List Exchange)}
    {ending : List Exchange} (h : Course logHypotheses occurrences rounds ending) :
    Orderly logHypotheses (rounds.flatten ++ ending) := by
  apply orderly_flatten h.asks
  rcases h.flush with rfl | ⟨-, -, answer, rfl⟩
  · exact orderly_nil
  · exact orderly_flush answer

end Order

/-! ## Runs that come to their end -/

/-- What an occurrence comes to while the feeder runs. -/
def Occurrence.call : Occurrence × Reading → Call
  | (.inbound e, _) => .handle e
  | (.tick, r) => .tick r
  | (.cancel, r) => .finish r

section Budget

variable {s : Setup σ τ ω} {w : Watched σ τ ω} {n : Nat}

/-- An occurrence comes to its end if the budget has the cost of its call. -/
theorem within_occur (hf : s.format.IsPcm16)
    (hsilence : s.silenceSamples * 2 ≤ Machine.maxBytes)
    (hunit : w.pipeline.buffer.unit = s.format.unitBytes) (clearOnDisconnect running : Bool)
    (o : Occurrence × Reading) (hw : Within w n)
    (hroom : n + (Occurrence.call o).cost s < Machine.wordSize) :
    ∃ still v, occur s.watched clearOnDisconnect running w o = (.ok still, v) ∧
      Within v (n + (Occurrence.call o).cost s) ∧
      v.pipeline.buffer.unit = w.pipeline.buffer.unit := by
  obtain ⟨o, r⟩ := o
  cases o with
  | inbound e =>
    obtain ⟨v, hv, hwithin, hsame⟩ := within_handle clearOnDisconnect e hw hroom
    exact ⟨running, v, by simp only [occur, hv], hwithin, hsame⟩
  | tick =>
    cases running with
    | false => exact ⟨false, w, rfl, hw.mono (Nat.le_add_right _ _), rfl⟩
    | true =>
      obtain ⟨outcome, v, hv, hwithin, hsame⟩ := within_tick r hf hsilence hunit hw hroom
      exact ⟨true, v, by simp only [occur, if_true, hv], hwithin, hsame⟩
  | cancel =>
    cases running with
    | false => exact ⟨false, w, rfl, hw.mono (Nat.le_add_right _ _), rfl⟩
    | true =>
      obtain ⟨emitted, v, hv, hwithin, hsame⟩ := within_finish (s := s) r hw hroom
      exact ⟨false, v.note (v.lossNotes ++ [.feederStopped]),
        by simp only [occur, if_true, hv], ⟨hwithin.counters, hwithin.audio⟩, hsame⟩

/-- So do occurrences one after the other. -/
theorem within_occurAll (hf : s.format.IsPcm16)
    (hsilence : s.silenceSamples * 2 ≤ Machine.maxBytes)
    (hunit : w.pipeline.buffer.unit = s.format.unitBytes) (clearOnDisconnect running : Bool)
    (occurrences : List (Occurrence × Reading)) (hw : Within w n)
    (hroom : n + (occurrences.map fun o => (Occurrence.call o).cost s).sum < Machine.wordSize) :
    ∃ still v, occurAll s.watched clearOnDisconnect running w occurrences = (.ok still, v) := by
  induction occurrences generalizing running w n with
  | nil => exact ⟨running, w, rfl⟩
  | cons o rest ih =>
    rw [List.map_cons, List.sum_cons] at hroom
    obtain ⟨still, v, hv, hwithin, hsame⟩ :=
      within_occur hf hsilence hunit clearOnDisconnect running o hw (by omega)
    obtain ⟨last, g, hlast⟩ := ih (hsame.trans hunit) still hwithin (by omega)
    exact ⟨last, g, by simp only [occurAll, hv, hlast]⟩

/-- From a fresh start, a run comes to its end if what happens costs less than a word. -/
theorem completes_lastOf (hf : s.format.IsPcm16)
    (hsilence : s.silenceSamples * 2 ≤ Machine.maxBytes) {gate : Nat} {b : Buffer}
    (hb : Buffer.create s.format gate = .ok b) {f : Feeder σ τ ω}
    (hfresh : f.pipeline = .create b) (clearOnDisconnect : Bool) {period : Nat}
    (hperiod : 0 < period) {occurrences : List (Occurrence × Reading)}
    (hcost : (occurrences.map fun o => (Occurrence.call o).cost s).sum < Machine.wordSize) :
    ∃ running, (lastOf s.watched clearOnDisconnect period f.watched occurrences).1 =
      .ok running := by
  obtain ⟨-, hunit, hempty⟩ := Buffer.create_eq_ok hb
  have hpos := hf.unitBytes_pos
  have hwithin : Within f.watched 0 := within_of_fresh hfresh hempty
  have hstart : Within (f.watched.note [.feederStarted]) 0 := ⟨hwithin.counters, hwithin.audio⟩
  have hbuffer : (f.watched.note [.feederStarted]).pipeline.buffer = b :=
    congrArg Pipeline.buffer hfresh
  obtain ⟨running, v, hv⟩ := within_occurAll hf hsilence (by rw [hbuffer, hunit]; omega)
    clearOnDisconnect true occurrences hstart (by omega)
  refine ⟨running, ?_⟩
  unfold lastOf
  rw [if_neg (Nat.ne_of_gt hperiod), hv]

end Budget

/-- Whatever the recognizer answers and whenever the feeder is told to stop, the calls of a run are
in order, also if the run is halted on its way. They are those of one hearing at most for each tick
before the cancellation, and then the flush: it is the last call, and behind it the feeder has
stopped and does not hear the clock. A run of a fresh feeder does come to its end as long as its
cost is below a word. -/
theorem calls_in_order (s : Setup σ τ ω) (clearOnDisconnect : Bool) (period : Nat)
    (f : Feeder σ τ ω) (occurrences : List (Occurrence × Reading)) :
    let last := lastOf s.watched clearOnDisconnect period f.watched occurrences
    let calls := callsOf s clearOnDisconnect period f occurrences
    let happened := occurrences.map Prod.fst
    (run s clearOnDisconnect period f occurrences = last.1.map fun _ => last.2.plain) ∧
    Orderly s.logHypotheses calls ∧
    (∃ (rounds : List (List Exchange)) (ending : List Exchange),
      calls = rounds.flatten ++ ending ∧
      (∀ round ∈ rounds, AsksOnce s.logHypotheses round) ∧
      rounds.length ≤ ticksHeard happened ∧
      (ending = [] ∨ .cancel ∈ happened ∧ ∃ answer, ending = [.finalResult answer]) ∧
      ∀ running, last.1 = .ok running → rounds.length = ticksHeard happened ∧
        (.cancel ∈ happened →
          (∃ answer, ending = [.finalResult answer]) ∧ last.2.stage = .stopped)) ∧
    (∀ before r after, occurrences = before ++ (.cancel, r) :: after →
      last = lastOf s.watched clearOnDisconnect period f.watched
        (before ++ (.cancel, r) :: after.filter fun o => o.1 ≠ .tick)) ∧
    (0 < period → s.format.IsPcm16 → s.silenceSamples * 2 ≤ Machine.maxBytes →
      (∃ gate b, Buffer.create s.format gate = .ok b ∧ f.pipeline = .create b) →
      (occurrences.map fun o => (Occurrence.call o).cost s).sum < Machine.wordSize →
      ∃ running, last.1 = .ok running) := by
  intro last calls happened
  have hplain : run s clearOnDisconnect period f occurrences =
      last.1.map fun _ => last.2.plain := by
    have hlast := lastOf_plain s clearOnDisconnect period f.watched occurrences
    rw [run_eq, show f = f.watched.plain from rfl, hlast]
    rfl
  obtain ⟨rounds, ending, hcalls, hcourse, hwhole⟩ :=
    course_lastOf s clearOnDisconnect period f occurrences
  have horderly : Orderly s.logHypotheses calls := by
    have h := hcourse.orderly
    rwa [← hcalls] at h
  refine ⟨hplain, horderly, ⟨rounds, ending, hcalls, hcourse.asks,
    hcourse.ticks, hcourse.flush.imp_right fun h => ⟨h.1, h.2.2⟩, fun running hrunning => ?_⟩, ?_,
    ?_⟩
  · obtain ⟨hticks, hstopped⟩ := hwhole running hrunning
    refine ⟨hticks, fun hcancel => ?_⟩
    obtain ⟨hflushed, hstage⟩ := hstopped hcancel
    exact ⟨(hcourse.flush.resolve_left hflushed).2.2, hstage⟩
  · rintro before r after rfl
    show lastOf s.watched clearOnDisconnect period f.watched _ = _
    unfold lastOf
    rw [occurAll_cancelled]
  · rintro hperiod hf hsilence ⟨gate, b, hb, hfresh⟩ hcost
    exact completes_lastOf hf hsilence hb hfresh clearOnDisconnect hperiod hcost

/-- A recognizer that refuses every third frame, ends an utterance with another third of them and
cannot say what it was, told to stop between two ticks and once more later on. -/
theorem calls_in_order_stubborn :
    let stubborn : Recognizer Nat :=
      { name := "stubborn"
        accept := fun _ n =>
          (if n % 3 = 0 then .error (.decode "busy") else .ok (n % 3 = 1), n + 1)
        result := fun n => (.error (.decode "lost"), n)
        partialResult := fun n => (.ok "[\"oui\"]", n)
        finalResult := fun n => (.ok "[\"non\"]", n) }
    let s : Setup Nat TranscriptQueue Disk :=
      ⟨.stereo, 8, true, stubborn, TranscriptQueue.outlet, Disk.medium⟩
    let f : Feeder Nat TranscriptQueue Disk :=
      .create 0 .create (.file []) (.create ⟨4, 4, [], by decide⟩)
    let r : Reading := ⟨⟨0⟩, ⟨0, 0⟩, 0⟩
    let occurrences : List (Occurrence × Reading) :=
      [.tick, .inbound (.audio [1, 0, 3, 0]), .tick, .tick, .cancel, .tick, .cancel].map (·, r)
    let calls := callsOf s true 20 f occurrences
    calls.map Exchange.opens = [true, true, false, true, false, true] ∧
    calls.map Exchange.failed = [true, false, true, false, false, false] ∧
    Orderly true calls ∧
    ∃ running, (lastOf s.watched true 20 f.watched occurrences).1 = .ok running := by
  intro stubborn s f r occurrences calls
  obtain ⟨-, horderly, -, -, hends⟩ := calls_in_order s true 20 f occurrences
  have hcompletes := hends (by decide) ⟨rfl, by decide⟩ (by decide) ⟨4, _, rfl, rfl⟩ (by decide)
  exact ⟨by decide +kernel, by decide +kernel, horderly, hcompletes⟩

end SpeechRelay.Feeder
