import SpeechRelay.Proofs.Feeder.AudioPath
import SpeechRelay.Proofs.Feeder.Hypotheses

/-!
# Feeders in step

Two feeders are in step if they agree in all that is neither their stage, nor diagnostics, nor the
number of faults, and if their recognizers answer alike. Up to the verdict they stay in step
(`listen_alike`), and they conclude alike behind verdicts that stand for the same one
(`conclude_alike`); so they do in a round (`tick_alike`) and at the end (`finish_alike`).
-/

set_option autoImplicit false

namespace SpeechRelay

open Audio

/-! ## Counters apart from faults -/

namespace Counters

/-- The counters as if the recognizer had never failed. -/
def faultless (c : Counters) : Counters := { c with recognizerFaults := 0 }

/-- Counting anything but a fault does not depend on how many faults there were. -/
theorem faultless_record {c d : Counters} (h : d.faultless = c.faultless) {happening : Happening}
    (hroutine : happening ≠ .recognizerFailed) :
    (d.record happening).map faultless = (c.record happening).map faultless := by
  have hd : d = { c with recognizerFaults := d.recognizerFaults } :=
    congrArg (fun e : Counters => { e with recognizerFaults := d.recognizerFaults }) h
  generalize d.recognizerFaults = faults at hd
  subst hd
  -- A happening reads no other counters than those it changes.
  cases happening with
  | ingested bytes =>
    show Except.map _ (ingest _ bytes) = Except.map _ (ingest _ bytes)
    unfold ingest
    cases Machine.word (c.bytesIngested + bytes) with
    | error halt => rfl
    | ok total => cases Machine.word (c.chunksIngested + 1) <;> rfl
  | fed source samples remainder =>
    have hfeed := frames_feed (d := { c with recognizerFaults := faults }) (c := c) rfl source
      samples remainder
    cases hc : c.record (.fed source samples remainder) with
    | error halt =>
      rw [hc] at hfeed
      cases hd : record { c with recognizerFaults := faults } (.fed source samples remainder) with
      | error halt' =>
        rw [hd] at hfeed
        exact congrArg Except.error (Except.error.inj hfeed)
      | ok counted =>
        rw [hd] at hfeed
        cases hfeed
    | ok counted =>
      rw [hc] at hfeed
      cases hd : record { c with recognizerFaults := faults } (.fed source samples remainder) with
      | error halt =>
        rw [hd] at hfeed
        cases hfeed
      | ok counted' =>
        rw [eq_counted_of_record hc, eq_counted_of_record hd]
        rfl
  | transcribed timestamp =>
    show Except.map _ (Machine.word (c.transcriptsEmitted + 1) >>= _) =
      Except.map _ (Machine.word (c.transcriptsEmitted + 1) >>= _)
    cases Machine.word (c.transcriptsEmitted + 1) <;> rfl
  | recognizerFailed => exact absurd rfl hroutine
  | outletRefused =>
    show Except.map _ (Machine.word (c.sinkFailures + 1) >>= _) =
      Except.map _ (Machine.word (c.sinkFailures + 1) >>= _)
    cases Machine.word (c.sinkFailures + 1) <;> rfl
  | linked connection =>
    cases connection with
    | connecting => rfl
    | connected =>
      show Except.map _ (Machine.word (c.connects + 1) >>= _) =
        Except.map _ (Machine.word (c.connects + 1) >>= _)
      cases Machine.word (c.connects + 1) <;> rfl
    | disconnected =>
      show Except.map _ (Machine.word (c.disconnects + 1) >>= _) =
        Except.map _ (Machine.word (c.disconnects + 1) >>= _)
      cases Machine.word (c.disconnects + 1) <;> rfl
  | connectFailed =>
    show Except.map _ (Machine.word (c.connectErrors + 1) >>= _) =
      Except.map _ (Machine.word (c.connectErrors + 1) >>= _)
    cases Machine.word (c.connectErrors + 1) <;> rfl

end Counters

namespace Feeder

variable {σ τ ω ω' : Type}

/-! ## What diagnostics leave alone -/

/-- The state of a feeder apart from its stage, its recognizer, its diagnostics and the number of
faults. -/
structure Core (τ : Type) where
  outlet : τ
  lastTranscript : Nat
  buffer : Buffer
  counters : Counters

/-- The core of a feeder. -/
def core (f : Feeder σ τ ω) : Core τ :=
  ⟨f.outlet, f.lastTranscript, f.pipeline.buffer, f.pipeline.counters.faultless⟩

/-- How many faults have been counted. -/
def faults (f : Feeder σ τ ω) : Nat := f.pipeline.counters.recognizerFaults

/-- The core is left alone by what touches neither outlet, nor buffer, nor counters. -/
theorem Touches.core {s : Setup σ τ ω} {aspects : List Aspect} {f g : Feeder σ τ ω}
    (h : Touches s aspects f g) (houtlet : .outlet ∉ aspects) (hbuffer : .buffer ∉ aspects)
    (hcounters : .counters ∉ aspects) : g.core = f.core := by
  unfold Feeder.core
  rw [(h.outlet houtlet).1, (h.outlet houtlet).2, h.buffer hbuffer, h.counters hcounters]

/-- What does not touch the counters counts no fault. -/
theorem Touches.faults {s : Setup σ τ ω} {aspects : List Aspect} {f g : Feeder σ τ ω}
    (h : Touches s aspects f g) (hnot : .counters ∉ aspects) : g.faults = f.faults :=
  congrArg Counters.recognizerFaults (h.counters hnot)

section Parts

variable (s : Setup σ τ ω) (f : Feeder σ τ ω)

/-- Making a frame changes nothing of the core but the buffer. -/
theorem core_nextFrame :
    (nextFrame s f).2.core = { f.core with buffer := f.pipeline.buffer.take.2 } := by
  have htouched := touches_nextFrame s f
  have houtlet := htouched.outlet (by simp)
  unfold core
  rw [buffer_nextFrame, houtlet.1, houtlet.2, htouched.counters (by simp)]

/-- Making a frame shows in the stage whether there was one in the buffer. -/
theorem stage_nextFrame : (nextFrame s f).2.stage =
    if f.pipeline.buffer.take.1.isSome then .mixing else .polling := by
  unfold nextFrame
  split
  · next heq =>
    rw [heq]
    dsimp only
    split <;> rfl
  · next heq =>
    rw [heq]
    dsimp only
    split <;> rfl

/-- Of the core, recording a happening changes the counters alone. -/
theorem core_record (h : Happening) : (f.record h).2.core =
    { f.core with counters := (f.record h).2.pipeline.counters.faultless } := by
  rcases record_cases f h with ⟨c, -, heq⟩ | ⟨halt, -, heq⟩
  · rw [heq]
    rfl
  · rw [heq]
    rfl

/-- Nothing but a failure of the recognizer is counted as a fault. -/
theorem faults_record {h : Happening} (hroutine : h ≠ .recognizerFailed) :
    (f.record h).2.faults = f.faults := by
  rcases record_cases f h with ⟨c, hc, heq⟩ | ⟨halt, -, heq⟩
  · have hsame : (f.pipeline.counters.counted h).recognizerFaults =
        f.pipeline.counters.recognizerFaults := by
      cases h with
      | recognizerFailed => exact absurd rfl hroutine
      | _ => rfl
    rw [heq]
    show c.recognizerFaults = _
    rw [Counters.eq_counted_of_record hc, hsame]
    rfl
  · rw [heq]

/-- Counting a fault leaves the core alone, and comes to its end where there is room for it. -/
theorem record_fault :
    (f.record .recognizerFailed).2.core = f.core ∧
      (f.faults + 1 < Machine.wordSize → (f.record .recognizerFailed).1 = .ok () ∧
        (f.record .recognizerFailed).2.faults = f.faults + 1) := by
  rcases record_cases f .recognizerFailed with ⟨c, hc, heq⟩ | ⟨halt, hhalt, heq⟩
  · rw [heq]
    have hcounted := Counters.eq_counted_of_record hc
    refine ⟨?_, fun _ => ⟨rfl, congrArg Counters.recognizerFaults hcounted⟩⟩
    show Core.mk _ _ _ c.faultless = Core.mk _ _ _ _
    rw [hcounted]
    rfl
  · rw [heq]
    refine ⟨rfl, fun hroom => ?_⟩
    have hcounts : f.pipeline.counters.record .recognizerFailed =
        .ok (f.pipeline.counters.counted .recognizerFailed) :=
      Counters.word_bind_of_lt hroom _
    rw [hcounts] at hhalt
    cases hhalt

end Parts

section Pair

variable {s : Setup σ τ ω} {s' : Setup σ τ ω'} {f : Watched σ τ ω} {f' : Watched σ τ ω'}

/-! ## Feeders in step -/

/-- The feeders have the same core, and their recognizers answer alike. -/
structure InStep (s : Setup σ τ ω) (f : Watched σ τ ω) (f' : Watched σ τ ω') : Prop where
  alike : s.recognizer.Alike f'.recognizer.1 f.recognizer.1
  core : f'.core = f.core

/-- Anything but a fault is counted by both or by neither. -/
theorem record_congr {α β : Type} {f : Feeder α β ω} {f' : Feeder α β ω'} (hcore : f'.core = f.core)
    {h : Happening} (hroutine : h ≠ .recognizerFailed) :
    (f'.record h).1 = (f.record h).1 ∧ (f'.record h).2.core = (f.record h).2.core := by
  obtain ⟨-, -, -, hcounters⟩ := Core.mk.inj hcore
  have hcount := Counters.faultless_record hcounters hroutine
  obtain ⟨hresult, hafter⟩ := record_alike Counters.faultless hcounters hcount
  refine ⟨hresult, ?_⟩
  rw [core_record, core_record, hcore, hafter]

/-! ## Up to the verdicts -/

/-- A part of a round in which both feeders hear alike and no fault is counted, and after which they
have the same core and stage. -/
structure PartAlike (s : Setup σ τ ω) (f g : Watched σ τ ω) (f' g' : Watched σ τ ω')
    (exchanges exchanges' : List Exchange) : Prop where
  heard : HeardAlike s f g f' g' exchanges exchanges'
  core : g'.core = g.core
  stage : g'.stage = g.stage
  faults : g.faults = f.faults
  faults' : g'.faults = f'.faults

/-- Two parts of a round in which all is alike are one such part. -/
theorem PartAlike.trans {g h : Watched σ τ ω} {g' h' : Watched σ τ ω'}
    {exchanges exchanges' more more' : List Exchange}
    (hfirst : PartAlike s f g f' g' exchanges exchanges')
    (hsecond : PartAlike s g h g' h' more more') :
    PartAlike s f h f' h' (exchanges ++ more) (exchanges' ++ more') where
  heard := hfirst.heard.trans hsecond.heard
  core := hsecond.core
  stage := hsecond.stage
  faults := hsecond.faults.trans hfirst.faults
  faults' := hsecond.faults'.trans hfirst.faults'

/-- Feeders in step make the same frame, and are alike after it. -/
theorem partAlike_nextFrame (hs : s.ApartFromDiagnostics s') (h : InStep s f f') :
    (nextFrame s'.watched f').1 = (nextFrame s.watched f).1 ∧
      PartAlike s f (nextFrame s.watched f).2 f' (nextFrame s'.watched f').2 [] [] := by
  have htouched := touches_nextFrame s.watched f
  have htouched' := touches_nextFrame s'.watched f'
  have hbuffer : f'.pipeline.buffer = f.pipeline.buffer := congrArg Core.buffer h.core
  have hresult : (nextFrame s'.watched f').1 = (nextFrame s.watched f).1 :=
    nextFrame_congr hs.format hs.silenceSamples hbuffer
  have hmade : HeardAlike s f (nextFrame s.watched f).2 f' (nextFrame s'.watched f').2 [] [] := by
    refine ⟨htouched.adds (by simp) (by simp), htouched'.adds (by simp) (by simp), rfl, ?_⟩
    rw [htouched.recognizer (by simp), htouched'.recognizer (by simp)]
    exact h.alike
  refine ⟨hresult, hmade, ?_, ?_, htouched.faults (by simp), htouched'.faults (by simp)⟩
  · rw [core_nextFrame, core_nextFrame, h.core, hbuffer]
  · rw [stage_nextFrame, stage_nextFrame, hbuffer]

/-- Feeders in step record a happening alike, as long as it is no fault. -/
theorem partAlike_record (s' : Setup σ τ ω') (h : InStep s f f') (hstage : f'.stage = f.stage)
    {happening : Happening} (hroutine : happening ≠ .recognizerFailed) (hfeeder : happening.isOfFeeder) :
    (f'.record happening).1 = (f.record happening).1 ∧
      PartAlike s f (f.record happening).2 f' (f'.record happening).2 [] [] := by
  have htouched := touches_record s.watched f hfeeder
  have htouched' := touches_record s'.watched f' hfeeder
  obtain ⟨hresult, hcore⟩ := record_congr h.core hroutine
  have hcounted : HeardAlike s f (f.record happening).2 f' (f'.record happening).2 [] [] := by
    refine ⟨htouched.adds (by simp) (by simp), htouched'.adds (by simp) (by simp), rfl, ?_⟩
    rw [htouched.recognizer (by simp), htouched'.recognizer (by simp)]
    exact h.alike
  refine ⟨hresult, hcounted, hcore, ?_, faults_record f hroutine, faults_record f' hroutine⟩
  rw [htouched.stage (by simp), htouched'.stage (by simp)]
  exact hstage

/-- The log makes no difference to feeders in step. -/
theorem partAlike_logSamples (s' : Setup σ τ ω') (h : InStep s f f') (samples : List Int16) :
    PartAlike s f ((logSamples s.watched samples f).enter .recognizing) f'
      ((logSamples s'.watched samples f').enter .recognizing) [] [] := by
  have hready := touches_ready s.watched f samples
  have hready' := touches_ready s'.watched f' samples
  have hcore := hready.core (by simp) (by simp) (by simp)
  have hcore' := hready'.core (by simp) (by simp) (by simp)
  have halike : HeardAlike s f ((logSamples s.watched samples f).enter .recognizing) f'
      ((logSamples s'.watched samples f').enter .recognizing) [] [] := by
    refine ⟨hready.adds (by simp) (by simp), hready'.adds (by simp) (by simp), rfl, ?_⟩
    rw [hready.recognizer (by simp), hready'.recognizer (by simp)]
    exact h.alike
  exact ⟨halike, hcore'.trans (h.core.trans hcore.symm), rfl, hready.faults (by simp),
    hready'.faults (by simp)⟩

/-- Feeders in step hear a frame alike, and their verdicts stand for the same one. -/
theorem partAlike_hear (hs : s.ApartFromDiagnostics s') (hunmoved : s.recognizer.Unmoved)
    (h : InStep s f f') (hstage : f'.stage = f.stage) (samples : List Int16) :
    ∃ exchanges exchanges', PartAlike s f (hear s.watched samples f).2 f'
        (hear s'.watched samples f').2 exchanges exchanges' ∧
      ∃ v, (hear s.watched samples f).1.StandsFor exchanges v ∧
        (hear s'.watched samples f').1.StandsFor exchanges' v := by
  have hheard := touches_hear s.watched f samples
  have hheard' := touches_hear s'.watched f' samples
  have hcore := hheard.core (by simp) (by simp) (by simp)
  have hcore' := hheard'.core (by simp) (by simp) (by simp)
  obtain ⟨exchanges, exchanges', halike, hverdicts⟩ := hear_alike hs hunmoved h.alike samples
  refine ⟨exchanges, exchanges', ⟨halike, ?_, ?_, hheard.faults (by simp),
    hheard'.faults (by simp)⟩, hverdicts⟩
  · exact hcore'.trans (h.core.trans hcore.symm)
  · rw [hheard'.stage (by simp), hstage, hheard.stage (by simp)]

/-- Two rounds up to the verdict: the same halt, or the same frame and verdicts that stand for the
same one. -/
inductive ListenedAlike : Except Halt (MonoFrame × Verdict) → List Exchange →
    Except Halt (MonoFrame × Verdict) → List Exchange → Prop where
  | halted (halt : Halt) : ListenedAlike (.error halt) [] (.error halt) []
  | heard (frame : MonoFrame) {v v' u : Verdict} {exchanges exchanges' : List Exchange}
    (hverdict : v.StandsFor exchanges u) (hverdict' : v'.StandsFor exchanges' u) :
    ListenedAlike (.ok (frame, v)) exchanges (.ok (frame, v')) exchanges'

/-- Feeders in step are alike up to the verdict. -/
theorem listen_alike (hs : s.ApartFromDiagnostics s') (hunmoved : s.recognizer.Unmoved)
    (h : InStep s f f') :
    ∃ exchanges exchanges', PartAlike s f (listen s.watched f).2 f' (listen s'.watched f').2
        exchanges exchanges' ∧
      ListenedAlike (listen s.watched f).1 exchanges (listen s'.watched f').1 exchanges' := by
  obtain ⟨hresult, hmade⟩ := partAlike_nextFrame hs h
  unfold listen
  generalize nextFrame s.watched f = framed at hresult hmade ⊢
  generalize nextFrame s'.watched f' = framed' at hresult hmade ⊢
  obtain ⟨result, made⟩ := framed
  obtain ⟨result', made'⟩ := framed'
  have hsame : result' = result := hresult
  subst hsame
  cases result' with
  | error halt => exact ⟨[], [], hmade, .halted halt⟩
  | ok next =>
    obtain ⟨frame, remainder⟩ := next
    have hroutine : Happening.fed frame.source frame.samples.length remainder ≠
        .recognizerFailed := by simp
    obtain ⟨hcounted, hrecorded⟩ :=
      partAlike_record s' ⟨hmade.heard.alike, hmade.core⟩ hmade.stage hroutine rfl
    dsimp only
    generalize made.record (.fed frame.source frame.samples.length remainder) = recorded
      at hcounted hrecorded ⊢
    generalize made'.record (.fed frame.source frame.samples.length remainder) = recorded'
      at hcounted hrecorded ⊢
    obtain ⟨counted, g⟩ := recorded
    obtain ⟨counted', g'⟩ := recorded'
    have hsame : counted' = counted := hcounted
    subst hsame
    have hfed := hmade.trans hrecorded
    cases counted' with
    | error halt => exact ⟨[], [], hfed, .halted halt⟩
    | ok u =>
      have hready :=
        partAlike_logSamples s' ⟨hrecorded.heard.alike, hrecorded.core⟩ frame.samples
      obtain ⟨exchanges, exchanges', hheard, v, hverdict, hverdict'⟩ :=
        partAlike_hear hs hunmoved ⟨hready.heard.alike, hready.core⟩ hready.stage frame.samples
      exact ⟨exchanges, exchanges', (hfed.trans hready).trans hheard,
        .heard frame hverdict hverdict'⟩

/-! ## Behind the verdicts -/

/-- Emitting a text offers the same transcript from both and ends alike. -/
theorem emit_congr {α β : Type} {s : Setup α β ω} {s' : Setup α β ω'} {f : Feeder α β ω}
    {f' : Feeder α β ω'} (houtlet : s'.outlet = s.outlet) (hcore : f'.core = f.core) (r : Reading)
    (text : String) :
    (emit s' r text f').1 = (emit s r text f).1 ∧
      (emit s' r text f').2.core = (emit s r text f).2.core := by
  by_cases htext : text = ""
  · subst htext
    exact ⟨rfl, hcore⟩
  · have hoffered : offered r f' text = offered r f text := by
      unfold offered
      rw [show f'.lastTranscript = f.lastTranscript from congrArg Core.lastTranscript hcore]
    have hcall : s'.outlet.emit (offered r f' text) f'.outlet =
        s.outlet.emit (offered r f text) f.outlet := by
      rw [houtlet, hoffered, show f'.outlet = f.outlet from congrArg Core.outlet hcore]
    cases hanswer : s.outlet.emit (offered r f text) f.outlet with
    | mk answer outlet =>
      rw [hanswer] at hcall
      have htold : (told r f' text outlet).core = (told r f text outlet).core :=
        congrArg (fun c : Core β => { c with outlet := outlet, lastTranscript := r.uptime }) hcore
      cases answer with
      | ok accepted =>
        have hcount := record_congr htold (h := .transcribed r.now) (by simp)
        rw [emit_of_accepted r htext hanswer, emit_of_accepted r htext hcall, hoffered]
        exact ⟨congrArg (Except.map fun _ => some (offered r f text)) hcount.1, hcount.2⟩
      | error why =>
        have hnoted : ((told r f' text outlet).note [.transcriptDropped why]).core =
          ((told r f text outlet).note [.transcriptDropped why]).core := htold
        have hcount := record_congr hnoted (h := .outletRefused) (by simp)
        rw [emit_of_refused r htext hanswer, emit_of_refused r htext hcall]
        exact ⟨congrArg (Except.map fun _ => none) hcount.1, hcount.2⟩

/-- Emitting counts no fault. -/
theorem faults_emit {α β : Type} (s : Setup α β ω) (r : Reading) (f : Feeder α β ω)
    (text : String) : (emit s r text f).2.faults = f.faults := by
  by_cases htext : text = ""
  · subst htext
    rfl
  · cases hanswer : s.outlet.emit (offered r f text) f.outlet with
    | mk answer outlet =>
      cases answer with
      | ok accepted =>
        rw [emit_of_accepted r htext hanswer]
        exact faults_record _ (by simp)
      | error why =>
        rw [emit_of_refused r htext hanswer]
        exact faults_record _ (by simp)

/-- The fault that a verdict is, if it is one. -/
def Verdict.fault? : Verdict → Option RecognizerError
  | .fault why => some why
  | _ => none

/-- Without a text, concluding leaves the core alone; and where a fault has room, the round ends
with what the verdict says. -/
theorem conclude_of_idle {α β : Type} (s : Setup α β ω) (r : Reading) (f : Feeder α β ω)
    (frame : MonoFrame) {v : Verdict} (hidle : v.text? = none) :
    (conclude s r frame v f).2.core = f.core ∧
      (f.faults + 1 < Machine.wordSize →
        (conclude s r frame v f).1 = .ok ⟨frame.source, frame.samples.length, none, v.fault?⟩ ∧
        (conclude s r frame v f).2.stage = .awaiting ∧
        (conclude s r frame v f).2.faults = f.faults + v.fault?.toList.length) := by
  cases v with
  | nothing => exact ⟨rfl, fun _ => ⟨rfl, rfl, rfl⟩⟩
  | utterance text => cases hidle
  | fault why =>
    obtain ⟨hcore, hroom⟩ := record_fault (f.note [.frameSkipped frame.source])
    rw [conclude_fault]
    generalize (f.note [.frameSkipped frame.source]).record .recognizerFailed = recorded
      at hcore hroom ⊢
    obtain ⟨counted, g⟩ := recorded
    constructor
    · cases counted <;> exact hcore
    · intro hfits
      obtain ⟨hend, hfaults⟩ := hroom hfits
      have hdone : counted = .ok () := hend
      subst hdone
      exact ⟨rfl, rfl, hfaults⟩

/-- What a round did, apart from its fault. -/
def Outcome.faultless (o : Outcome) : Outcome := { o with fault := none }

/-- The fault of a round has nothing to do with what the round emitted. -/
theorem emitted_faultless (o : Except Halt Outcome) :
    (o.map Outcome.faultless).map Outcome.emitted = o.map Outcome.emitted := by
  cases o <;> rfl

/-- Rounds that end alike. Only a slip makes a difference, and only to the fault. -/
structure OutcomesAlike (o o' : Except Halt Outcome) (exchanges exchanges' : List Exchange) :
    Prop where
  faultless : o'.map Outcome.faultless = o.map Outcome.faultless
  same : slips exchanges = 0 → slips exchanges' = 0 → o' = o

/-- Between these feeders, both have moved to the same stage and have counted one fault at most, and
their numbers of faults differ by slips alone. -/
structure EndAlike {α β : Type} (f g : Feeder α β ω) (f' g' : Feeder α β ω')
    (exchanges exchanges' : List Exchange) : Prop where
  stage : g'.stage = g.stage
  faults : g'.faults - f'.faults + slips exchanges = g.faults - f.faults + slips exchanges'
  atMost : g.faults ≤ f.faults + 1
  atMost' : g'.faults ≤ f'.faults + 1

/-- Where no fault is counted and there was no slip, only the stage has to be the same. -/
theorem EndAlike.of_clear {α β : Type} {f g : Feeder α β ω} {f' g' : Feeder α β ω'}
    {exchanges exchanges' : List Exchange} (hstage : g'.stage = g.stage)
    (hkept : g.faults = f.faults) (hkept' : g'.faults = f'.faults)
    (hclear : slips exchanges = 0) (hclear' : slips exchanges' = 0) :
    EndAlike f g f' g' exchanges exchanges' := by
  refine ⟨hstage, ?_, ?_, ?_⟩
  · omega
  · omega
  · omega

namespace Verdict.StandsFor

variable {v u : Verdict} {exchanges : List Exchange}

/-- A verdict has the text of the one that it stands for. -/
theorem text?_eq (h : v.StandsFor exchanges u) : v.text? = u.text? := by
  cases h <;> rfl

/-- Every slip is a fault more. -/
theorem length_fault? (h : v.StandsFor exchanges u) :
    v.fault?.toList.length = u.fault?.toList.length + slips exchanges := by
  cases h with
  | itself v exchanges hnone => rw [hnone, Nat.add_zero]
  | slip why exchanges hone => rw [hone]; rfl

/-- Without slips, a verdict stands for itself alone. -/
theorem eq_of_clear (h : v.StandsFor exchanges u) (hclear : slips exchanges = 0) : v = u := by
  cases h with
  | itself v exchanges hnone => rfl
  | slip why exchanges hone => omega

/-- A verdict that stands for a text has no slips. -/
theorem clear_of_text (h : v.StandsFor exchanges u) (htext : u.text? ≠ none) :
    slips exchanges = 0 := by
  cases h with
  | itself v exchanges hnone => exact hnone
  | slip why exchanges hone => exact absurd rfl htext

end Verdict.StandsFor

section Conclude

variable {α β : Type} {s : Setup α β ω} {s' : Setup α β ω'} {f : Feeder α β ω} {f' : Feeder α β ω'}
  {v v' u : Verdict} {exchanges exchanges' : List Exchange}

/-- Rounds without a text end alike, for only a slip makes one of them a fault. -/
theorem conclude_alike_of_idle (r : Reading) (frame : MonoFrame)
    (hverdict : v.StandsFor exchanges u) (hverdict' : v'.StandsFor exchanges' u)
    (hidle : u.text? = none) (hroom : f.faults + 1 < Machine.wordSize)
    (hroom' : f'.faults + 1 < Machine.wordSize) :
    OutcomesAlike (conclude s r frame v f).1 (conclude s' r frame v' f').1 exchanges exchanges' ∧
      EndAlike f (conclude s r frame v f).2 f' (conclude s' r frame v' f').2 exchanges
        exchanges' := by
  obtain ⟨houtcome, hstage, hfaults⟩ :=
    (conclude_of_idle s r f frame (hverdict.text?_eq.trans hidle)).2 hroom
  obtain ⟨houtcome', hstage', hfaults'⟩ :=
    (conclude_of_idle s' r f' frame (hverdict'.text?_eq.trans hidle)).2 hroom'
  have hone : ∀ w : Verdict, w.fault?.toList.length ≤ 1 := by
    intro w
    cases w <;> simp [Verdict.fault?]
  have hv := hone v
  have hv' := hone v'
  have hcount := hverdict.length_fault?
  have hcount' := hverdict'.length_fault?
  constructor
  · constructor
    · rw [houtcome, houtcome']
      rfl
    · intro hclear hclear'
      rw [houtcome, houtcome', hverdict.eq_of_clear hclear, hverdict'.eq_of_clear hclear']
  · constructor
    · rw [hstage, hstage']
    · omega
    · omega
    · omega

/-- Rounds with one text emit it alike and end alike. -/
theorem conclude_alike_of_text (houtlet : s'.outlet = s.outlet) (hcore : f'.core = f.core)
    (r : Reading) (frame : MonoFrame) {text : String} (hclear : slips exchanges = 0)
    (hclear' : slips exchanges' = 0) :
    (conclude s' r frame (.utterance text) f').2.core =
        (conclude s r frame (.utterance text) f).2.core ∧
      OutcomesAlike (conclude s r frame (.utterance text) f).1
        (conclude s' r frame (.utterance text) f').1 exchanges exchanges' ∧
      EndAlike f (conclude s r frame (.utterance text) f).2 f'
        (conclude s' r frame (.utterance text) f').2 exchanges exchanges' := by
  have hentered : (f'.enter .emitting).core = (f.enter .emitting).core := hcore
  obtain ⟨hresult, hafter⟩ := emit_congr houtlet hentered r text
  have hfaults := faults_emit s r (f.enter .emitting) text
  have hfaults' := faults_emit s' r (f'.enter .emitting) text
  have hstage := (touches_emit s r (f.enter .emitting) text).stage (by simp)
  have hstage' := (touches_emit s' r (f'.enter .emitting) text).stage (by simp)
  have hsame : (conclude s' r frame (.utterance text) f').1 =
      (conclude s r frame (.utterance text) f).1 := by
    rw [conclude_utterance, conclude_utterance]
    exact congrArg (Except.map fun emitted =>
      (⟨frame.source, frame.samples.length, emitted, none⟩ : Outcome)) hresult
  have hkept : (conclude s r frame (.utterance text) f).2.faults = f.faults := by
    rw [conclude_utterance]
    exact hfaults
  have hkept' : (conclude s' r frame (.utterance text) f').2.faults = f'.faults := by
    rw [conclude_utterance]
    exact hfaults'
  have hmoved : (conclude s' r frame (.utterance text) f').2.stage =
      (conclude s r frame (.utterance text) f).2.stage := by
    rw [conclude_utterance, conclude_utterance]
    exact hstage'.trans hstage.symm
  refine ⟨?_, ⟨congrArg _ hsame, fun _ _ => hsame⟩, .of_clear hmoved hkept hkept' hclear hclear'⟩
  rw [conclude_utterance, conclude_utterance]
  exact hafter

/-- Behind verdicts that stand for the same one, both feeders conclude alike. -/
theorem conclude_alike (houtlet : s'.outlet = s.outlet) (hcore : f'.core = f.core) (r : Reading)
    (frame : MonoFrame) (hverdict : v.StandsFor exchanges u)
    (hverdict' : v'.StandsFor exchanges' u) :
    (conclude s' r frame v' f').2.core = (conclude s r frame v f).2.core ∧
      (f.faults + 1 < Machine.wordSize → f'.faults + 1 < Machine.wordSize →
        OutcomesAlike (conclude s r frame v f).1 (conclude s' r frame v' f').1 exchanges
          exchanges' ∧
        EndAlike f (conclude s r frame v f).2 f' (conclude s' r frame v' f').2 exchanges
          exchanges') := by
  by_cases hidle : u.text? = none
  · have hkept := (conclude_of_idle s r f frame (hverdict.text?_eq.trans hidle)).1
    have hkept' := (conclude_of_idle s' r f' frame (hverdict'.text?_eq.trans hidle)).1
    refine ⟨hkept'.trans (hcore.trans hkept.symm), fun hroom hroom' => ?_⟩
    exact conclude_alike_of_idle r frame hverdict hverdict' hidle hroom hroom'
  · -- A text comes without a slip, so that the verdicts are the same.
    have hclear := hverdict.clear_of_text hidle
    have hclear' := hverdict'.clear_of_text hidle
    rw [hverdict.eq_of_clear hclear, hverdict'.eq_of_clear hclear']
    cases u with
    | nothing => exact absurd rfl hidle
    | fault why => exact absurd rfl hidle
    | utterance text =>
      obtain ⟨hafter, hend⟩ := conclude_alike_of_text houtlet hcore r frame hclear hclear'
      exact ⟨hafter, fun _ _ => hend⟩

end Conclude

/-! ## Acts -/

/-- Feeders in step tick alike and stay in step. -/
theorem tick_alike (hs : s.ApartFromDiagnostics s') (hunmoved : s.recognizer.Unmoved) (r : Reading)
    (h : InStep s f f') :
    ∃ exchanges exchanges',
      (tick s.watched r f).2.recognizer.2 = f.recognizer.2 ++ exchanges ∧
      (tick s'.watched r f').2.recognizer.2 = f'.recognizer.2 ++ exchanges' ∧
      needed exchanges' = needed exchanges ∧
      InStep s (tick s.watched r f).2 (tick s'.watched r f').2 ∧
      (f.faults + 1 < Machine.wordSize → f'.faults + 1 < Machine.wordSize →
        OutcomesAlike (tick s.watched r f).1 (tick s'.watched r f').1 exchanges exchanges' ∧
        EndAlike f (tick s.watched r f).2 f' (tick s'.watched r f').2 exchanges exchanges') := by
  obtain ⟨exchanges, exchanges', hpart, hlistened⟩ := listen_alike hs hunmoved h
  refine ⟨exchanges, exchanges', ?_⟩
  rw [tick_eq, tick_eq]
  generalize listen s.watched f = listened at hpart hlistened ⊢
  generalize listen s'.watched f' = listened' at hpart hlistened ⊢
  obtain ⟨result, heard⟩ := listened
  obtain ⟨result', heard'⟩ := listened'
  obtain ⟨hheard, hcore, hstage, hfaults, hfaults'⟩ := hpart
  dsimp only at hlistened hcore hfaults hfaults'
  cases hlistened with
  | halted halt =>
    exact ⟨hheard.adds.exchanges, hheard.adds'.exchanges, rfl, ⟨hheard.alike, hcore⟩,
      fun _ _ => ⟨⟨rfl, fun _ _ => rfl⟩, .of_clear hstage hfaults hfaults' rfl rfl⟩⟩
  | heard frame hverdict hverdict' =>
    next v v' u =>
    obtain ⟨hafter, hend⟩ := conclude_alike hs.outlet_watched hcore r frame hverdict hverdict'
    have hkept := (touches_conclude s.watched r heard frame v).recognizer (by simp)
    have hkept' := (touches_conclude s'.watched r heard' frame v').recognizer (by simp)
    dsimp only
    refine ⟨?_, ?_, hheard.needed, ⟨?_, hafter⟩, fun hroom hroom' => ?_⟩
    · rw [hkept]
      exact hheard.adds.exchanges
    · rw [hkept']
      exact hheard.adds'.exchanges
    · rw [hkept, hkept']
      exact hheard.alike
    · obtain ⟨houtcome, hends⟩ := hend (by omega) (by omega)
      refine ⟨houtcome, ⟨hends.stage, ?_, ?_, ?_⟩⟩
      · rw [← hfaults, ← hfaults']
        exact hends.faults
      · rw [← hfaults]
        exact hends.atMost
      · rw [← hfaults']
        exact hends.atMost'

/-- Emitting the last text, and stopping. -/
def emitLast (s : Setup σ τ ω) (r : Reading) (text : String) (f : Feeder σ τ ω) :
    Result σ τ ω (Option Transcript) :=
  match emit s r text f with
  | (.ok emitted, f) => (.ok emitted, f.enter .stopped)
  | (.error halt, f) => (.error halt, f)

/-- Feeders in step emit the last text alike. -/
theorem emitLast_alike (hs : s.ApartFromDiagnostics s') (h : InStep s f f') (r : Reading)
    (text : String) :
    (emitLast s.watched r text f).2.recognizer = f.recognizer ∧
      (emitLast s'.watched r text f').2.recognizer = f'.recognizer ∧
      (emitLast s'.watched r text f').1 = (emitLast s.watched r text f).1 ∧
      InStep s (emitLast s.watched r text f).2 (emitLast s'.watched r text f').2 ∧
      (f'.stage = f.stage → EndAlike f (emitLast s.watched r text f).2 f'
        (emitLast s'.watched r text f').2 [] []) := by
  obtain ⟨hresult, hcore⟩ := emit_congr hs.outlet_watched h.core r text
  have hfaults := faults_emit s.watched r f text
  have hfaults' := faults_emit s'.watched r f' text
  have hstage := (touches_emit s.watched r f text).stage (by simp)
  have hstage' := (touches_emit s'.watched r f' text).stage (by simp)
  have hkept := (touches_emit s.watched r f text).recognizer (by simp)
  have hkept' := (touches_emit s'.watched r f' text).recognizer (by simp)
  unfold emitLast
  generalize emit s.watched r text f = told at hresult hcore hstage hfaults hkept ⊢
  generalize emit s'.watched r text f' = told' at hresult hcore hstage' hfaults' hkept' ⊢
  obtain ⟨result, g⟩ := told
  obtain ⟨result', g'⟩ := told'
  have hsame : result' = result := hresult
  have hrecognizer : g.recognizer = f.recognizer := hkept
  have hrecognizer' : g'.recognizer = f'.recognizer := hkept'
  have halike : s.recognizer.Alike g'.recognizer.1 g.recognizer.1 := by
    rw [hrecognizer, hrecognizer']
    exact h.alike
  subst hsame
  cases result' with
  | error halt =>
    refine ⟨hkept, hkept', rfl, ⟨halike, hcore⟩, fun hstart => ?_⟩
    exact .of_clear (hstage'.trans (hstart.trans hstage.symm)) hfaults hfaults' rfl rfl
  | ok emitted =>
    exact ⟨hkept, hkept', rfl, ⟨halike, hcore⟩, fun _ => .of_clear rfl hfaults hfaults' rfl rfl⟩

/-- Feeders in step finish alike: the flush is asked for in any case, and has one answer. -/
theorem finish_alike (hs : s.ApartFromDiagnostics s') (r : Reading) (h : InStep s f f') :
    ∃ answer,
      (finish s.watched r f).2.recognizer.2 = f.recognizer.2 ++ [.finalResult answer] ∧
      (finish s'.watched r f').2.recognizer.2 = f'.recognizer.2 ++ [.finalResult answer] ∧
      InStep s (finish s.watched r f).2 (finish s'.watched r f').2 ∧
      (finish s'.watched r f').1 = (finish s.watched r f).1 ∧
      (f'.stage = f.stage → EndAlike f (finish s.watched r f).2 f' (finish s'.watched r f').2
        [.finalResult answer] [.finalResult answer]) := by
  have hcall : s.watched.recognizer.finalResult f.recognizer =
    keeping .finalResult f.recognizer.2 (s.recognizer.finalResult f.recognizer.1) := rfl
  have hcall' : s'.watched.recognizer.finalResult f'.recognizer =
      keeping .finalResult f'.recognizer.2 (s.recognizer.finalResult f'.recognizer.1) := by
    rw [← hs.recognizer]
    rfl
  obtain ⟨hanswer, hafter⟩ := h.alike.finalResult
  unfold finish
  rw [hcall, hcall']
  generalize s.recognizer.finalResult f.recognizer.1 = answered at hanswer hafter ⊢
  generalize s.recognizer.finalResult f'.recognizer.1 = answered' at hanswer hafter ⊢
  obtain ⟨answer, state⟩ := answered
  obtain ⟨answer', state'⟩ := answered'
  have hsame : answer' = answer := hanswer
  subst hsame
  refine ⟨answer', ?_⟩
  cases answer' with
  | error why =>
    exact ⟨rfl, rfl, ⟨hafter, h.core⟩, rfl, fun _ => .of_clear rfl rfl rfl rfl rfl⟩
  | ok json =>
    dsimp only [keeping]
    cases Recognizer.readFinal json with
    | error why =>
      exact ⟨rfl, rfl, ⟨hafter, h.core⟩, rfl, fun _ => .of_clear rfl rfl rfl rfl rfl⟩
    | ok text =>
      have hready : InStep s (f.hearing (state, f.recognizer.2 ++ [.finalResult (.ok json)]))
          (f'.hearing (state', f'.recognizer.2 ++ [.finalResult (.ok json)])) := ⟨hafter, h.core⟩
      obtain ⟨hkept, hkept', hresult, hstep, hend⟩ := emitLast_alike hs hready r text
      refine ⟨congrArg Prod.snd hkept, congrArg Prod.snd hkept', hstep, hresult, fun hstage => ?_⟩
      obtain ⟨hmoved, hcount, hone, hone'⟩ := hend hstage
      exact ⟨hmoved, hcount, hone, hone'⟩

end Pair

end Feeder

end SpeechRelay
