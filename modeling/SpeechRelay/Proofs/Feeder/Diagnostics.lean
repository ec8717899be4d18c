import SpeechRelay.Proofs.Feeder.Lockstep

/-!
# Diagnostics

A feeder may keep a log of what its recognizer hears, and it may ask for hypotheses to note them.
Both are diagnostics: if being asked for a hypothesis does not change what the recognizer answers
later, then two feeders that differ in them alone feed the same frames, ask the same and offer the
same (`diagnostics_change_nothing`). Only a slip shows: as the fault of its round, which is counted.
-/

set_option autoImplicit false

namespace SpeechRelay

open Audio

namespace Feeder

variable {σ τ ω ω' : Type}

section Pair

variable {s : Setup σ τ ω} {s' : Setup σ τ ω'} {f : Watched σ τ ω} {f' : Watched σ τ ω'}

/-! ## What is seen of an act -/

/-- An act as it is seen, and what the feeder is like after it. -/
structure Notice (τ : Type) where
  /-- The frame that the act made, if it was a round. -/
  frame : Option (Except Halt MonoFrame)
  outcome : Option (Except Halt Outcome)
  turn : Turn
  stage : Stage
  core : Core τ
  /-- How many faults were counted in the act. -/
  faults : Nat

/-- What is seen of an act. -/
def notice (s : Setup σ τ ω) (f : Watched σ τ ω) (act : Act) : Notice (τ × List Offer) where
  frame :=
    match act with
    | .tick _ => some ((nextFrame s.watched f).1.map Prod.fst)
    | _ => none
  outcome :=
    match act with
    | .tick r => some (tick s.watched r f).1
    | _ => none
  turn := (turn s f act).1
  stage := (turn s f act).2.stage
  core := (turn s f act).2.core
  faults := (turn s f act).2.faults - f.faults

/-- What is seen of acts, one after the other. -/
def notices (s : Setup σ τ ω) (f : Watched σ τ ω) : List Act → List (Notice (τ × List Offer))
  | [] => []
  | act :: acts => notice s f act :: notices s (turn s f act).2 acts

/-- Acts that do the same work: they feed the same frame, have the same needed exchanges, offer the
same transcripts with the same answers, and leave the same core. -/
structure Notice.WorkAlike {τ : Type} (a b : Notice τ) : Prop where
  frame : b.frame = a.frame
  exchanges : needed b.turn.exchanges = needed a.turn.exchanges
  offers : b.turn.offers = a.turn.offers
  core : b.core = a.core

/-- Acts that end alike: they say the same, and only slips make a difference to the fault of a round
and to the number of faults. -/
structure Notice.EndAlike {τ : Type} (a b : Notice τ) : Prop where
  emitted : b.turn.emitted = a.turn.emitted
  outcome : b.outcome.map (Except.map Outcome.faultless) =
    a.outcome.map (Except.map Outcome.faultless)
  same : slips a.turn.exchanges = 0 → slips b.turn.exchanges = 0 → b.outcome = a.outcome
  stage : b.stage = a.stage
  faults : b.faults + slips a.turn.exchanges = a.faults + slips b.turn.exchanges

/-- The turn of an act has the exchanges that the act adds. -/
theorem exchanges_turn {act : Act} {exchanges : List Exchange}
    (hadds : (perform s.watched f act).2.recognizer.2 = f.recognizer.2 ++ exchanges) :
    (turn s f act).1.exchanges = exchanges := by
  show (perform s.watched f act).2.recognizer.2.drop f.recognizer.2.length = exchanges
  rw [hadds, List.drop_left]

/-- Acts from feeders in step do the same work if they stay in step over the same needed exchanges.
-/
theorem workAlike_of_inStep {act : Act} (hs : s.ApartFromDiagnostics s') (h : InStep s f f')
    (hafter : InStep s (turn s f act).2 (turn s' f' act).2)
    (hneeded : needed (turn s' f' act).1.exchanges = needed (turn s f act).1.exchanges) :
    (notice s f act).WorkAlike (notice s' f' act) := by
  have hbefore : f'.outlet = f.outlet := congrArg Core.outlet h.core
  have hoffered : (turn s' f' act).2.outlet = (turn s f act).2.outlet :=
    congrArg Core.outlet hafter.core
  have hbuffer : f'.pipeline.buffer = f.pipeline.buffer := congrArg Core.buffer h.core
  refine ⟨?_, hneeded, ?_, hafter.core⟩
  · cases act with
    | append bytes => rfl
    | finish r => rfl
    | tick r =>
      have hframe : (nextFrame s'.watched f').1 = (nextFrame s.watched f).1 :=
        nextFrame_congr hs.format hs.silenceSamples hbuffer
      exact congrArg (fun made => some (made.map Prod.fst)) hframe
  · show (turn s' f' act).2.outlet.2.drop f'.outlet.2.length =
      (turn s f act).2.outlet.2.drop f.outlet.2.length
    rw [hoffered, hbefore]

/-- An act keeps two feeders in step. They do the same work in it; and where a fault has room in
both, they end it alike and count one fault at most. -/
theorem act_alike (hs : s.ApartFromDiagnostics s') (hunmoved : s.recognizer.Unmoved)
    (h : InStep s f f') (act : Act) :
    InStep s (turn s f act).2 (turn s' f' act).2 ∧
      (notice s f act).WorkAlike (notice s' f' act) ∧
      (f'.stage = f.stage → f.faults + 1 < Machine.wordSize → f'.faults + 1 < Machine.wordSize →
        (notice s f act).EndAlike (notice s' f' act) ∧
        (turn s f act).2.faults ≤ f.faults + 1 ∧ (turn s' f' act).2.faults ≤ f'.faults + 1) := by
  cases act with
  | append bytes =>
    -- Nothing is asked, and the bytes are the same for both.
    have hexchanges : (turn s f (.append bytes)).1.exchanges = [] :=
      exchanges_turn (List.append_nil f.recognizer.2).symm
    have hexchanges' : (turn s' f' (.append bytes)).1.exchanges = [] :=
      exchanges_turn (List.append_nil f'.recognizer.2).symm
    have hafter : InStep s (turn s f (.append bytes)).2 (turn s' f' (.append bytes)).2 :=
      ⟨h.alike, congrArg (fun c : Core (τ × List Offer) =>
        { c with buffer := c.buffer.append bytes }) h.core⟩
    refine ⟨hafter, workAlike_of_inStep hs h hafter (by rw [hexchanges, hexchanges']),
      fun hstage _ _ => ⟨⟨rfl, rfl, fun _ _ => rfl, hstage, ?_⟩, ?_, ?_⟩⟩
    · rw [show (notice s f (.append bytes)).turn.exchanges = [] from hexchanges,
        show (notice s' f' (.append bytes)).turn.exchanges = [] from hexchanges']
      show f'.faults - f'.faults + 0 = f.faults - f.faults + 0
      omega
    · exact Nat.le_succ f.faults
    · exact Nat.le_succ f'.faults
  | tick r =>
    obtain ⟨exchanges, exchanges', hadds, hadds', hneeded, hafter, hend⟩ :=
      tick_alike hs hunmoved r h
    have hexchanges : (turn s f (.tick r)).1.exchanges = exchanges := exchanges_turn hadds
    have hexchanges' : (turn s' f' (.tick r)).1.exchanges = exchanges' := exchanges_turn hadds'
    refine ⟨hafter, workAlike_of_inStep hs h hafter (by rw [hexchanges, hexchanges', hneeded]),
      fun _ hroom hroom' => ?_⟩
    obtain ⟨houtcome, hends⟩ := hend hroom hroom'
    subst hexchanges hexchanges'
    refine ⟨⟨?_, congrArg some houtcome.faultless, fun hclear hclear' => ?_, hends.stage,
      hends.faults⟩, hends.atMost, hends.atMost'⟩
    · show (tick s'.watched r f').1.map Outcome.emitted = (tick s.watched r f).1.map Outcome.emitted
      rw [← emitted_faultless, houtcome.faultless, emitted_faultless]
    · exact congrArg some (houtcome.same hclear hclear')
  | finish r =>
    obtain ⟨answer, hadds, hadds', hafter, hresult, hend⟩ := finish_alike hs r h
    have hexchanges : (turn s f (.finish r)).1.exchanges = [.finalResult answer] :=
      exchanges_turn hadds
    have hexchanges' : (turn s' f' (.finish r)).1.exchanges = [.finalResult answer] :=
      exchanges_turn hadds'
    refine ⟨hafter, workAlike_of_inStep hs h hafter (by rw [hexchanges, hexchanges']),
      fun hstage _ _ => ?_⟩
    have hends := hend hstage
    refine ⟨⟨hresult, rfl, fun _ _ => rfl, hends.stage, ?_⟩, hends.atMost, hends.atMost'⟩
    rw [show (notice s f (.finish r)).turn.exchanges = _ from hexchanges,
      show (notice s' f' (.finish r)).turn.exchanges = _ from hexchanges']
    exact hends.faults

/-- So does a whole run. -/
theorem workAlike_notices (hs : s.ApartFromDiagnostics s') (hunmoved : s.recognizer.Unmoved)
    (acts : List Act) (h : InStep s f f') :
    List.Forall₂ Notice.WorkAlike (notices s f acts) (notices s' f' acts) := by
  induction acts generalizing f f' with
  | nil => exact .nil
  | cons act acts ih =>
    obtain ⟨hafter, hwork, -⟩ := act_alike hs hunmoved h act
    exact .cons hwork (ih hafter)

/-- With room for the faults, acts of feeders in step end alike. -/
theorem endAlike_notices (hs : s.ApartFromDiagnostics s') (hunmoved : s.recognizer.Unmoved)
    (acts : List Act) (h : InStep s f f') (hstage : f'.stage = f.stage)
    (hroom : f.faults + acts.length < Machine.wordSize)
    (hroom' : f'.faults + acts.length < Machine.wordSize) :
    List.Forall₂ Notice.EndAlike (notices s f acts) (notices s' f' acts) := by
  induction acts generalizing f f' with
  | nil => exact .nil
  | cons act acts ih =>
    rw [List.length_cons] at hroom hroom'
    obtain ⟨hafter, -, hends⟩ := act_alike hs hunmoved h act
    obtain ⟨hend, hone, hone'⟩ := hends hstage (by omega) (by omega)
    exact .cons hend (ih hafter hend.stage (by omega) (by omega))

end Pair

/-- The feeders differ in nothing but diagnostics. -/
structure ApartFromDiagnostics (f : Feeder σ τ ω) (f' : Feeder σ τ ω') : Prop where
  stage : f'.stage = f.stage
  recognizer : f'.recognizer = f.recognizer
  outlet : f'.outlet = f.outlet
  lastTranscript : f'.lastTranscript = f.lastTranscript
  buffer : f'.pipeline.buffer = f.pipeline.buffer
  counters : f'.pipeline.counters = f.pipeline.counters

/-- Of two feeders one may note hypotheses and the other not, and each may keep a log, on a medium
whose operations fail at any time. If asking for a hypothesis does not change what the recognizer
answers later, then whatever bytes are added and whenever they tick and finish: in every act both
feed the same frame, have the same exchanges with their recognizers apart from hypotheses, and offer
the same transcripts with the same answers. They end it alike and are at the same stage, but a slip
shows in the fault of its round and in the number of faults. That is so as long as faults can be
counted. -/
theorem diagnostics_change_nothing {s : Setup σ τ ω} {s' : Setup σ τ ω'}
    (hs : s.ApartFromDiagnostics s') (hunmoved : s.recognizer.Unmoved) {f : Feeder σ τ ω}
    {f' : Feeder σ τ ω'} (hf : f.ApartFromDiagnostics f') (acts : List Act) :
    List.Forall₂ Notice.WorkAlike (notices s f.watched acts) (notices s' f'.watched acts) ∧
      (f.faults + acts.length < Machine.wordSize →
        List.Forall₂ Notice.EndAlike (notices s f.watched acts) (notices s' f'.watched acts)) := by
  have hstep : InStep s f.watched f'.watched := by
    constructor
    · intro calls _
      show s.recognizer.answers f'.recognizer calls = s.recognizer.answers f.recognizer calls
      rw [hf.recognizer]
    · show Core.mk (f'.outlet, []) f'.lastTranscript f'.pipeline.buffer
          f'.pipeline.counters.faultless =
        Core.mk (f.outlet, []) f.lastTranscript f.pipeline.buffer f.pipeline.counters.faultless
      rw [hf.outlet, hf.lastTranscript, hf.buffer, hf.counters]
  have hfaults : f'.faults = f.faults := congrArg Counters.recognizerFaults hf.counters
  refine ⟨workAlike_notices hs hunmoved acts hstep, fun hroom => ?_⟩
  apply endAlike_notices hs hunmoved acts hstep hf.stage hroom
  show f'.faults + acts.length < Machine.wordSize
  rw [hfaults]
  exact hroom

/-- A recognizer that fails to give the second hypothesis, with hypotheses noted and a log on a full
device, beside the same without diagnostics: one fault more, and the same transcript at the end. -/
theorem diagnostics_change_nothing_scripted :
    let script : Recognizer Nat :=
      { name := "scripted"
        accept := fun _ n => (if n = 2 then .error (.decode "noise") else .ok false, n + 1)
        result := fun n => (.ok "[\"\"]", n)
        partialResult := fun n => (if n = 2 then .error (.decode "none") else .ok "[\"o\"]", n)
        finalResult := fun n => (.ok "[\"oui\"]", n) }
    let s : Setup Nat TranscriptQueue Disk :=
      ⟨.stereo, 2, true, script, TranscriptQueue.outlet, Disk.medium⟩
    let fine : Medium Unit := ⟨fun _ => (true, ()), fun _ _ => (true, ())⟩
    let s' : Setup Nat TranscriptQueue Unit :=
      ⟨.stereo, 2, false, script, TranscriptQueue.outlet, fine⟩
    let b : Buffer := ⟨4, 4, [], by decide⟩
    let f : Feeder Nat TranscriptQueue Disk := startLog s (.create 0 .create .full (.create b))
    let f' : Feeder Nat TranscriptQueue Unit := .create 0 .create () (.create b)
    let r : Reading := ⟨⟨0⟩, ⟨7, 0⟩, 0⟩
    let acts : List Act := [.tick r, .append [1, 0, 3, 0], .tick r, .tick r, .finish r]
    s.ApartFromDiagnostics s' ∧ s.recognizer.Unmoved ∧ f.ApartFromDiagnostics f' ∧
      (notices s f.watched acts).map Notice.faults = [0, 0, 1, 1, 0] ∧
      (notices s' f'.watched acts).map Notice.faults = [0, 0, 0, 1, 0] ∧
      (notices s f.watched acts).map (fun n => n.turn.offers.map Offer.text) =
        [[], [], [], [], ["oui"]] ∧
      List.Forall₂ Notice.WorkAlike (notices s f.watched acts) (notices s' f'.watched acts) ∧
      List.Forall₂ Notice.EndAlike (notices s f.watched acts) (notices s' f'.watched acts) := by
  intro script s fine s' b f f' r acts
  have hs : s.ApartFromDiagnostics s' := ⟨rfl, rfl, rfl, rfl⟩
  have hunmoved : s.recognizer.Unmoved := by
    intro n calls hcalls
    rfl
  have hf : f.ApartFromDiagnostics f' := ⟨rfl, rfl, rfl, rfl, rfl, rfl⟩
  have h := diagnostics_change_nothing hs hunmoved hf acts
  refine ⟨hs, hunmoved, hf, ?_, ?_, ?_, h.1, h.2 (by decide)⟩
  · decide +kernel
  · decide +kernel
  · decide +kernel

end Feeder

end SpeechRelay
