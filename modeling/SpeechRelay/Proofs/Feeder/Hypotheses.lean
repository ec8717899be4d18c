import SpeechRelay.Proofs.Feeder.Utterances

/-!
# Hypotheses

A recognizer may be asked for the utterance in progress. If that does not change what it answers
later, a feeder that asks and one that does not hear the same, apart from the hypotheses
(`hear_alike`).

A hypothesis that is not given, or that cannot be read, is a slip. It makes the verdict a fault
where there would have been nothing to say, and this is all that it does.
-/

set_option autoImplicit false

namespace SpeechRelay

open Audio

/-! ## Recognizers that answer alike -/

namespace Recognizer

open Feeder

variable {σ : Type}

/-- A call with its answer, and the state of the recognizer after it. -/
def respond (recognizer : Recognizer σ) (x : σ) : RecognizerCall → Exchange × σ
  | .accept samples =>
    (.accept samples (recognizer.accept samples x).1, (recognizer.accept samples x).2)
  | .result => (.result (recognizer.result x).1, (recognizer.result x).2)
  | .partialResult =>
    (.partialResult (recognizer.partialResult x).1, (recognizer.partialResult x).2)
  | .finalResult => (.finalResult (recognizer.finalResult x).1, (recognizer.finalResult x).2)

/-- Calls with their answers, one after the other. -/
def answers (recognizer : Recognizer σ) (x : σ) : List RecognizerCall → List Exchange
  | [] => []
  | call :: calls =>
    (recognizer.respond x call).1 :: recognizer.answers (recognizer.respond x call).2 calls

/-- Calls that ask for no hypothesis are answered alike from both states. -/
def Alike (recognizer : Recognizer σ) (x y : σ) : Prop :=
  ∀ calls, .partialResult ∉ calls → recognizer.answers x calls = recognizer.answers y calls

/-- Asking for a hypothesis does not change what is answered later. -/
def Unmoved (recognizer : Recognizer σ) : Prop :=
  ∀ x, recognizer.Alike (recognizer.partialResult x).2 x

namespace Alike

variable {recognizer : Recognizer σ} {x y z : σ}

/-- Answering alike goes through a state between. -/
theorem trans (hfirst : recognizer.Alike x y) (hsecond : recognizer.Alike y z) :
    recognizer.Alike x z := by
  intro calls hcalls
  rw [hfirst calls hcalls, hsecond calls hcalls]

/-- Answering alike is the same from either side. -/
theorem symm (h : recognizer.Alike x y) : recognizer.Alike y x := by
  intro calls hcalls
  rw [h calls hcalls]

/-- Alike states give one answer to a call that asks for no hypothesis, and are alike after it. -/
theorem respond (h : recognizer.Alike x y) (call : RecognizerCall)
    (hcall : call ≠ .partialResult) :
    (recognizer.respond x call).1 = (recognizer.respond y call).1 ∧
      recognizer.Alike (recognizer.respond x call).2 (recognizer.respond y call).2 := by
  have hcons : ∀ calls, .partialResult ∉ calls →
      recognizer.answers x (call :: calls) = recognizer.answers y (call :: calls) := by
    intro calls hcalls
    apply h
    intro hmem
    rcases List.mem_cons.mp hmem with heq | hmem
    · exact hcall heq.symm
    · exact hcalls hmem
  constructor
  · have hone := hcons [] List.not_mem_nil
    exact (List.cons.inj hone).1
  · intro calls hcalls
    exact (List.cons.inj (hcons calls hcalls)).2

/-- Alike states take samples with one answer, and are alike after it. -/
theorem accept (h : recognizer.Alike x y) (samples : List Int16) :
    (recognizer.accept samples x).1 = (recognizer.accept samples y).1 ∧
      recognizer.Alike (recognizer.accept samples x).2 (recognizer.accept samples y).2 := by
  obtain ⟨hanswer, hafter⟩ := h.respond (.accept samples) (by simp)
  exact ⟨(Exchange.accept.inj hanswer).2, hafter⟩

/-- Alike states end an utterance with one answer, and are alike after it. -/
theorem result (h : recognizer.Alike x y) :
    (recognizer.result x).1 = (recognizer.result y).1 ∧
      recognizer.Alike (recognizer.result x).2 (recognizer.result y).2 := by
  obtain ⟨hanswer, hafter⟩ := h.respond .result (by simp)
  exact ⟨Exchange.result.inj hanswer, hafter⟩

/-- Alike states are flushed with one answer, and are alike after it. -/
theorem finalResult (h : recognizer.Alike x y) :
    (recognizer.finalResult x).1 = (recognizer.finalResult y).1 ∧
      recognizer.Alike (recognizer.finalResult x).2 (recognizer.finalResult y).2 := by
  obtain ⟨hanswer, hafter⟩ := h.respond .finalResult (by simp)
  exact ⟨Exchange.finalResult.inj hanswer, hafter⟩

end Alike

end Recognizer

namespace Feeder

variable {σ τ ω ω' : Type}

/-! ## Hypotheses and slips -/

/-- Whether a hypothesis was asked for. -/
def Exchange.isHypothesis : Exchange → Bool
  | .partialResult _ => true
  | _ => false

/-- Whether a hypothesis was asked for and could not be had. -/
def Exchange.isSlip : Exchange → Bool
  | .partialResult (.error _) => true
  | .partialResult (.ok answer) => !(Recognizer.readPartial answer).isOk
  | _ => false

/-- The exchanges that the work needs. -/
def needed (exchanges : List Exchange) : List Exchange := exchanges.filter (!·.isHypothesis)

/-- How many hypotheses could not be had. -/
def slips (exchanges : List Exchange) : Nat := exchanges.countP Exchange.isSlip

/-- A verdict stands for the one that there is without hypotheses: it is that one, or the fault of a
slip after samples about which there is nothing to say. -/
inductive Verdict.StandsFor : Verdict → List Exchange → Verdict → Prop where
  | itself (v : Verdict) (exchanges : List Exchange) (hnone : slips exchanges = 0) :
    StandsFor v exchanges v
  | slip (why : RecognizerError) (exchanges : List Exchange) (hone : slips exchanges = 1) :
    StandsFor (.fault why) exchanges .nothing

/-- An exchange that is no slip makes no difference to what a verdict stands for. -/
theorem Verdict.StandsFor.cons {v u : Verdict} {exchanges : List Exchange}
    (h : v.StandsFor exchanges u) {exchange : Exchange} (hclear : exchange.isSlip = false) :
    v.StandsFor (exchange :: exchanges) u := by
  have hcount : slips (exchange :: exchanges) = slips exchanges := by
    unfold slips
    rw [List.countP_cons, hclear]
    rfl
  cases h with
  | itself v exchanges hnone => exact .itself v _ (hcount.trans hnone)
  | slip why exchanges hone => exact .slip why _ (hcount.trans hone)

section Hear

variable (s : Setup σ τ ω) (f : Watched σ τ ω)

/-- Asking for a hypothesis needs nothing and moves nothing; at worst it is a slip. -/
theorem askHypothesis_standsFor (hunmoved : s.recognizer.Unmoved) :
    ∃ exchanges, Adds f (askHypothesis s.watched f).2 exchanges [] ∧ needed exchanges = [] ∧
      s.recognizer.Alike (askHypothesis s.watched f).2.recognizer.1 f.recognizer.1 ∧
      (askHypothesis s.watched f).1.StandsFor exchanges .nothing := by
  have hcall : s.watched.recognizer.partialResult f.recognizer =
    keeping .partialResult f.recognizer.2 (s.recognizer.partialResult f.recognizer.1) := rfl
  have hmoved := hunmoved f.recognizer.1
  unfold askHypothesis
  rw [hcall]
  generalize s.recognizer.partialResult f.recognizer.1 = answered at hmoved ⊢
  obtain ⟨answer, state⟩ := answered
  have hadds : Adds f (f.hearing (state, f.recognizer.2 ++ [.partialResult answer]))
    [.partialResult answer] [] := ⟨rfl, (List.append_nil _).symm⟩
  refine ⟨[.partialResult answer], ?_⟩
  cases answer with
  | error why => exact ⟨hadds, rfl, hmoved, .slip why _ rfl⟩
  | ok json =>
    dsimp only [keeping]
    cases hread : Recognizer.readPartial json with
    | error why =>
      have hslip : slips [.partialResult (.ok json)] = 1 := by
        simp [slips, Exchange.isSlip, hread, Except.isOk, Except.toBool]
      exact ⟨hadds, rfl, hmoved, .slip why _ hslip⟩
    | ok text =>
      have hclear : slips [.partialResult (.ok json)] = 0 := by
        simp [slips, Exchange.isSlip, hread, Except.isOk, Except.toBool]
      exact ⟨⟨hadds.exchanges, hadds.offers⟩, rfl, hmoved, .itself .nothing _ hclear⟩

/-- So it is after samples that end no utterance, whether hypotheses are noted or not. -/
theorem hypothesis_standsFor (hunmoved : s.recognizer.Unmoved) :
    ∃ exchanges,
      let ended := if s.watched.logHypotheses then askHypothesis s.watched f else (.nothing, f)
      Adds f ended.2 exchanges [] ∧ needed exchanges = [] ∧
        s.recognizer.Alike ended.2.recognizer.1 f.recognizer.1 ∧
        ended.1.StandsFor exchanges .nothing := by
  by_cases hlog : s.watched.logHypotheses
  · rw [if_pos hlog]
    exact askHypothesis_standsFor s f hunmoved
  · rw [if_neg hlog]
    exact ⟨[], Adds.nothing rfl rfl, rfl, fun _ _ => rfl, .itself .nothing _ rfl⟩

end Hear

section Pair

variable {s : Setup σ τ ω} {s' : Setup σ τ ω'} {f : Watched σ τ ω} {f' : Watched σ τ ω'}

/-- The setups differ in nothing but diagnostics. -/
structure Setup.ApartFromDiagnostics (s : Setup σ τ ω) (s' : Setup σ τ ω') : Prop where
  format : s'.format = s.format
  silenceSamples : s'.silenceSamples = s.silenceSamples
  recognizer : s'.recognizer = s.recognizer
  outlet : s'.outlet = s.outlet

/-- Setups that differ in diagnostics alone have the same watched outlet. -/
theorem Setup.ApartFromDiagnostics.outlet_watched (hs : s.ApartFromDiagnostics s') :
    s'.watched.outlet = s.watched.outlet := by
  unfold Setup.watched
  rw [hs.outlet]

/-- Two feeders had the same exchanges with their recognizers, apart from hypotheses, and from now
on their recognizers answer alike. -/
structure HeardAlike (s : Setup σ τ ω) (f g : Watched σ τ ω) (f' g' : Watched σ τ ω')
    (exchanges exchanges' : List Exchange) : Prop where
  adds : Adds f g exchanges []
  adds' : Adds f' g' exchanges' []
  needed : needed exchanges' = needed exchanges
  alike : s.recognizer.Alike g'.recognizer.1 g.recognizer.1

/-- What is heard alike in two stretches is heard alike over both. -/
theorem HeardAlike.trans {g h : Watched σ τ ω} {g' h' : Watched σ τ ω'}
    {exchanges exchanges' more more' : List Exchange}
    (hfirst : HeardAlike s f g f' g' exchanges exchanges')
    (hsecond : HeardAlike s g h g' h' more more') :
    HeardAlike s f h f' h' (exchanges ++ more) (exchanges' ++ more') where
  adds := hfirst.adds.trans hsecond.adds
  adds' := hfirst.adds'.trans hsecond.adds'
  needed := by
    unfold Feeder.needed
    rw [List.filter_append, List.filter_append]
    exact congrArg₂ List.append hfirst.needed hsecond.needed
  alike := hsecond.alike

/-- The end of an utterance is heard alike, with the same verdict. -/
theorem askUtterance_alike (hs : s.ApartFromDiagnostics s') (f : Watched σ τ ω)
    (f' : Watched σ τ ω') (halike : s.recognizer.Alike f'.recognizer.1 f.recognizer.1) :
    ∃ answer, HeardAlike s f (askUtterance s.watched f).2 f' (askUtterance s'.watched f').2
        [.result answer] [.result answer] ∧
      (askUtterance s'.watched f').1 = (askUtterance s.watched f).1 := by
  have hcall : s.watched.recognizer.result f.recognizer =
    keeping .result f.recognizer.2 (s.recognizer.result f.recognizer.1) := rfl
  have hcall' : s'.watched.recognizer.result f'.recognizer =
      keeping .result f'.recognizer.2 (s.recognizer.result f'.recognizer.1) := by
    rw [← hs.recognizer]
    rfl
  obtain ⟨hanswer, hafter⟩ := halike.result
  unfold askUtterance
  rw [hcall, hcall']
  generalize s.recognizer.result f.recognizer.1 = answered at hanswer hafter ⊢
  generalize s.recognizer.result f'.recognizer.1 = answered' at hanswer hafter ⊢
  obtain ⟨answer, state⟩ := answered
  obtain ⟨answer', state'⟩ := answered'
  have hsame : answer' = answer := hanswer
  subst hsame
  have hadds : Adds f (f.hearing (state, f.recognizer.2 ++ [.result answer']))
    [.result answer'] [] := ⟨rfl, (List.append_nil _).symm⟩
  have hadds' : Adds f' (f'.hearing (state', f'.recognizer.2 ++ [.result answer']))
    [.result answer'] [] := ⟨rfl, (List.append_nil _).symm⟩
  refine ⟨answer', ?_⟩
  cases answer' with
  | error why => exact ⟨⟨hadds, hadds', rfl, hafter⟩, rfl⟩
  | ok json =>
    dsimp only [keeping]
    cases Recognizer.readFinal json with
    | error why => exact ⟨⟨hadds, hadds', rfl, hafter⟩, rfl⟩
    | ok text => exact ⟨⟨hadds, hadds', rfl, hafter⟩, rfl⟩

/-- A frame is heard alike, and both verdicts stand for one and the same. -/
theorem hear_alike (hs : s.ApartFromDiagnostics s') (hunmoved : s.recognizer.Unmoved)
    (halike : s.recognizer.Alike f'.recognizer.1 f.recognizer.1) (samples : List Int16) :
    ∃ exchanges exchanges', HeardAlike s f (hear s.watched samples f).2 f'
        (hear s'.watched samples f').2 exchanges exchanges' ∧
      ∃ v, (hear s.watched samples f).1.StandsFor exchanges v ∧
        (hear s'.watched samples f').1.StandsFor exchanges' v := by
  have hcall : s.watched.recognizer.accept samples f.recognizer =
    keeping (.accept samples) f.recognizer.2 (s.recognizer.accept samples f.recognizer.1) := rfl
  have hcall' : s'.watched.recognizer.accept samples f'.recognizer =
      keeping (.accept samples) f'.recognizer.2 (s.recognizer.accept samples f'.recognizer.1) := by
    rw [← hs.recognizer]
    rfl
  obtain ⟨hanswer, hafter⟩ := halike.accept samples
  unfold hear
  by_cases hempty : samples.isEmpty
  · rw [if_pos hempty, if_pos hempty]
    exact ⟨[], [], ⟨Adds.nothing rfl rfl, Adds.nothing rfl rfl, rfl, halike⟩, .nothing,
      .itself _ _ rfl, .itself _ _ rfl⟩
  · rw [if_neg hempty, if_neg hempty, hcall, hcall']
    generalize s.recognizer.accept samples f.recognizer.1 = answered at hanswer hafter ⊢
    generalize s.recognizer.accept samples f'.recognizer.1 = answered' at hanswer hafter ⊢
    obtain ⟨answer, state⟩ := answered
    obtain ⟨answer', state'⟩ := answered'
    have hsame : answer' = answer := hanswer
    subst hsame
    have hadds : Adds f (f.hearing (state, f.recognizer.2 ++ [.accept samples answer']))
      [.accept samples answer'] [] := ⟨rfl, (List.append_nil _).symm⟩
    have hadds' : Adds f' (f'.hearing (state', f'.recognizer.2 ++ [.accept samples answer']))
      [.accept samples answer'] [] := ⟨rfl, (List.append_nil _).symm⟩
    cases answer' with
    | error why =>
      exact ⟨_, _, ⟨hadds, hadds', rfl, hafter⟩, .fault why, .itself _ _ rfl, .itself _ _ rfl⟩
    | ok ended =>
      cases ended with
      | true =>
        -- Both ask for the text of the utterance, in the same state.
        obtain ⟨answer, hasked, hverdict⟩ := askUtterance_alike hs
          (f.hearing (state, f.recognizer.2 ++ [.accept samples (.ok true)]))
          (f'.hearing (state', f'.recognizer.2 ++ [.accept samples (.ok true)])) hafter
        have hheard : HeardAlike s f _ f' _ [.accept samples (.ok true)]
          [.accept samples (.ok true)] := ⟨hadds, hadds', rfl, hafter⟩
        refine ⟨_, _, hheard.trans hasked, _, .itself _ _ rfl, ?_⟩
        dsimp only [keeping]
        rw [hverdict]
        exact .itself _ _ rfl
      | false =>
        -- Each of them may ask for a hypothesis or not, which moves neither recognizer.
        obtain ⟨more, hmore, hnone, hstill, hverdict⟩ := hypothesis_standsFor s
          (f.hearing (state, f.recognizer.2 ++ [.accept samples (.ok false)])) hunmoved
        obtain ⟨more', hmore', hnone', hstill', hverdict'⟩ := hypothesis_standsFor s'
          (f'.hearing (state', f'.recognizer.2 ++ [.accept samples (.ok false)]))
          (hs.recognizer ▸ hunmoved)
        rw [hs.recognizer] at hstill'
        refine ⟨.accept samples (.ok false) :: more, .accept samples (.ok false) :: more',
          ⟨hadds.trans hmore, hadds'.trans hmore', ?_, ?_⟩, .nothing, ?_, ?_⟩
        · show .accept samples (.ok false) :: needed more' =
            .accept samples (.ok false) :: needed more
          rw [hnone, hnone']
        · exact hstill'.trans (hafter.trans hstill.symm)
        · exact hverdict.cons rfl
        · exact hverdict'.cons rfl

end Pair

end Feeder

end SpeechRelay
