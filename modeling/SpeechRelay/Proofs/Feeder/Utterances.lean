import SpeechRelay.Proofs.Feeder.Round
import SpeechRelay.Proofs.Feeder.Watching

/-!
# What is offered is what was finalized

The texts offered to the outlet are, one for one and in order, the texts of the recognizer's answers
about utterances that have ended, as far as these could be read and have words in them
(`offered_eq_finalized`). What the recognizer says about an utterance in progress is never offered.

The law holds of every single act (`exact_turn`). In a round it comes from the verdict on the
frame, which reflects the last exchange (`Verdict.Reflects`): only the answer about an utterance
that has ended gives one with a text, only a failure one that is a fault (`adds_hear`), and only a
verdict with a text makes the feeder offer something (`adds_conclude`).
-/

set_option autoImplicit false

namespace SpeechRelay

/-- The trimmed text of an answer about an utterance that has ended. -/
def Recognizer.spoken? (answer : String) : Option String :=
  match finalShape.ofText answer with
  | .ok [.text s] => some (Text.trimmed s)
  | _ => none

/-- What is read of a final answer is its trimmed text. -/
theorem Recognizer.readFinal_eq (answer : String) :
    (readFinal answer).toOption = spoken? answer := by
  unfold readFinal readText spoken?
  rcases finalShape.ofText answer with problem | values
  · rfl
  · rcases values with _ | ⟨v, _ | ⟨w, values⟩⟩
    · rfl
    · cases v <;> rfl
    · cases v <;> rfl

namespace Feeder

open Audio

variable {σ τ ω : Type}

/-- The text of an utterance that has ended, if the exchange gave one with words in it. -/
def Exchange.finalized? : Exchange → Option String
  | .result (.ok answer) => (Recognizer.spoken? answer).filter (· ≠ "")
  | .finalResult (.ok answer) => (Recognizer.spoken? answer).filter (· ≠ "")
  | _ => none

/-- The texts that exchanges have finalized. -/
def finalized (exchanges : List Exchange) : List String :=
  exchanges.filterMap Exchange.finalized?

/-- One exchange has finalized one text at most. -/
@[simp] theorem finalized_singleton (exchange : Exchange) :
    finalized [exchange] = exchange.finalized?.toList := by
  unfold finalized
  cases h : exchange.finalized? <;> simp [h]

/-- Exchanges in a row finalize one after the other. -/
@[simp] theorem finalized_append (exchanges more : List Exchange) :
    finalized (exchanges ++ more) = finalized exchanges ++ finalized more := List.filterMap_append

/-- A text without words in it is not finalized. -/
theorem ne_empty_of_mem_finalized {exchanges : List Exchange} {text : String}
    (h : text ∈ finalized exchanges) : text ≠ "" := by
  obtain ⟨exchange, -, hexchange⟩ := List.mem_filterMap.mp h
  unfold Exchange.finalized? at hexchange
  split at hexchange
  · simpa using (Option.filter_eq_some_iff.mp hexchange).2
  · simpa using (Option.filter_eq_some_iff.mp hexchange).2
  · cases hexchange

/-- No finalized text is empty. -/
theorem filter_finalized (exchanges : List Exchange) :
    (finalized exchanges).filter (· ≠ "") = finalized exchanges := by
  apply List.filter_eq_self.mpr
  intro text hmem
  simpa using ne_empty_of_mem_finalized hmem

/-- The text of an offer. -/
def Offer.text (offer : Offer) : String := offer.transcript.text

/-- The transcripts that the outlet accepted. -/
def accepted (offers : List Offer) : List Transcript :=
  offers.filterMap fun offer =>
    match offer.answer with
    | .ok () => some offer.transcript
    | .error _ => none

/-- A mapped result came to its end only if the result did. -/
theorem map_eq_ok {α β : Type} {result : Result σ τ ω α} {k : α → β} {b : β}
    (h : (result.map (Except.map k) id).1 = .ok b) : ∃ a, result.1 = .ok a ∧ k a = b := by
  obtain ⟨answer, f⟩ := result
  cases answer with
  | error halt => cases h
  | ok a => exact ⟨a, rfl, Except.ok.inj h⟩

/-! ## Exchanges and verdicts -/

/-- The failure that an answer is, if it is one. -/
def failure? {α : Type} : Except RecognizerError α → Option RecognizerError
  | .error why => some why
  | .ok _ => none

/-- Why an exchange failed: the call did, or its answer cannot be read. -/
def Exchange.failure? : Exchange → Option RecognizerError
  | .accept _ answer => Feeder.failure? answer
  | .result answer => Feeder.failure? (answer.bind Recognizer.readFinal)
  | .partialResult answer => Feeder.failure? (answer.bind Recognizer.readPartial)
  | .finalResult answer => Feeder.failure? (answer.bind Recognizer.readFinal)

/-- Why exchanges failed, those that did. -/
def failures (exchanges : List Exchange) : List RecognizerError :=
  exchanges.filterMap Exchange.failure?

/-- One exchange fails once at most. -/
@[simp] theorem failures_singleton (exchange : Exchange) :
    failures [exchange] = exchange.failure?.toList := by
  unfold failures
  cases h : exchange.failure? <;> simp [h]

/-- Exchanges in a row fail one after the other. -/
@[simp] theorem failures_append (exchanges more : List Exchange) :
    failures (exchanges ++ more) = failures exchanges ++ failures more := List.filterMap_append

/-- The text of a verdict, if it has one. -/
def Verdict.text? : Verdict → Option String
  | .utterance text => some text
  | _ => none

/-- The failure that a verdict is about, if it is one. -/
def Verdict.failure? : Verdict → Option RecognizerError
  | .fault why => some why
  | _ => none

/-- A verdict has the text that an exchange has finalized, and is about the failure of the
exchange. -/
structure Verdict.Reflects (v : Verdict) (exchange : Exchange) : Prop where
  text : v.text? = exchange.finalized?
  failure : v.failure? = exchange.failure?

/-! ## What a part of a round adds -/

/-- From one feeder to the other these exchanges and these offers have been kept. -/
structure Adds (f g : Watched σ τ ω) (exchanges : List Exchange) (offers : List Offer) : Prop where
  exchanges : g.recognizer.2 = f.recognizer.2 ++ exchanges
  offers : g.outlet.2 = f.outlet.2 ++ offers

namespace Adds

variable {f g h : Watched σ τ ω} {exchanges more : List Exchange} {offers later : List Offer}

/-- Where recognizer and outlet are as they were, nothing is added. -/
theorem nothing (hrecognizer : g.recognizer = f.recognizer) (houtlet : g.outlet = f.outlet) :
    Adds f g [] [] := by
  refine ⟨?_, ?_⟩
  · rw [hrecognizer, List.append_nil]
  · rw [houtlet, List.append_nil]

/-- What two stretches add is added over both, in their order. -/
theorem trans (hfirst : Adds f g exchanges offers) (hsecond : Adds g h more later) :
    Adds f h (exchanges ++ more) (offers ++ later) := by
  refine ⟨?_, ?_⟩
  · rw [hsecond.exchanges, hfirst.exchanges, List.append_assoc]
  · rw [hsecond.offers, hfirst.offers, List.append_assoc]

end Adds

/-- What touches neither the recognizer nor the outlet adds nothing. -/
theorem Touches.adds {s : Setup σ τ ω} {aspects : List Aspect} {f g : Watched σ τ ω}
    (h : Touches s.watched aspects f g) (hrecognizer : .recognizer ∉ aspects)
    (houtlet : .outlet ∉ aspects) : Adds f g [] [] :=
  Adds.nothing (h.recognizer hrecognizer) (h.outlet houtlet).1

section Parts

variable (s : Setup σ τ ω) (r : Reading) (f : Watched σ τ ω)

/-- Asking for a hypothesis adds one exchange, and the verdict reflects it. -/
theorem adds_askHypothesis :
    ∃ answer, Adds f (askHypothesis s.watched f).2 [.partialResult answer] [] ∧
      (askHypothesis s.watched f).1.Reflects (.partialResult answer) := by
  have hcall : s.watched.recognizer.partialResult f.recognizer =
    keeping .partialResult f.recognizer.2 (s.recognizer.partialResult f.recognizer.1) := rfl
  unfold askHypothesis
  rw [hcall]
  obtain ⟨answer, state⟩ := s.recognizer.partialResult f.recognizer.1
  refine ⟨answer, ?_⟩
  cases answer with
  | error why => exact ⟨⟨rfl, (List.append_nil _).symm⟩, ⟨rfl, rfl⟩⟩
  | ok json =>
    have hfailure : (Exchange.partialResult (.ok json)).failure? =
      Feeder.failure? (Recognizer.readPartial json) := rfl
    dsimp only [keeping]
    cases hread : Recognizer.readPartial json with
    | error why =>
      rw [hread] at hfailure
      exact ⟨⟨rfl, (List.append_nil _).symm⟩, ⟨rfl, hfailure.symm⟩⟩
    | ok text =>
      rw [hread] at hfailure
      exact ⟨⟨rfl, (List.append_nil _).symm⟩, ⟨rfl, hfailure.symm⟩⟩

/-- Asking for an utterance adds one exchange, and the verdict reflects it. -/
theorem adds_askUtterance :
    ∃ answer, Adds f (askUtterance s.watched f).2 [.result answer] [] ∧
      (askUtterance s.watched f).1.Reflects (.result answer) := by
  have hcall : s.watched.recognizer.result f.recognizer =
    keeping .result f.recognizer.2 (s.recognizer.result f.recognizer.1) := rfl
  unfold askUtterance
  rw [hcall]
  obtain ⟨answer, state⟩ := s.recognizer.result f.recognizer.1
  refine ⟨answer, ?_⟩
  cases answer with
  | error why => exact ⟨⟨rfl, (List.append_nil _).symm⟩, ⟨rfl, rfl⟩⟩
  | ok json =>
    have hspoken := Recognizer.readFinal_eq json
    have hfinalized : (Exchange.result (.ok json)).finalized? =
      (Recognizer.spoken? json).filter (· ≠ "") := rfl
    have hfailure : (Exchange.result (.ok json)).failure? =
      Feeder.failure? (Recognizer.readFinal json) := rfl
    dsimp only [keeping]
    rw [← hspoken] at hfinalized
    cases hread : Recognizer.readFinal json with
    | error why =>
      rw [hread] at hfinalized hfailure
      exact ⟨⟨rfl, (List.append_nil _).symm⟩, ⟨hfinalized.symm, hfailure.symm⟩⟩
    | ok text =>
      rw [hread] at hfinalized hfailure
      refine ⟨⟨rfl, (List.append_nil _).symm⟩, ?_⟩
      by_cases htext : text = ""
      · subst htext
        exact ⟨hfinalized.symm, hfailure.symm⟩
      · dsimp only
        rw [if_neg htext]
        refine ⟨?_, hfailure.symm⟩
        rw [hfinalized]
        simp [htext, Verdict.text?, Except.toOption, Option.filter]

/-- The verdict on samples has the text that the exchanges about them have finalized, and it is a
fault if and only if one of them failed. -/
theorem adds_hear (samples : List Int16) :
    ∃ exchanges, Adds f (hear s.watched samples f).2 exchanges [] ∧
      finalized exchanges = (hear s.watched samples f).1.text?.toList ∧
      failures exchanges = (hear s.watched samples f).1.failure?.toList := by
  have hcall : s.watched.recognizer.accept samples f.recognizer =
    keeping (.accept samples) f.recognizer.2 (s.recognizer.accept samples f.recognizer.1) := rfl
  -- Samples that were accepted are an exchange with neither a text nor a failure.
  have hbehind {ended : Bool} {exchange : Exchange} {v : Verdict} (h : v.Reflects exchange) :
      finalized ([.accept samples (.ok ended)] ++ [exchange]) = v.text?.toList ∧
        failures ([.accept samples (.ok ended)] ++ [exchange]) = v.failure?.toList := by
    rw [finalized_append, failures_append, finalized_singleton, failures_singleton, h.text,
      h.failure, finalized_singleton, failures_singleton]
    exact ⟨rfl, rfl⟩
  unfold hear
  by_cases hempty : samples.isEmpty
  · rw [if_pos hempty]
    exact ⟨[], Adds.nothing rfl rfl, rfl, rfl⟩
  · rw [if_neg hempty, hcall]
    obtain ⟨answer, state⟩ := s.recognizer.accept samples f.recognizer.1
    have haccept : Adds f (f.hearing (state, f.recognizer.2 ++ [.accept samples answer]))
        [.accept samples answer] [] := ⟨rfl, (List.append_nil _).symm⟩
    cases answer with
    | error why => exact ⟨_, haccept, rfl, rfl⟩
    | ok ended =>
      cases ended with
      | true =>
        obtain ⟨answer, hask, hverdict⟩ := adds_askUtterance s
          (f.hearing (state, f.recognizer.2 ++ [.accept samples (.ok true)]))
        exact ⟨_, haccept.trans hask, hbehind hverdict⟩
      | false =>
        have hlog : s.watched.logHypotheses = s.logHypotheses := rfl
        dsimp only [keeping]
        rw [hlog]
        cases s.logHypotheses with
        | false => exact ⟨_, haccept, rfl, rfl⟩
        | true =>
          obtain ⟨answer, hask, hverdict⟩ := adds_askHypothesis s
            (f.hearing (state, f.recognizer.2 ++ [.accept samples (.ok false)]))
          exact ⟨_, haccept.trans hask, hbehind hverdict⟩

/-- A round that comes to a verdict has had the exchanges that give the verdict its text. -/
theorem adds_listen :
    ∃ exchanges, Adds f (listen s.watched f).2 exchanges [] ∧
      finalized exchanges =
        match (listen s.watched f).1 with
        | .ok (_, v) => v.text?.toList
        | .error _ => [] := by
  have hframe := (touches_nextFrame s.watched f).adds (by simp) (by simp)
  unfold listen
  generalize nextFrame s.watched f = framed at hframe ⊢
  obtain ⟨result, made⟩ := framed
  cases result with
  | error halt => exact ⟨[], hframe, rfl⟩
  | ok next =>
    obtain ⟨frame, remainder⟩ := next
    have hcount := (touches_record s.watched made
      (h := .fed frame.source frame.samples.length remainder) rfl).adds (by simp) (by simp)
    dsimp only
    generalize made.record (.fed frame.source frame.samples.length remainder) = recorded
      at hcount ⊢
    obtain ⟨counted, g⟩ := recorded
    cases counted with
    | error halt => exact ⟨[], hframe.trans hcount, rfl⟩
    | ok u =>
      have hlogged := (touches_logSamples s.watched g frame.samples).adds (by simp) (by simp)
      obtain ⟨exchanges, hhear, hfinalized, -⟩ := adds_hear s
        ((logSamples s.watched frame.samples g).enter .recognizing) frame.samples
      have hready : Adds g ((logSamples s.watched frame.samples g).enter .recognizing) [] [] :=
        ⟨hlogged.exchanges, hlogged.offers⟩
      exact ⟨exchanges, ((hframe.trans hcount).trans hready).trans hhear, hfinalized⟩

/-- What comes of emitting a text: one offer, unless the text is empty, and the transcript in it is
emitted if and only if the outlet accepted it. -/
theorem adds_emit (text : String) :
    ∃ offers, Adds f (emit s.watched r text f).2 [] offers ∧
      offers.map Offer.text = (some text).toList.filter (· ≠ "") ∧
      ∀ emitted, (emit s.watched r text f).1 = .ok emitted → emitted.toList = accepted offers := by
  by_cases htext : text = ""
  · subst htext
    refine ⟨[], Adds.nothing rfl rfl, rfl, fun emitted hemitted => ?_⟩
    cases hemitted
    rfl
  · have hoffer : s.watched.outlet.emit (offered r f text) f.outlet =
      keeping (Offer.mk (offered r f text)) f.outlet.2
        (s.outlet.emit (offered r f text) f.outlet.1) := rfl
    have htexts (answer : Except OutletError Unit) :
        [Offer.mk (offered r f text) answer].map Offer.text =
          (some text).toList.filter (· ≠ "") := by
      simp [htext, Offer.text, offered, Transcript.make]
    cases hanswer : s.outlet.emit (offered r f text) f.outlet.1 with
    | mk answer state =>
      rw [hanswer] at hoffer
      cases answer with
      | ok u =>
        rw [emit_of_accepted r htext hoffer]
        have hcount := (touches_record s.watched (told r f text (state, f.outlet.2 ++
          [⟨offered r f text, .ok u⟩])) (h := .transcribed r.now) rfl).adds (by simp) (by simp)
        refine ⟨_, ⟨hcount.exchanges, ?_⟩, htexts (.ok u), fun emitted hemitted => ?_⟩
        · exact hcount.offers.trans (List.append_nil _)
        · obtain ⟨counted, -, rfl⟩ := map_eq_ok hemitted
          rfl
      | error why =>
        rw [emit_of_refused r htext hoffer]
        have hcount := (touches_record s.watched ((told r f text (state, f.outlet.2 ++
          [⟨offered r f text, .error why⟩])).note [.transcriptDropped why])
          (h := .outletRefused) rfl).adds (by simp) (by simp)
        refine ⟨_, ⟨hcount.exchanges, ?_⟩, htexts (.error why), fun emitted hemitted => ?_⟩
        · exact hcount.offers.trans (List.append_nil _)
        · obtain ⟨counted, -, rfl⟩ := map_eq_ok hemitted
          rfl

/-- The end of a round offers the text of its verdict if it has words, and reports what was
accepted. -/
theorem adds_conclude (frame : MonoFrame) (v : Verdict) :
    ∃ offers, Adds f (conclude s.watched r frame v f).2 [] offers ∧
      offers.map Offer.text = v.text?.toList.filter (· ≠ "") ∧
      ∀ o, (conclude s.watched r frame v f).1 = .ok o → o.emitted.toList = accepted offers := by
  cases v with
  | nothing =>
    refine ⟨[], Adds.nothing rfl rfl, rfl, fun o ho => ?_⟩
    cases ho
    rfl
  | fault why =>
    have hcount := (touches_record s.watched (f.note [.frameSkipped frame.source])
      (h := .recognizerFailed) rfl).adds (by simp) (by simp)
    rw [conclude_fault]
    generalize (f.note [.frameSkipped frame.source]).record .recognizerFailed = recorded at hcount ⊢
    obtain ⟨counted, g⟩ := recorded
    refine ⟨[], ?_, rfl, fun o ho => ?_⟩
    · cases counted <;> exact ⟨hcount.exchanges, hcount.offers⟩
    · cases counted <;> cases ho
      rfl
  | utterance text =>
    obtain ⟨offers, hadds, htexts, haccepted⟩ := adds_emit s r (f.enter .emitting) text
    rw [conclude_utterance]
    refine ⟨offers, ⟨hadds.exchanges, hadds.offers⟩, htexts, fun o ho => ?_⟩
    obtain ⟨emitted, hemitted, rfl⟩ := map_eq_ok ho
    exact haccepted emitted hemitted

end Parts

/-! ## Acts -/

/-- The offers of an act are those of the texts that its exchanges have finalized, and the
transcript that it says it has emitted is the one that was accepted. -/
structure Turn.Exact (turn : Turn) : Prop where
  offered : turn.offers.map Offer.text = finalized turn.exchanges
  emitted : ∀ emitted, turn.emitted = .ok emitted → emitted.toList = accepted turn.offers

section Acts

variable (s : Setup σ τ ω) (r : Reading) (f : Watched σ τ ω)

/-- A tick offers what its exchanges have finalized. -/
theorem exact_tick :
    ∃ exchanges offers, Adds f (tick s.watched r f).2 exchanges offers ∧
      Turn.Exact ⟨(tick s.watched r f).1.map Outcome.emitted, exchanges, offers⟩ := by
  obtain ⟨exchanges, hlisten, hfinalized⟩ := adds_listen s f
  rw [tick_eq]
  generalize listen s.watched f = listened at hlisten hfinalized ⊢
  obtain ⟨result, heard⟩ := listened
  cases result with
  | error halt =>
    exact ⟨exchanges, [], hlisten, hfinalized.symm, fun emitted hemitted => by cases hemitted⟩
  | ok verdict =>
    -- The verdict on the frame decides what is offered.
    obtain ⟨frame, v⟩ := verdict
    obtain ⟨offers, hconclude, htexts, haccepted⟩ := adds_conclude s r heard frame v
    have hall := hlisten.trans hconclude
    rw [List.append_nil] at hall
    refine ⟨exchanges, offers, hall, ?_, fun emitted hemitted => ?_⟩
    · have hverdict : finalized exchanges = v.text?.toList := hfinalized
      rw [htexts, ← hverdict]
      exact filter_finalized exchanges
    · obtain ⟨o, ho, rfl⟩ := map_eq_ok hemitted
      exact haccepted o ho

/-- The end of a run offers what the flush has finalized. -/
theorem exact_finish :
    ∃ exchanges offers, Adds f (finish s.watched r f).2 exchanges offers ∧
      Turn.Exact ⟨(finish s.watched r f).1, exchanges, offers⟩ := by
  have hcall : s.watched.recognizer.finalResult f.recognizer =
    keeping .finalResult f.recognizer.2 (s.recognizer.finalResult f.recognizer.1) := rfl
  unfold finish
  rw [hcall]
  obtain ⟨answer, state⟩ := s.recognizer.finalResult f.recognizer.1
  have hasked : Adds f (f.hearing (state, f.recognizer.2 ++ [.finalResult answer]))
    [.finalResult answer] [] := ⟨rfl, (List.append_nil _).symm⟩
  cases answer with
  | error why =>
    refine ⟨_, [], ⟨hasked.exchanges, hasked.offers⟩, rfl, fun emitted hemitted => ?_⟩
    cases hemitted
    rfl
  | ok json =>
    have hspoken := Recognizer.readFinal_eq json
    dsimp only [keeping]
    cases hread : Recognizer.readFinal json with
    | error why =>
      rw [hread] at hspoken
      refine ⟨[.finalResult (.ok json)], [], ⟨hasked.exchanges, hasked.offers⟩, ?_,
        fun emitted hemitted => ?_⟩
      · rw [finalized_singleton, Exchange.finalized?, ← hspoken]
        rfl
      · cases hemitted
        rfl
    | ok text =>
      rw [hread] at hspoken
      obtain ⟨offers, hadds, htexts, haccepted⟩ := adds_emit s r
        (f.hearing (state, f.recognizer.2 ++ [.finalResult (.ok json)])) text
      have hall := hasked.trans hadds
      have htold : offers.map Offer.text = finalized [.finalResult (.ok json)] := by
        rw [htexts, finalized_singleton, Exchange.finalized?, ← hspoken]
        by_cases htext : text = "" <;> simp [htext, Except.toOption, Option.filter]
      dsimp only
      generalize emit s.watched r text
        (f.hearing (state, f.recognizer.2 ++ [.finalResult (.ok json)])) = told at hall haccepted ⊢
      obtain ⟨result, g⟩ := told
      cases result with
      | error halt => exact ⟨_, offers, hall, htold, fun emitted hemitted => by cases hemitted⟩
      | ok e => exact ⟨_, offers, ⟨hall.exchanges, hall.offers⟩, htold, haccepted⟩

/-- Every act is exact. -/
theorem exact_perform (act : Act) :
    ∃ exchanges offers, Adds f (perform s.watched f act).2 exchanges offers ∧
      Turn.Exact ⟨(perform s.watched f act).1, exchanges, offers⟩ := by
  cases act with
  | append bytes =>
    refine ⟨[], [], Adds.nothing rfl rfl, rfl, fun emitted hemitted => ?_⟩
    cases hemitted
    rfl
  | tick r => exact exact_tick s r f
  | finish r => exact exact_finish s r f

/-- What is seen of an act is what it has added, and it is exact. -/
theorem exact_turn (act : Act) :
    Adds f (turn s f act).2 (turn s f act).1.exchanges (turn s f act).1.offers ∧
      (turn s f act).1.Exact := by
  obtain ⟨exchanges, offers, hadds, hexact⟩ := exact_perform s f act
  have hseen : (turn s f act).1 = ⟨(perform s.watched f act).1, exchanges, offers⟩ := by
    unfold turn
    dsimp only
    rw [hadds.exchanges, hadds.offers, List.drop_left, List.drop_left]
  rw [hseen]
  exact ⟨hadds, hexact⟩

end Acts

/-- Acts in a row are exact one by one, and what they add is what is seen of them. -/
theorem exact_turns (s : Setup σ τ ω) (acts : List Act) (f : Watched σ τ ω) :
    Adds f (turns s f acts).2 ((turns s f acts).1.flatMap Turn.exchanges)
        ((turns s f acts).1.flatMap Turn.offers) ∧
      ∀ turn ∈ (turns s f acts).1, turn.Exact := by
  induction acts generalizing f with
  | nil => exact ⟨Adds.nothing rfl rfl, fun _ hmem => by cases hmem⟩
  | cons act acts ih =>
    obtain ⟨hfirst, hexact⟩ := exact_turn s f act
    obtain ⟨hrest, hothers⟩ := ih (turn s f act).2
    refine ⟨hfirst.trans hrest, fun this hmem => ?_⟩
    rcases List.mem_cons.mp hmem with rfl | hmem
    · exact hexact
    · exact hothers this hmem

/-- What all acts offer is what all exchanges have finalized. -/
theorem offered_eq_of_exact {seen : List Turn} (h : ∀ turn ∈ seen, turn.Exact) :
    (seen.flatMap Turn.offers).map Offer.text = finalized (seen.flatMap Turn.exchanges) := by
  induction seen with
  | nil => rfl
  | cons turn seen ih =>
    have hfirst := (h turn List.mem_cons_self).offered
    have hrest := ih fun other hmem => h other (List.mem_cons_of_mem turn hmem)
    rw [List.flatMap_cons, List.flatMap_cons, List.map_append, finalized_append, hfirst, hrest]

/-! ## Texts -/

/-- A text with words in it and no blanks around them. -/
structure Tidy (text : String) : Prop where
  ne_empty : text ≠ ""
  start : ∀ c, text.toList.head? = some c → Text.isBlank c = false
  stop : ∀ c, text.toList.getLast? = some c → Text.isBlank c = false

/-- Finalized texts have words in them and no blanks around them. -/
theorem tidy_of_mem_finalized {exchanges : List Exchange} {text : String}
    (h : text ∈ finalized exchanges) : Tidy text := by
  have hne := ne_empty_of_mem_finalized h
  obtain ⟨exchange, -, hexchange⟩ := List.mem_filterMap.mp h
  have htrimmed : ∃ answer, Recognizer.spoken? answer = some text := by
    unfold Exchange.finalized? at hexchange
    split at hexchange
    · exact ⟨_, (Option.filter_eq_some_iff.mp hexchange).1⟩
    · exact ⟨_, (Option.filter_eq_some_iff.mp hexchange).1⟩
    · cases hexchange
  obtain ⟨answer, hanswer⟩ := htrimmed
  unfold Recognizer.spoken? at hanswer
  split at hanswer
  · cases hanswer
    refine ⟨hne, fun c hc => ?_, fun c hc => ?_⟩
    · rw [Text.trimmed, String.toList_ofList] at hc
      exact Text.head?_trim hc
    · rw [Text.trimmed, String.toList_ofList] at hc
      exact Text.getLast?_trim hc
  · cases hanswer

/-- Whatever the recognizer answers, whatever the outlet does and whatever is logged: the texts
offered to the outlet are, one for one and in order, the trimmed texts of the answers about
utterances that have ended, without those that have no words. None of them is empty or has blanks
around it. And whenever an act comes to its end, the transcript that it says it has emitted is the
one that the outlet accepted during it, if there is one. -/
theorem offered_eq_finalized (s : Setup σ τ ω) (f : Feeder σ τ ω) (acts : List Act) :
    let seen := turns s f.watched acts
    let exchanges := seen.1.flatMap Turn.exchanges
    let offers := seen.1.flatMap Turn.offers
    performAll s f acts = (seen.1.map Turn.emitted, seen.2.plain) ∧
    seen.2.recognizer.2 = exchanges ∧ seen.2.outlet.2 = offers ∧
    offers.map Offer.text = exchanges.filterMap Exchange.finalized? ∧
    (∀ offer ∈ offers, Tidy offer.text) ∧
    ∀ turn ∈ seen.1, turn.offers.map Offer.text = turn.exchanges.filterMap Exchange.finalized? ∧
      ∀ emitted, turn.emitted = .ok emitted → emitted.toList = accepted turn.offers := by
  intro seen exchanges offers
  obtain ⟨hadds, hexact⟩ := exact_turns s acts f.watched
  have htexts := offered_eq_of_exact hexact
  refine ⟨performAll_plain s f.watched acts, hadds.exchanges, hadds.offers, htexts, ?_, ?_⟩
  · intro offer hmem
    have htext : offer.text ∈ finalized exchanges := by
      rw [← htexts]
      exact List.mem_map_of_mem hmem
    exact tidy_of_mem_finalized htext
  · intro turn hmem
    exact ⟨(hexact turn hmem).offered, (hexact turn hmem).emitted⟩

/-- A recognizer that ends an utterance with every second frame, and whose answers are a text with
blanks around it, one without words, and one that cannot be read. -/
theorem offered_eq_finalized_scripted :
    let script : Recognizer Nat :=
      { name := "scripted"
        accept := fun _ n => (.ok (n % 2 = 1), n + 1)
        result := fun n =>
          (.ok (if n = 2 then "\x7b\"conf\": 1, \"text\": \" un deux \"\x7d"
            else if n = 4 then "[\"  \"]" else "[\"a\""), n)
        partialResult := fun n => (.ok "[\"trois\"]", n)
        finalResult := fun n => (.ok "[\"quatre\"]", n) }
    let s : Setup Nat TranscriptQueue Disk :=
      ⟨.stereo, 8, true, script, TranscriptQueue.outlet, Disk.medium⟩
    let f : Feeder Nat TranscriptQueue Disk :=
      .create 0 .create (.file []) (.create ⟨4, 4, [], by decide⟩)
    let r : Reading := ⟨⟨0⟩, ⟨0, 0⟩, 0⟩
    let acts : List Act :=
      [.append [1, 0, 3, 0], .tick r, .tick r, .tick r, .tick r, .tick r, .tick r, .finish r]
    let seen := turns s f.watched acts
    let exchanges := seen.1.flatMap Turn.exchanges
    (seen.1.flatMap Turn.offers).map Offer.text = ["un deux", "quatre"] ∧
    exchanges.length = 13 ∧
    (seen.1.flatMap Turn.offers).map Offer.text = exchanges.filterMap Exchange.finalized? := by
  intro script s f r acts seen exchanges
  exact ⟨by decide +kernel, by decide +kernel, (offered_eq_finalized s f acts).2.2.2.1⟩

end Feeder

end SpeechRelay
