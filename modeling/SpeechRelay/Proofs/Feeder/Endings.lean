import SpeechRelay.Proofs.Feeder.Calls

/-!
# How a round ends

A round that comes to its end has one of four endings (`Ending`): its transcript was accepted, or
refused; the recognizer failed, be it at one of its calls or by an answer that cannot be read; or
there was nothing to emit. `Ending.Holds` says of each of them what the round reports, where it
leaves the feeder, how the counters have moved, and what has passed between the feeder, its
recognizer and its outlet.

With samples of 16 bits, a round comes to its end as long as the counters have room for it. Just one
ending holds of it (`tick_ends`), whatever state the feeder is in, and whatever the recognizer and
the outlet answer.
-/

set_option autoImplicit false

namespace SpeechRelay.Feeder

open Audio

variable {σ τ ω : Type}

/-! ## Endings -/

/-- How three of the counters have moved. -/
structure Rose (before after : Counters) (transcripts faults refusals : Nat) : Prop where
  transcripts : after.transcriptsEmitted = before.transcriptsEmitted + transcripts
  faults : after.recognizerFaults = before.recognizerFaults + faults
  refusals : after.sinkFailures = before.sinkFailures + refusals

/-- A stretch over which nothing rises may stand in front of any other. -/
theorem Rose.trans {c c' c'' : Counters} {transcripts faults refusals : Nat}
    (h : Rose c c' 0 0 0) (h' : Rose c' c'' transcripts faults refusals) :
    Rose c c'' transcripts faults refusals :=
  ⟨by rw [h'.transcripts, h.transcripts, Nat.add_zero], by rw [h'.faults, h.faults, Nat.add_zero],
    by rw [h'.refusals, h.refusals, Nat.add_zero]⟩

/-- What is seen of a round that has come to its end. -/
structure Sight where
  outcome : Outcome
  /-- Where the feeder is after the round. -/
  stage : Stage
  before : Counters
  after : Counters
  exchanges : List Exchange
  offers : List Offer

/-- What a round can come to. -/
inductive Ending where
  /-- The outlet accepted a transcript. -/
  | emitted
  /-- The outlet refused a transcript. -/
  | refused
  /-- The recognizer failed. -/
  | faulted
  /-- Nothing was there to be emitted. -/
  | quiet
  deriving DecidableEq

/-- What an ending says about a round. -/
def Ending.Holds (x : Sight) : Ending → Prop
  | .emitted => ∃ t, x.outcome.emitted = some t ∧ x.outcome.fault = none ∧
      x.offers = [⟨t, .ok ()⟩] ∧ finalized x.exchanges = [t.text] ∧ t.text ≠ "" ∧
      failures x.exchanges = [] ∧ Rose x.before x.after 1 0 0 ∧ x.stage = .emitting
  | .refused => ∃ t why, x.outcome.emitted = none ∧ x.outcome.fault = none ∧
      x.offers = [⟨t, .error why⟩] ∧ finalized x.exchanges = [t.text] ∧ t.text ≠ "" ∧
      failures x.exchanges = [] ∧ Rose x.before x.after 0 0 1 ∧ x.stage = .emitting
  | .faulted => ∃ why, x.outcome.emitted = none ∧ x.outcome.fault = some why ∧
      x.offers = [] ∧ finalized x.exchanges = [] ∧
      failures x.exchanges = [why] ∧ Rose x.before x.after 0 1 0 ∧ x.stage = .awaiting
  | .quiet => x.outcome.emitted = none ∧ x.outcome.fault = none ∧
      x.offers = [] ∧ finalized x.exchanges = [] ∧
      failures x.exchanges = [] ∧ Rose x.before x.after 0 0 0 ∧ x.stage = .awaiting

/-- The ending that the report of a round and its offers tell. -/
def Sight.ending (x : Sight) : Ending :=
  match x.outcome.fault, x.offers with
  | some _, _ => .faulted
  | none, [] => .quiet
  | none, _ :: _ => if x.outcome.emitted.isSome then .emitted else .refused

/-- What holds of a round is what its report tells. -/
theorem Ending.Holds.eq_ending {x : Sight} {ending : Ending} (h : ending.Holds x) :
    ending = x.ending := by
  unfold Sight.ending
  cases ending with
  | emitted =>
    obtain ⟨t, hemitted, hfault, hoffers, -⟩ := h
    rw [hfault, hoffers, hemitted]
    rfl
  | refused =>
    obtain ⟨t, why, hemitted, hfault, hoffers, -⟩ := h
    rw [hfault, hoffers, hemitted]
    rfl
  | faulted =>
    obtain ⟨why, -, hfault, -⟩ := h
    rw [hfault]
  | quiet =>
    obtain ⟨-, hfault, hoffers, -⟩ := h
    rw [hfault, hoffers]

/-! ## Rounds -/

section Rounds

variable {s : Setup σ τ ω} {r : Reading} {f g : Watched σ τ ω} {o : Outcome}

/-- Emitting a text that is not empty has one of two endings. -/
theorem ending_emit {text : String} (htext : text ≠ "") {emitted : Option Transcript}
    (h : emit s.watched r text f = (.ok emitted, g)) :
    ∃ t answer, Adds f g [] [⟨t, answer⟩] ∧ t.text = text ∧ g.stage = f.stage ∧
      match answer with
      | .ok () => emitted = some t ∧ Rose f.pipeline.counters g.pipeline.counters 1 0 0
      | .error _ => emitted = none ∧ Rose f.pipeline.counters g.pipeline.counters 0 0 1 := by
  have hoffer : s.watched.outlet.emit (offered r f text) f.outlet =
    keeping (Offer.mk (offered r f text)) f.outlet.2
      (s.outlet.emit (offered r f text) f.outlet.1) := rfl
  cases hanswer : s.outlet.emit (offered r f text) f.outlet.1 with
  | mk answer state =>
    rw [hanswer] at hoffer
    refine ⟨offered r f text, answer, ?_⟩
    cases answer with
    | ok u =>
      rw [emit_of_accepted r htext hoffer] at h
      rcases record_cases (told r f text (state, f.outlet.2 ++ [⟨offered r f text, .ok u⟩]))
        (.transcribed r.now) with ⟨c, hc, heq⟩ | ⟨halt, -, heq⟩
      · rw [heq] at h
        obtain ⟨hemitted, rfl⟩ := Prod.mk.inj h
        obtain rfl := Counters.eq_counted_of_record hc
        exact ⟨⟨(List.append_nil _).symm, rfl⟩, rfl, rfl, (Except.ok.inj hemitted).symm, rfl, rfl,
          rfl⟩
      · rw [heq] at h
        cases h
    | error why =>
      rw [emit_of_refused r htext hoffer] at h
      rcases record_cases ((told r f text (state, f.outlet.2 ++
        [⟨offered r f text, .error why⟩])).note [.transcriptDropped why]) .outletRefused with
        ⟨c, hc, heq⟩ | ⟨halt, -, heq⟩
      · rw [heq] at h
        obtain ⟨hemitted, rfl⟩ := Prod.mk.inj h
        obtain rfl := Counters.eq_counted_of_record hc
        exact ⟨⟨(List.append_nil _).symm, rfl⟩, rfl, rfl, (Except.ok.inj hemitted).symm, rfl, rfl,
          rfl⟩
      · rw [heq] at h
        cases h

/-- What follows from a verdict has the ending that fits the exchanges behind the verdict. -/
theorem ending_conclude {frame : MonoFrame} {v : Verdict} {exchanges : List Exchange}
    (hfinalized : finalized exchanges = v.text?.toList)
    (hfailures : failures exchanges = v.failure?.toList) {before : Counters}
    (hbefore : Rose before f.pipeline.counters 0 0 0)
    (h : conclude s.watched r frame v f = (.ok o, g)) :
    ∃ offers ending, Adds f g [] offers ∧
      Ending.Holds ⟨o, g.stage, before, g.pipeline.counters, exchanges, offers⟩ ending := by
  cases v with
  | nothing =>
    obtain ⟨ho, rfl⟩ := Prod.mk.inj h
    obtain rfl := Except.ok.inj ho
    exact ⟨[], .quiet, Adds.nothing rfl rfl, rfl, rfl, rfl, hfinalized, hfailures, hbefore, rfl⟩
  | fault why =>
    rw [conclude_fault] at h
    rcases record_cases (f.note [.frameSkipped frame.source]) .recognizerFailed with
      ⟨c, hc, heq⟩ | ⟨halt, -, heq⟩
    · rw [heq] at h
      obtain ⟨ho, rfl⟩ := Prod.mk.inj h
      obtain rfl := Except.ok.inj ho
      obtain rfl := Counters.eq_counted_of_record hc
      exact ⟨[], .faulted, Adds.nothing rfl rfl, why, rfl, rfl, rfl, hfinalized, hfailures,
        hbefore.trans ⟨rfl, rfl, rfl⟩, rfl⟩
    · rw [heq] at h
      cases h
  | utterance text =>
    have hmem : text ∈ finalized exchanges := hfinalized ▸ List.mem_singleton_self text
    have htext := ne_empty_of_mem_finalized hmem
    rw [conclude_utterance] at h
    cases hemit : emit s.watched r text (f.enter .emitting) with
    | mk result last =>
      rw [hemit] at h
      obtain ⟨hresult, rfl⟩ := Prod.mk.inj h
      cases result with
      | error halt => cases hresult
      | ok emitted =>
        obtain rfl := Except.ok.inj hresult
        obtain ⟨t, answer, hadds, rfl, hstage, hanswer⟩ := ending_emit htext hemit
        have hkept : Adds f last [] [⟨t, answer⟩] := ⟨hadds.exchanges, hadds.offers⟩
        cases answer with
        | ok u =>
          obtain ⟨rfl, hrose⟩ := hanswer
          exact ⟨_, .emitted, hkept, t, rfl, rfl, rfl, hfinalized, htext, hfailures,
            hbefore.trans hrose, hstage⟩
        | error why =>
          obtain ⟨rfl, hrose⟩ := hanswer
          exact ⟨_, .refused, hkept, t, why, rfl, rfl, rfl, hfinalized, htext, hfailures,
            hbefore.trans hrose, hstage⟩

/-- A round that comes to its end has one of the endings. -/
theorem ending_tick (h : tick s.watched r f = (.ok o, g)) :
    ∃ exchanges offers ending, Adds f g exchanges offers ∧ Ending.Holds
      ⟨o, g.stage, f.pipeline.counters, g.pipeline.counters, exchanges, offers⟩ ending := by
  obtain ⟨frame, remainder, made, c, hframe, hc, hconclude⟩ := tick_eq_ok h
  have hmade := (touches_nextFrame s.watched f).adds (by simp) (by simp)
  have hbooks := (touches_nextFrame s.watched f).counters (by simp)
  rw [hframe] at hmade hbooks
  -- Up to the verdict only the frame is counted, and nothing is offered.
  have hlogged := (touches_ready s.watched (made.counting c) frame.samples).adds (by simp) (by simp)
  have hready : Adds f ((logSamples s.watched frame.samples (made.counting c)).enter .recognizing)
      [] [] :=
    hmade.trans ⟨hlogged.exchanges, hlogged.offers⟩
  obtain ⟨exchanges, hheard, hfinalized, hfailures⟩ := adds_hear s
    ((logSamples s.watched frame.samples (made.counting c)).enter .recognizing) frame.samples
  have hcounters : (hear s.watched frame.samples ((logSamples s.watched frame.samples
      (made.counting c)).enter .recognizing)).2.pipeline.counters = c :=
    (touches_heard s.watched (made.counting c) frame.samples).counters (by simp)
  have hfed : Rose f.pipeline.counters (hear s.watched frame.samples ((logSamples s.watched
      frame.samples (made.counting c)).enter .recognizing)).2.pipeline.counters 0 0 0 := by
    rw [hcounters, Counters.eq_counted_of_record hc, hbooks]
    exact ⟨rfl, rfl, rfl⟩
  obtain ⟨offers, ending, hadds, hholds⟩ := ending_conclude hfinalized hfailures hfed hconclude
  have hall := (hready.trans hheard).trans hadds
  rw [List.append_nil] at hall
  exact ⟨exchanges, offers, ending, hall, hholds⟩

end Rounds

section Ticks

variable (s : Setup σ τ ω) (r : Reading) (f : Feeder σ τ ω)

/-- A round comes to its end if the counters have room, and then it has one of the four endings and
no other. It is the same round whether it is watched or not. -/
theorem tick_ends :
    (∀ n, s.format.IsPcm16 → s.silenceSamples * 2 ≤ Machine.maxBytes →
      f.pipeline.buffer.unit = s.format.unitBytes → Within f n →
      n + (s.silenceSamples + 2) < Machine.wordSize → ∃ o g, tick s r f = (.ok o, g)) ∧
    ∀ o g, tick s r f = (.ok o, g) →
      ∃ w, tick s.watched r f.watched = (.ok o, w) ∧ w.plain = g ∧
        ∃! ending : Ending, ending.Holds ⟨o, g.stage, f.pipeline.counters, g.pipeline.counters,
          w.recognizer.2, w.outlet.2⟩ := by
  have hplain : tick s r f = (tick s.watched r f.watched).map id plain :=
    tick_image (resembles_watched s) r f.watched
  refine ⟨?_, ?_⟩
  · intro n hf hsilence hunit hwithin hroom
    obtain ⟨o, w, htick, -⟩ := within_tick (w := f.watched) r hf hsilence hunit
      ⟨hwithin.counters, hwithin.audio⟩ hroom
    rw [htick] at hplain
    exact ⟨o, w.plain, hplain⟩
  · intro o g htick
    cases hwatched : tick s.watched r f.watched with
    | mk result w =>
      rw [hplain, hwatched] at htick
      obtain ⟨hresult, rfl⟩ := Prod.mk.inj htick
      obtain rfl : result = .ok o := hresult
      obtain ⟨exchanges, offers, ending, hadds, hholds⟩ := ending_tick hwatched
      obtain rfl : w.recognizer.2 = exchanges := hadds.exchanges
      obtain rfl : w.outlet.2 = offers := hadds.offers
      refine ⟨w, rfl, rfl, ending, hholds, ?_⟩
      intro other hother
      rw [hother.eq_ending, hholds.eq_ending]
      rfl

end Ticks

/-- A frame of silence about which the recognizer says something that cannot be read, after a round
that has emitted a transcript. -/
theorem tick_ends_unreadable :
    let script : Recognizer Unit :=
      { name := "scripted"
        accept := fun _ _ => (.ok true, ())
        result := fun _ => (.ok "[\"oui\"", ())
        partialResult := fun _ => (.ok "[\"\"]", ())
        finalResult := fun _ => (.ok "[\"\"]", ()) }
    let s : Setup Unit TranscriptQueue Disk :=
      ⟨.stereo, 2, true, script, TranscriptQueue.outlet, Disk.medium⟩
    let b : Buffer := ⟨4, 4, [1, 0, 3], by decide⟩
    let f : Feeder Unit TranscriptQueue Disk :=
      (Feeder.create () .create .full (.create b)).enter .emitting
    let r : Reading := ⟨⟨0⟩, ⟨7, 0⟩, 0⟩
    s.format.IsPcm16 ∧ s.silenceSamples * 2 ≤ Machine.maxBytes ∧
      f.pipeline.buffer.unit = s.format.unitBytes ∧ Within f 3 ∧
      3 + (s.silenceSamples + 2) < Machine.wordSize ∧
      ∃ o g, ∃ w : Watched Unit TranscriptQueue Disk, tick s r f = (.ok o, g) ∧
        Ending.faulted.Holds
          ⟨o, g.stage, f.pipeline.counters, g.pipeline.counters, w.recognizer.2, w.outlet.2⟩ := by
  intro script s b f r
  have hf : s.format.IsPcm16 := ⟨rfl, by decide⟩
  have hsilence : s.silenceSamples * 2 ≤ Machine.maxBytes := by decide
  have hwithin : Within f 3 := ⟨Counters.atMost_zero 3, by decide⟩
  have hroom : 3 + (s.silenceSamples + 2) < Machine.wordSize := by decide
  obtain ⟨hcompletes, hends⟩ := tick_ends s r f
  obtain ⟨o, g, htick⟩ := hcompletes 3 hf hsilence rfl hwithin hroom
  obtain ⟨w, -, -, ending, hholds, -⟩ := hends o g htick
  have hfault : ((tick s r f).1.toOption.bind Outcome.fault).isSome = true := by decide +kernel
  rw [htick] at hfault
  obtain ⟨why, hwhy⟩ := Option.isSome_iff_exists.mp hfault
  have hfaulted : ending = .faulted := by
    rw [Ending.Holds.eq_ending hholds, Sight.ending, show o.fault = some why from hwhy]
  exact ⟨hf, hsilence, rfl, hwithin, hroom, o, g, w, htick, hfaulted ▸ hholds⟩

end SpeechRelay.Feeder
