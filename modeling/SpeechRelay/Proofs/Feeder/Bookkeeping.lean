import SpeechRelay.Proofs.Feeder.Counting
import SpeechRelay.Proofs.Feeder.Utterances
import SpeechRelay.Proofs.Intake.Events

/-!
# What a round counts

`Counts` says of a result which happenings it stands for: if it came to its end, then just these
have been counted, and it came to its end if they can be counted.

A round stands for its frame, the fault of the recognizer if there was one, and the answer of the
outlet if something was offered (`counts_tick`); the end stands for the answer alone
(`counts_finish`). Both clear nothing.
-/

set_option autoImplicit false

namespace SpeechRelay.Feeder

open Audio

variable {σ τ ω : Type}

/-! ## Parts of a round that count nothing -/

/-- From one feeder to the other nothing has been counted and nothing has been cleared. -/
structure SameBooks (f g : Feeder σ τ ω) : Prop where
  counters : g.pipeline.counters = f.pipeline.counters
  cleared : g.pipeline.clearedBytes = f.pipeline.clearedBytes

namespace SameBooks

variable {f g h : Feeder σ τ ω}

/-- A feeder has the same books as itself. -/
theorem refl (f : Feeder σ τ ω) : SameBooks f f := ⟨rfl, rfl⟩

/-- The books stay the same over two stretches. -/
theorem trans (hfirst : SameBooks f g) (hsecond : SameBooks g h) : SameBooks f h :=
  ⟨hsecond.counters.trans hfirst.counters, hsecond.cleared.trans hfirst.cleared⟩

/-- Entries that speak of something else than clearing. -/
theorem note (f : Feeder σ τ ω) (entries : Journal)
    (hentries : ∀ entry ∈ entries, entry.clearedBytes = 0) : SameBooks f (f.note entries) := by
  have hsum : (entries.map JournalEntry.clearedBytes).sum = 0 := by
    apply List.sum_eq_zero_iff_forall_eq_nat.mpr
    simpa using hentries
  refine ⟨rfl, ?_⟩
  show (f.pipeline.note entries).clearedBytes = _
  rw [Pipeline.clearedBytes_note, hsum, Nat.add_zero]

end SameBooks

/-- No part of a round clears anything. -/
theorem Touches.cleared {s : Setup σ τ ω} {aspects : List Aspect} {f g : Feeder σ τ ω}
    (h : Touches s aspects f g) : g.pipeline.clearedBytes = f.pipeline.clearedBytes := by
  apply h.same fun f => f.pipeline.clearedBytes
  intro aspect hmem f g ht
  cases ht with
  | journal f entries hround =>
    apply (SameBooks.note f entries _).cleared
    intro entry hentry
    have hof := hround entry hentry
    cases entry <;> simp_all [JournalEntry.isOfRound, JournalEntry.clearedBytes]
  | log f pcmLog medium entries hlog =>
    apply (SameBooks.note { f with pcmLog, medium } entries _).cleared
    intro entry hentry
    rw [hlog entry hentry]
    rfl
  | _ => rfl

/-- What does not touch the counters leaves the books as they are. -/
theorem Touches.books {s : Setup σ τ ω} {aspects : List Aspect} {f g : Feeder σ τ ω}
    (h : Touches s aspects f g) (hnot : .counters ∉ aspects) : SameBooks f g :=
  ⟨h.counters hnot, h.cleared⟩

/-! ## What a result counts -/

/-- A result stands for happenings: if it came to its end, then just these have been counted, and it
came to its end if they can be counted. Nothing has been cleared. -/
structure Counts {α : Type} (f : Feeder σ τ ω) (result : Result σ τ ω α)
    (happenings : List Happening) : Prop where
  counted : ∀ a, result.1 = .ok a →
    result.2.pipeline.counters = happenings.foldl Counters.counted f.pipeline.counters
  completes : ∀ n, n < Machine.wordSize →
    (happenings.foldl Counters.counted f.pipeline.counters).AtMost n → ∃ a, result.1 = .ok a
  cleared : result.2.pipeline.clearedBytes = f.pipeline.clearedBytes

namespace Counts

variable {α β : Type} {f g : Feeder σ τ ω} {happenings more : List Happening}

/-- A result with the same books stands for no happening. -/
theorem pure (a : α) (h : SameBooks f g) : Counts f (.ok a, g) [] :=
  ⟨fun _ _ => h.counters, fun _ _ _ => ⟨a, rfl⟩, h.cleared⟩

/-- What comes before a result without counting anything may be left out. -/
theorem before {result : Result σ τ ω α} (hbefore : SameBooks f g)
    (h : Counts g result happenings) : Counts f result happenings := by
  refine ⟨fun a ha => ?_, fun n hn hroom => ?_, h.cleared.trans hbefore.cleared⟩
  · rw [h.counted a ha, hbefore.counters]
  · rw [← hbefore.counters] at hroom
    exact h.completes n hn hroom

/-- So may what comes after it. -/
theorem after {answer : Except Halt α} {last : Feeder σ τ ω}
    (h : Counts f (answer, g) happenings) (k : α → β) (hafter : SameBooks g last) :
    Counts f (answer.map k, last) happenings := by
  refine ⟨fun b hb => ?_, fun n hn hroom => ?_, hafter.cleared.trans h.cleared⟩
  · cases answer with
    | error halt => cases hb
    | ok a => exact hafter.counters.trans (h.counted a rfl)
  · obtain ⟨a, ha⟩ := h.completes n hn hroom
    exact ⟨k a, congrArg (Except.map k) ha⟩

/-- What is counted before a halt does not depend on the answer that did not come. -/
theorem halted {halt : Halt} (h : Counts f ((.error halt, g) : Result σ τ ω α) happenings) :
    Counts f ((.error halt, g) : Result σ τ ω β) happenings := by
  refine ⟨fun b hb => ?_, fun n hn hroom => ?_, h.cleared⟩
  · cases hb
  · obtain ⟨a, ha⟩ := h.completes n hn hroom
    cases ha

/-- A happening that was counted comes before the others. -/
theorem cons {h : Happening} {c : Counters} {result : Result σ τ ω α}
    (hc : f.pipeline.counters.record h = .ok c) (hafter : SameBooks (f.counting c) g)
    (hrest : Counts g result more) : Counts f result (h :: more) := by
  have hcounters : g.pipeline.counters = f.pipeline.counters.counted h :=
    hafter.counters.trans (Counters.eq_counted_of_record hc)
  refine ⟨fun a ha => ?_, fun n hn hroom => ?_, ?_⟩
  · rw [hrest.counted a ha, hcounters, List.foldl_cons]
  · rw [List.foldl_cons, ← hcounters] at hroom
    exact hrest.completes n hn hroom
  · exact hrest.cleared.trans hafter.cleared

end Counts

/-- Recording a happening counts it. -/
theorem counts_record (f : Feeder σ τ ω) (h : Happening) : Counts f (f.record h) [h] := by
  rcases record_cases f h with ⟨c, hc, heq⟩ | ⟨halt, hhalt, heq⟩
  · rw [heq]
    exact ⟨fun _ _ => Counters.eq_counted_of_record hc, fun _ _ _ => ⟨(), rfl⟩, rfl⟩
  · rw [heq]
    refine ⟨fun a ha => ?_, fun n hn hroom => ?_, rfl⟩
    · cases ha
    · rw [Counters.record_of_atMost hn hroom] at hhalt
      cases hhalt

/-- What the answer of the outlet counts as. -/
def Offer.happening (offer : Offer) : Happening :=
  match offer.answer with
  | .ok () => .transcribed offer.transcript.timestamp
  | .error _ => .outletRefused

/-- What a verdict counts as. -/
def Verdict.happenings : Verdict → List Happening
  | .fault _ => [.recognizerFailed]
  | _ => []

/-- What the fault of a round counts as. -/
def Outcome.happenings (o : Outcome) : List Happening :=
  match o.fault with
  | some _ => [.recognizerFailed]
  | none => []

/-- Every offer costs one. -/
theorem sum_cost_offers (offers : List Offer) :
    ((offers.map Offer.happening).map Happening.cost).sum = offers.length := by
  have hone : Happening.cost ∘ Offer.happening = fun _ => 1 := by
    funext offer
    unfold Function.comp Offer.happening
    split <;> rfl
  rw [List.map_map, hone, List.map_const', List.sum_replicate_nat, Nat.mul_one]

/-- A fault and every offer cost one each. -/
theorem sum_cost_happenings (v : Verdict) (offers : List Offer) :
    ((v.happenings ++ offers.map Offer.happening).map Happening.cost).sum =
      v.happenings.length + offers.length := by
  have hverdict : (v.happenings.map Happening.cost).sum = v.happenings.length := by
    cases v <;> rfl
  rw [List.map_append, List.sum_append, hverdict, sum_cost_offers]

section Results

variable (s : Setup σ τ ω) (r : Reading) (f : Watched σ τ ω)

/-- Telling the outlet something does not touch the books. -/
theorem sameBooks_told (text : String) (outlet : τ × List Offer) :
    SameBooks f (told r f text outlet) :=
  ⟨rfl, (SameBooks.note f [.utterance text] (by simp [JournalEntry.clearedBytes])).cleared⟩

/-- Emitting a text counts the answer to its one offer, or nothing. -/
theorem counts_emit (text : String) :
    ∃ offers, (emit s.watched r text f).2.outlet.2 = f.outlet.2 ++ offers ∧ offers.length ≤ 1 ∧
      Counts f (emit s.watched r text f) (offers.map Offer.happening) := by
  by_cases htext : text = ""
  · subst htext
    exact ⟨[], (List.append_nil _).symm, Nat.zero_le 1, Counts.pure none (SameBooks.refl f)⟩
  · have hoffer : s.watched.outlet.emit (offered r f text) f.outlet =
      keeping (Offer.mk (offered r f text)) f.outlet.2
        (s.outlet.emit (offered r f text) f.outlet.1) := rfl
    cases hanswer : s.outlet.emit (offered r f text) f.outlet.1 with
    | mk answer state =>
      rw [hanswer] at hoffer
      have htold := sameBooks_told r f text (state, f.outlet.2 ++ [⟨offered r f text, answer⟩])
      cases answer with
      | ok u =>
        rw [emit_of_accepted r htext hoffer]
        have houtlet := ((touches_record s.watched (told r f text (state, f.outlet.2 ++
          [⟨offered r f text, .ok u⟩])) (h := .transcribed r.now) rfl).outlet (by simp)).1
        refine ⟨[⟨offered r f text, .ok u⟩], congrArg Prod.snd houtlet, Nat.le_refl 1, ?_⟩
        exact ((counts_record _ _).after _ (SameBooks.refl _)).before htold
      | error why =>
        rw [emit_of_refused r htext hoffer]
        have houtlet := ((touches_record s.watched ((told r f text (state, f.outlet.2 ++
          [⟨offered r f text, .error why⟩])).note [.transcriptDropped why])
          (h := .outletRefused) rfl).outlet (by simp)).1
        refine ⟨[⟨offered r f text, .error why⟩], congrArg Prod.snd houtlet, Nat.le_refl 1, ?_⟩
        have hnoted := htold.trans (SameBooks.note _ [.transcriptDropped why]
          (by simp [JournalEntry.clearedBytes]))
        exact ((counts_record _ _).after _ (SameBooks.refl _)).before hnoted

/-- Concluding a round counts what the verdict counts as, or the answer to an offer. -/
theorem counts_conclude (frame : MonoFrame) (v : Verdict) :
    ∃ offers, (conclude s.watched r frame v f).2.outlet.2 = f.outlet.2 ++ offers ∧
      v.happenings.length + offers.length ≤ 1 ∧
      Counts f (conclude s.watched r frame v f) (v.happenings ++ offers.map Offer.happening) ∧
      ∀ o, (conclude s.watched r frame v f).1 = .ok o → o.happenings = v.happenings := by
  cases v with
  | nothing =>
    refine ⟨[], (List.append_nil _).symm, Nat.zero_le 1, Counts.pure _ ⟨rfl, rfl⟩, fun o ho => ?_⟩
    cases ho
    rfl
  | fault why =>
    have hnoted : SameBooks f (f.note [.frameSkipped frame.source]) :=
      SameBooks.note f _ (by simp [JournalEntry.clearedBytes])
    have hcounts := counts_record (f.note [.frameSkipped frame.source]) .recognizerFailed
    rw [conclude_fault]
    rcases record_cases (f.note [.frameSkipped frame.source]) .recognizerFailed with
      ⟨c, -, heq⟩ | ⟨halt, -, heq⟩
    · rw [heq] at hcounts ⊢
      have hwaiting : SameBooks ((f.note [.frameSkipped frame.source]).counting c)
        (((f.note [.frameSkipped frame.source]).counting c).enter .awaiting) := ⟨rfl, rfl⟩
      refine ⟨[], (List.append_nil _).symm, Nat.le_refl 1,
        (hcounts.after _ hwaiting).before hnoted, fun o ho => ?_⟩
      cases ho
      rfl
    · rw [heq] at hcounts ⊢
      refine ⟨[], (List.append_nil _).symm, Nat.le_refl 1, hcounts.halted.before hnoted,
        fun o ho => ?_⟩
      cases ho
  | utterance text =>
    obtain ⟨offers, houtlet, hone, hcounts⟩ := counts_emit s r (f.enter .emitting) text
    rw [conclude_utterance]
    have hentered : SameBooks f (f.enter .emitting) := ⟨rfl, rfl⟩
    refine ⟨offers, houtlet, ?_, (hcounts.after _ (SameBooks.refl _)).before hentered,
      fun o ho => ?_⟩
    · have hnone : (Verdict.utterance text).happenings = [] := rfl
      rwa [hnone, List.length_nil, Nat.zero_add]
    · obtain ⟨emitted, -, rfl⟩ := map_eq_ok ho
      rfl

/-- A round that has made its frame counts the frame, the fault of the recognizer if there was one,
and the answer of the outlet if there was an offer. -/
theorem counts_tick {frame : MonoFrame} {remainder : Nat}
    (hframe : (nextFrame s.watched f).1 = .ok (frame, remainder)) :
    ∃ offers more, (tick s.watched r f).2.outlet.2 = f.outlet.2 ++ offers ∧
      (more.map Happening.cost).sum ≤ 1 ∧
      Counts f (tick s.watched r f)
        (.fed frame.source frame.samples.length remainder :: more) ∧
      ∀ o, (tick s.watched r f).1 = .ok o → o.source = frame.source ∧
        o.samples = frame.samples.length ∧
        more = o.happenings ++ offers.map Offer.happening := by
  have hmade := (touches_nextFrame s.watched f).books (by simp)
  have houtlet := ((touches_nextFrame s.watched f).outlet (by simp)).1
  unfold tick
  generalize nextFrame s.watched f = framed at hframe hmade houtlet ⊢
  obtain ⟨result, made⟩ := framed
  cases hframe
  dsimp only at hmade houtlet ⊢
  have hcount := counts_record made (.fed frame.source frame.samples.length remainder)
  rcases record_cases made (.fed frame.source frame.samples.length remainder) with
    ⟨c, hc, heq⟩ | ⟨halt, -, heq⟩
  · -- The frame is counted; what the recognizer makes of it decides what else is.
    have htouched := touches_heard s.watched (made.counting c) frame.samples
    have hkept := (htouched.outlet (by simp)).1.trans houtlet
    have hheard := htouched.books (by simp)
    rw [heq]
    dsimp only
    generalize hear s.watched frame.samples
      ((logSamples s.watched frame.samples (made.counting c)).enter .recognizing) = told
      at hheard hkept ⊢
    obtain ⟨verdict, heard⟩ := told
    obtain ⟨offers, hoffers, hone, hcounts, hfault⟩ := counts_conclude s r heard frame verdict
    refine ⟨offers, verdict.happenings ++ offers.map Offer.happening, ?_, ?_, ?_, fun o ho => ?_⟩
    · rw [hoffers, show heard.outlet = f.outlet from hkept]
    · rwa [sum_cost_happenings]
    · exact (Counts.cons hc hheard hcounts).before hmade
    · obtain ⟨hsource, hsamples⟩ := conclude_eq_ok (Prod.ext ho rfl)
      exact ⟨hsource, hsamples, by rw [hfault o ho]⟩
  · rw [heq] at hcount ⊢
    refine ⟨[], [], ?_, Nat.zero_le 1, ?_, fun o ho => ?_⟩
    · rw [List.append_nil]
      exact congrArg Prod.snd houtlet
    · exact hcount.halted.before hmade
    · cases ho

/-- The end counts the answer to its one offer, or nothing. -/
theorem counts_finish :
    ∃ offers, (finish s.watched r f).2.outlet.2 = f.outlet.2 ++ offers ∧ offers.length ≤ 1 ∧
      Counts f (finish s.watched r f) (offers.map Offer.happening) := by
  unfold finish
  split
  · next why state _ =>
    have hstopped := SameBooks.note f [.flushFailed why] (by simp [JournalEntry.clearedBytes])
    exact ⟨[], (List.append_nil _).symm, Nat.zero_le 1, Counts.pure _ ⟨rfl, hstopped.cleared⟩⟩
  · next answer state _ =>
    cases Recognizer.readFinal answer with
    | error why =>
      have hstopped := SameBooks.note f [.flushFailed why] (by simp [JournalEntry.clearedBytes])
      exact ⟨[], (List.append_nil _).symm, Nat.zero_le 1, Counts.pure _ ⟨rfl, hstopped.cleared⟩⟩
    | ok text =>
      obtain ⟨offers, houtlet, hone, hcounts⟩ := counts_emit s r (f.hearing state) text
      have hheard : SameBooks f (f.hearing state) := ⟨rfl, rfl⟩
      dsimp only
      generalize emit s.watched r text (f.hearing state) = emitted at houtlet hcounts ⊢
      obtain ⟨result, g⟩ := emitted
      cases result with
      | error halt => exact ⟨offers, houtlet, hone, hcounts.before hheard⟩
      | ok told =>
        have hstopped : SameBooks g (g.enter .stopped) := ⟨rfl, rfl⟩
        exact ⟨offers, houtlet, hone, (hcounts.after id hstopped).before hheard⟩

end Results

end SpeechRelay.Feeder
