import Mathlib.Algebra.Ring.Nat
import SpeechRelay.Counters

/-!
# Counting without bounds

`Counters.counted` says what a happening adds to the counters as if numbers had no bounds. Counting
in words either gives just that or halts (`eq_counted_of_record`), and it does not halt where all
numbers stay below the size of a word (`record_of_atMost`).
-/

set_option autoImplicit false

namespace SpeechRelay

open Audio

/-- A bound for what a happening adds to any of the counters. -/
def Happening.cost : Happening → Nat
  | .ingested bytes => bytes + 1
  | .fed _ samples _ => samples + 1
  | _ => 1

namespace Counters

/-- The counters after a happening, in numbers without bounds. -/
def counted (c : Counters) : Happening → Counters
  | .ingested bytes =>
    { c with bytesIngested := c.bytesIngested + bytes, chunksIngested := c.chunksIngested + 1 }
  | .fed source samples remainder =>
    { c with
      framesBuffered := c.framesBuffered + if source = .buffered then 1 else 0
      framesSilence := c.framesSilence + if source = .silence then 1 else 0
      samplesFed := c.samplesFed + samples
      remainderEvents := c.remainderEvents + if remainder = 0 then 0 else 1 }
  | .transcribed timestamp =>
    { c with
      transcriptsEmitted := c.transcriptsEmitted + 1
      lastTranscriptAt := some timestamp }
  | .recognizerFailed => { c with recognizerFaults := c.recognizerFaults + 1 }
  | .outletRefused => { c with sinkFailures := c.sinkFailures + 1 }
  | .linked connection =>
    { c with
      connection
      connects := c.connects + if connection = .connected then 1 else 0
      disconnects := c.disconnects + if connection = .disconnected then 1 else 0 }
  | .connectFailed =>
    { c with connection := .disconnected, connectErrors := c.connectErrors + 1 }

/-! ## Words -/

/-- What goes on behind a count had room for it. -/
theorem word_bind_eq_ok {β : Type} {n : Nat} {k : Nat → Except Halt β} {b : β}
    (h : (Machine.word n >>= k) = .ok b) : n < Machine.wordSize ∧ k n = .ok b := by
  unfold Machine.word at h
  split at h
  · next hn => exact ⟨hn, h⟩
  · cases h

/-- A count with room lets the rest go on. -/
theorem word_bind_of_lt {β : Type} {n : Nat} (hn : n < Machine.wordSize)
    (k : Nat → Except Halt β) : (Machine.word n >>= k) = k n := by
  rw [Machine.word_of_lt hn]
  rfl

/-- A count that goes up only if something was left behind. -/
theorem left_bind_eq_ok {β : Type} {n remainder : Nat} {k : Nat → Except Halt β} {b : β}
    (h : (if remainder = 0 then pure n >>= k else Machine.word (n + 1) >>= k) = .ok b) :
    k (n + if remainder = 0 then 0 else 1) = .ok b := by
  by_cases hzero : remainder = 0
  · rw [if_pos hzero] at h ⊢
    exact h
  · rw [if_neg hzero] at h ⊢
    exact (word_bind_eq_ok h).2

/-- A count that goes up only now and then lets the rest go on if it has room. -/
theorem left_bind_of_lt {β : Type} {n remainder : Nat}
    (hn : (n + if remainder = 0 then 0 else 1) < Machine.wordSize) (k : Nat → Except Halt β) :
    (if remainder = 0 then pure n >>= k else Machine.word (n + 1) >>= k) =
      k (n + if remainder = 0 then 0 else 1) := by
  by_cases hzero : remainder = 0
  · rw [if_pos hzero, if_pos hzero]
    rfl
  · rw [if_neg hzero] at hn ⊢
    rw [if_neg hzero]
    exact word_bind_of_lt hn k

/-- What is counted without halting is counted as in numbers without bounds. -/
theorem eq_counted_of_record {c c' : Counters} {h : Happening} (hr : c.record h = .ok c') :
    c' = c.counted h := by
  cases h with
  | ingested bytes =>
    obtain ⟨-, hr⟩ := word_bind_eq_ok hr
    obtain ⟨-, hr⟩ := word_bind_eq_ok hr
    exact (Except.ok.inj hr).symm
  | fed source samples remainder =>
    cases source with
    | buffered =>
      obtain ⟨-, hr⟩ := word_bind_eq_ok hr
      obtain ⟨-, hr⟩ := word_bind_eq_ok hr
      have hleft := left_bind_eq_ok hr
      exact (Except.ok.inj hleft).symm
    | silence =>
      obtain ⟨-, hr⟩ := word_bind_eq_ok hr
      obtain ⟨-, hr⟩ := word_bind_eq_ok hr
      have hleft := left_bind_eq_ok hr
      exact (Except.ok.inj hleft).symm
  | transcribed timestamp =>
    obtain ⟨-, hr⟩ := word_bind_eq_ok hr
    exact (Except.ok.inj hr).symm
  | recognizerFailed =>
    obtain ⟨-, hr⟩ := word_bind_eq_ok hr
    exact (Except.ok.inj hr).symm
  | outletRefused =>
    obtain ⟨-, hr⟩ := word_bind_eq_ok hr
    exact (Except.ok.inj hr).symm
  | linked connection =>
    cases connection with
    | connecting => exact (Except.ok.inj hr).symm
    | connected =>
      obtain ⟨-, hr⟩ := word_bind_eq_ok hr
      exact (Except.ok.inj hr).symm
    | disconnected =>
      obtain ⟨-, hr⟩ := word_bind_eq_ok hr
      exact (Except.ok.inj hr).symm
  | connectFailed =>
    obtain ⟨-, hr⟩ := word_bind_eq_ok hr
    exact (Except.ok.inj hr).symm

/-! ## Counters with room -/

/-- No number among the counters is larger than `n`. -/
structure AtMost (c : Counters) (n : Nat) : Prop where
  bytesIngested : c.bytesIngested ≤ n
  chunksIngested : c.chunksIngested ≤ n
  framesBuffered : c.framesBuffered ≤ n
  framesSilence : c.framesSilence ≤ n
  samplesFed : c.samplesFed ≤ n
  remainderEvents : c.remainderEvents ≤ n
  transcriptsEmitted : c.transcriptsEmitted ≤ n
  recognizerFaults : c.recognizerFaults ≤ n
  sinkFailures : c.sinkFailures ≤ n
  connects : c.connects ≤ n
  disconnects : c.disconnects ≤ n
  connectErrors : c.connectErrors ≤ n

/-- At the start no counter is above any number. -/
theorem atMost_zero (n : Nat) : zero.AtMost n := by
  constructor <;> exact Nat.zero_le n

/-- Counting does not halt as long as all numbers stay below the size of a word. -/
theorem record_of_atMost {c : Counters} {h : Happening} {n : Nat} (hn : n < Machine.wordSize)
    (hc : (c.counted h).AtMost n) : c.record h = .ok (c.counted h) := by
  have hfits {m : Nat} (hm : m ≤ n) : m < Machine.wordSize := Nat.lt_of_le_of_lt hm hn
  cases h with
  | ingested bytes =>
    exact (word_bind_of_lt (hfits hc.bytesIngested) _).trans
      (word_bind_of_lt (hfits hc.chunksIngested) _)
  | fed source samples remainder =>
    cases source with
    | buffered =>
      exact (word_bind_of_lt (hfits hc.framesBuffered) _).trans
        ((word_bind_of_lt (hfits hc.samplesFed) _).trans
          (left_bind_of_lt (hfits hc.remainderEvents) _))
    | silence =>
      exact (word_bind_of_lt (hfits hc.framesSilence) _).trans
        ((word_bind_of_lt (hfits hc.samplesFed) _).trans
          (left_bind_of_lt (hfits hc.remainderEvents) _))
  | transcribed timestamp => exact word_bind_of_lt (hfits hc.transcriptsEmitted) _
  | recognizerFailed => exact word_bind_of_lt (hfits hc.recognizerFaults) _
  | outletRefused => exact word_bind_of_lt (hfits hc.sinkFailures) _
  | linked connection =>
    cases connection with
    | connecting => rfl
    | connected => exact word_bind_of_lt (hfits hc.connects) _
    | disconnected => exact word_bind_of_lt (hfits hc.disconnects) _
  | connectFailed => exact word_bind_of_lt (hfits hc.connectErrors) _

/-- From one to the other each number has grown, by at most `n`. -/
structure Grown (c d : Counters) (n : Nat) : Prop where
  bytesIngested : c.bytesIngested ≤ d.bytesIngested ∧ d.bytesIngested ≤ c.bytesIngested + n
  chunksIngested : c.chunksIngested ≤ d.chunksIngested ∧ d.chunksIngested ≤ c.chunksIngested + n
  framesBuffered : c.framesBuffered ≤ d.framesBuffered ∧ d.framesBuffered ≤ c.framesBuffered + n
  framesSilence : c.framesSilence ≤ d.framesSilence ∧ d.framesSilence ≤ c.framesSilence + n
  samplesFed : c.samplesFed ≤ d.samplesFed ∧ d.samplesFed ≤ c.samplesFed + n
  remainderEvents :
    c.remainderEvents ≤ d.remainderEvents ∧ d.remainderEvents ≤ c.remainderEvents + n
  transcriptsEmitted :
    c.transcriptsEmitted ≤ d.transcriptsEmitted ∧ d.transcriptsEmitted ≤ c.transcriptsEmitted + n
  recognizerFaults :
    c.recognizerFaults ≤ d.recognizerFaults ∧ d.recognizerFaults ≤ c.recognizerFaults + n
  sinkFailures : c.sinkFailures ≤ d.sinkFailures ∧ d.sinkFailures ≤ c.sinkFailures + n
  connects : c.connects ≤ d.connects ∧ d.connects ≤ c.connects + n
  disconnects : c.disconnects ≤ d.disconnects ∧ d.disconnects ≤ c.disconnects + n
  connectErrors : c.connectErrors ≤ d.connectErrors ∧ d.connectErrors ≤ c.connectErrors + n

/-- A happening adds no more than its cost to any counter. -/
theorem grown_counted (c : Counters) (h : Happening) : Grown c (c.counted h) h.cost := by
  cases h <;> constructor <;> grind [counted, Happening.cost]

/-- From a state to itself nothing grows. -/
theorem Grown.refl (c : Counters) : Grown c c 0 := by
  constructor <;> exact ⟨Nat.le_refl _, Nat.le_refl _⟩

/-- Growth over two stretches adds up. -/
theorem Grown.trans {c d e : Counters} {n m : Nat} (hfirst : Grown c d n) (hsecond : Grown d e m) :
    Grown c e (n + m) := by
  constructor <;> grind [Grown]

/-- Happenings one after the other add no more than their costs together. -/
theorem grown_foldl (c : Counters) (happenings : List Happening) :
    Grown c (happenings.foldl counted c) (happenings.map Happening.cost).sum := by
  induction happenings generalizing c with
  | nil => exact Grown.refl c
  | cons h happenings ih =>
    rw [List.foldl_cons, List.map_cons, List.sum_cons]
    exact (grown_counted c h).trans (ih (c.counted h))

/-- A bound goes up by what the counters may have grown. -/
theorem AtMost.grow {c d : Counters} {n m : Nat} (hc : c.AtMost n) (hgrown : Grown c d m) :
    d.AtMost (n + m) := by
  constructor <;> grind [AtMost, Grown]

/-- A frame whose samples have room adds at most one to each other number. -/
theorem AtMost.counted_fed {c : Counters} {n samples : Nat} (hc : c.AtMost n)
    (hsamples : c.samplesFed + samples ≤ n + 1) (source : FrameSource) (remainder : Nat) :
    (c.counted (.fed source samples remainder)).AtMost (n + 1) := by
  constructor <;> grind [AtMost, Counters.counted]

/-- A larger number is a bound too. -/
theorem AtMost.mono {c : Counters} {n m : Nat} (hc : c.AtMost n) (hnm : n ≤ m) : c.AtMost m := by
  constructor <;> grind [AtMost]

end Counters

end SpeechRelay
