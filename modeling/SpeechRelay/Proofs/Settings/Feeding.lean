import SpeechRelay.Proofs.Feeder.AudioPath
import SpeechRelay.Proofs.Feeder.CallOrder
import SpeechRelay.Proofs.Settings.Limits

/-!
# No tick is idle

The check of the settings demands a gate of at least one unit and a frame of silence that is not
empty. That is enough for every tick to have something for the recognizer. If the gate is open there
is at least a unit to mix down, and if it is shut there is silence. What has happened before does
not matter: bytes added, a buffer cleared and ticks, also halted ones, leave the gate and the unit
of the buffer as they are (`gauged_moved`), and no more is needed of a state.

A tick comes to the recognizer unless counting its frame halts it, and there is room for counting as
long as the moves together cost less than a word (`within_movedAll`).
-/

set_option autoImplicit false

namespace SpeechRelay

open Audio

namespace Audio.Buffer

/-- Taking does not move the gate. -/
theorem gate_take (b : Buffer) : b.take.2.gate = b.gate := by
  by_cases h : b.size < b.gate <;> simp [take, h]

/-- If the gate is open, less than a unit stays behind. -/
theorem size_take_of_le {b : Buffer} (h : b.gate ≤ b.size) : b.take.2.size = b.size % b.unit := by
  have hle := Nat.mod_le b.size b.unit
  rw [take_of_le h]
  show (b.bytes.drop b.wholeBytes).length = _
  rw [List.length_drop, wholeBytes]
  exact Nat.sub_sub_self hle

end Audio.Buffer

namespace Feeder

variable {σ τ ω : Type}

/-! ## Moves -/

section Moves

variable (s : Setup σ τ ω)

/-- The feeder after a move. -/
def moved (f : Feeder σ τ ω) (next : Move × Reading) : Feeder σ τ ω :=
  match next.1 with
  | .append bytes =>
    { f with pipeline := { f.pipeline with buffer := f.pipeline.buffer.append bytes } }
  | .clear => { f with pipeline := { f.pipeline with buffer := f.pipeline.buffer.clear } }
  | .tick => (tick s next.2 f).2

/-- The feeder after moves, one after the other. -/
def movedAll (f : Feeder σ τ ω) (moves : List (Move × Reading)) : Feeder σ τ ω :=
  moves.foldl (moved s) f

/-- The buffer has that gate and that unit. -/
structure Gauged (f : Feeder σ τ ω) (gate unit : Nat) : Prop where
  gate : f.pipeline.buffer.gate = gate
  unit : f.pipeline.buffer.unit = unit

variable {s} {f : Feeder σ τ ω} {gate unit : Nat}

/-- No move changes the gate or the unit of the buffer. -/
theorem gauged_moved (h : f.Gauged gate unit) (next : Move × Reading) :
    (moved s f next).Gauged gate unit := by
  obtain ⟨move, r⟩ := next
  cases move with
  | append bytes => exact ⟨h.gate, h.unit⟩
  | clear => exact ⟨h.gate, h.unit⟩
  | tick =>
    have hbuffer := buffer_tick s r f
    constructor
    · show (tick s r f).2.pipeline.buffer.gate = gate
      rw [hbuffer, Buffer.gate_take, h.gate]
    · show (tick s r f).2.pipeline.buffer.unit = unit
      rw [hbuffer, Buffer.unit_take, h.unit]

/-- No moves change the gate or the unit of the buffer. -/
theorem gauged_movedAll (h : f.Gauged gate unit) (moves : List (Move × Reading)) :
    (movedAll s f moves).Gauged gate unit := by
  induction moves generalizing f with
  | nil => exact h
  | cons next moves ih => exact ih (gauged_moved h next)

/-- How much of a counter a move can use up. -/
def Move.cost (silenceSamples : Nat) : Move → Nat
  | .append bytes => bytes.length
  | .clear => 0
  | .tick => silenceSamples + 2

/-- What moves can use up together. -/
def costOf (silenceSamples : Nat) (moves : List (Move × Reading)) : Nat :=
  (moves.map fun next => next.1.cost silenceSamples).sum

variable {n : Nat}

/-- A move can use up no more than its cost. -/
theorem within_moved (hf : s.format.IsPcm16)
    (hsilence : s.silenceSamples * 2 ≤ Machine.maxBytes)
    (hunit : f.pipeline.buffer.unit = s.format.unitBytes) (hw : Within f n)
    (next : Move × Reading) (hroom : n + next.1.cost s.silenceSamples < Machine.wordSize) :
    Within (moved s f next) (n + next.1.cost s.silenceSamples) := by
  obtain ⟨move, r⟩ := next
  cases move with
  | append bytes => exact hw.append bytes
  | clear => exact hw.clear
  | tick =>
    obtain ⟨o, g, hg, hwithin, -⟩ := within_tick_plain r hf hsilence hunit hw hroom
    have hmoved : moved s f (.tick, r) = g := congrArg Prod.snd hg
    rw [hmoved]
    exact hwithin

/-- Moves can use up no more than they cost together. -/
theorem within_movedAll (hf : s.format.IsPcm16)
    (hsilence : s.silenceSamples * 2 ≤ Machine.maxBytes)
    (h : f.Gauged gate s.format.unitBytes) (hw : Within f n) (moves : List (Move × Reading))
    (hroom : n + costOf s.silenceSamples moves < Machine.wordSize) :
    Within (movedAll s f moves) (n + costOf s.silenceSamples moves) := by
  induction moves generalizing f n with
  | nil => exact hw
  | cons next moves ih =>
    rw [costOf, List.map_cons, List.sum_cons, ← Nat.add_assoc] at hroom ⊢
    have hfirst := within_moved hf hsilence h.unit hw next (by omega)
    exact ih (gauged_moved h next) hfirst hroom

/-- A fresh feeder has the gate that was asked for and the unit of its format. -/
theorem gauged_create {b : Buffer} (hf : s.format.IsPcm16)
    (hb : Buffer.create s.format gate = .ok b) (hfresh : f.pipeline = .create b) :
    f.Gauged gate s.format.unitBytes := by
  obtain ⟨hgate, hunit, -⟩ := Buffer.create_eq_ok hb
  have hbuffer : f.pipeline.buffer = b := congrArg Pipeline.buffer hfresh
  refine ⟨hbuffer ▸ hgate, ?_⟩
  rw [hbuffer, hunit]
  exact Nat.max_eq_left hf.unitBytes_pos

/-- From a fresh start, a tick behind moves comes to its end if together they cost less than a word.
-/
theorem completes_tick (hf : s.format.IsPcm16)
    (hsilence : s.silenceSamples * 2 ≤ Machine.maxBytes) {b : Buffer}
    (hb : Buffer.create s.format gate = .ok b) (hfresh : f.pipeline = .create b)
    (moves : List (Move × Reading)) (r : Reading)
    (hcost : costOf s.silenceSamples (moves ++ [(.tick, r)]) < Machine.wordSize) :
    ∃ o, (tick s.watched r (movedAll s f moves).watched).1 = .ok o := by
  have hsplit : costOf s.silenceSamples (moves ++ [(.tick, r)]) =
      0 + costOf s.silenceSamples moves + (s.silenceSamples + 2) := by
    simp [costOf, Move.cost]
  rw [hsplit] at hcost
  have hgauged := gauged_create hf hb hfresh
  have hstart := within_of_fresh hfresh (Buffer.create_eq_ok hb).2.2
  have hwithin := within_movedAll hf hsilence hgauged hstart moves (by omega)
  have hwatched : Within (movedAll s f moves).watched (0 + costOf s.silenceSamples moves) :=
    ⟨hwithin.counters, hwithin.audio⟩
  obtain ⟨o, v, hv, -⟩ := within_tick (s := s) r hf hsilence
    (gauged_movedAll hgauged moves).unit hwatched hcost
  exact ⟨o, congrArg Prod.fst hv⟩

end Moves

/-! ## The frame of a tick -/

/-- The frames that a tick gives to the recognizer. -/
def framesGiven (s : Setup σ τ ω) (r : Reading) (f : Feeder σ τ ω) : List (List Int16) :=
  framesHeard (tick s.watched r f.watched).2.recognizer.2

/-- The frame that settings let a tick make of a buffer: all whole units that are there, if the gate
is open, and else the silence of the settings. -/
structure FrameDue (gate unit silenceSamples : Nat) (before after : Buffer) (frame : MonoFrame) :
    Prop where
  nonempty : frame.samples ≠ []
  opened : gate ≤ before.size → frame.source = .buffered ∧
    frame.samples.length = before.size / unit ∧ gate / unit ≤ before.size / unit ∧
    1 ≤ gate / unit ∧ after.size = before.size % unit ∧ after.size < unit
  shut : before.size < gate →
    frame = ⟨List.replicate silenceSamples 0, .silence⟩ ∧ after = before

section Frame

variable {s : Setup σ τ ω} {f : Feeder σ τ ω} {gate : Nat}

/-- With a gate of a unit at least and some silence, a tick makes a frame that is not empty. -/
theorem frameDue_nextFrame (hf : s.format.IsPcm16)
    (hroom : s.silenceSamples * 2 ≤ Machine.maxBytes) (hsilence : 0 < s.silenceSamples)
    (hgate : s.format.unitBytes ≤ gate) (h : f.Gauged gate s.format.unitBytes) :
    ∃ frame remainder, (nextFrame s f).1 = .ok (frame, remainder) ∧
      FrameDue gate s.format.unitBytes s.silenceSamples f.pipeline.buffer
        f.pipeline.buffer.take.2 frame := by
  have hpos := hf.unitBytes_pos
  have hone : 1 ≤ gate / s.format.unitBytes := (Nat.one_le_div_iff hpos).mpr hgate
  by_cases hopen : f.pipeline.buffer.gate ≤ f.pipeline.buffer.size
  · have hsize : gate ≤ f.pipeline.buffer.size := h.gate ▸ hopen
    have hmore : gate / s.format.unitBytes ≤ f.pipeline.buffer.size / s.format.unitBytes :=
      Nat.div_le_div_right hsize
    have hlength : (s.format.mono
        (f.pipeline.buffer.bytes.take f.pipeline.buffer.wholeBytes)).length =
          f.pipeline.buffer.size / s.format.unitBytes := by
      rw [SampleFormat.length_mono, Buffer.length_take_wholeBytes, Buffer.wholeBytes, h.unit]
      exact (Nat.div_eq_sub_mod_div).symm
    have hrest := Buffer.size_take_of_le hopen
    rw [h.unit] at hrest
    refine ⟨_, _, nextFrame_of_le hf hopen, ?_, fun _ => ?_, fun hshut => absurd hsize ?_⟩
    · apply List.ne_nil_of_length_pos
      show 0 < (s.format.mono _).length
      omega
    · exact ⟨rfl, hlength, hmore, hone, hrest, hrest ▸ Nat.mod_lt _ hpos⟩
    · omega
  · have hshut := Nat.not_le.mp hopen
    have hframe := nextFrame_of_lt (s := s) hshut
    rw [silence_of_le hroom] at hframe
    refine ⟨_, _, hframe, ?_, fun hsize => ?_, fun _ => ⟨rfl, ?_⟩⟩
    · apply List.ne_nil_of_length_pos
      rw [List.length_replicate]
      exact hsilence
    · rw [h.gate] at hshut
      omega
    · rw [Buffer.take_of_lt hshut]

end Frame

end Feeder

namespace Settings

open Feeder

variable {σ τ ω : Type}

/-- Settings that pass the check and fit the machine give a feeder of which no tick is idle,
whatever was added and cleared before, however often it has ticked, and whatever recognizer, outlet
and medium it has. If the gate is open, the frame of a tick is that of all whole units, of which
there is one at least; if it is shut, the frame is the silence of the settings and the buffer stays
as it is. The recognizer is given this frame, once. Only a full counter can come between, and to
fill one takes moves that cost a word. -/
theorem tick_never_idle {settings : Settings} (hcheck : settings.check = .ok ())
    (hfits : settings.Fits) {b : Buffer} (hb : settings.buffer = .ok b)
    (recognizer : Recognizer σ) (outlet : Outlet τ) (medium : Medium ω) {f : Feeder σ τ ω}
    (hfresh : f.pipeline = .create b) (moves : List (Move × Feeder.Reading))
    (r : Feeder.Reading) :
    let s := settings.setup recognizer outlet medium
    let before := movedAll s f moves
    let ticked := tick s.watched r before.watched
    tick s r before = ticked.map id plain ∧
    ∃ frame : MonoFrame,
      FrameDue settings.audio.consumeGateBytes.toNat settings.audio.unitBytes
        settings.audio.silenceFrameSamples.toNat before.pipeline.buffer ticked.2.pipeline.buffer
        frame ∧
      (∀ o, ticked.1 = .ok o → o.source = frame.source ∧ o.samples = frame.samples.length) ∧
      (framesGiven s r before = [frame.samples] ∨
        (∃ halt, ticked.1 = .error halt) ∧
          Machine.wordSize ≤
            costOf settings.audio.silenceFrameSamples.toNat (moves ++ [(.tick, r)])) := by
  intro s before ticked
  have hsensible := sensible_of_check hcheck
  have hgauged := gauged_create (s := s) hsensible.format hb hfresh
  have hnow : before.watched.Gauged settings.audio.consumeGateBytes.toNat s.format.unitBytes := by
    have h := gauged_movedAll (s := s) hgauged moves
    exact ⟨h.gate, h.unit⟩
  obtain ⟨frame, remainder, hframe, hdue⟩ := frameDue_nextFrame (s := s.watched)
    hsensible.format hfits.silence hsensible.silence hsensible.gate hnow
  have hmade : nextFrame s.watched before.watched =
      (.ok (frame, remainder), (nextFrame s.watched before.watched).2) := Prod.ext hframe rfl
  have hafter : ticked.2.pipeline.buffer = before.pipeline.buffer.take.2 :=
    buffer_tick s.watched r before.watched
  refine ⟨tick_image (resembles_watched s) r before.watched, frame, hafter ▸ hdue, ?_, ?_⟩
  · intro o ho
    obtain ⟨reported, left, made, c, hsame, -, hend⟩ := tick_eq_ok (Prod.ext ho rfl)
    obtain ⟨rfl, -⟩ := Prod.mk.inj (Except.ok.inj (congrArg Prod.fst (hmade.symm.trans hsame)))
    exact conclude_eq_ok hend
  · rcases heard_tick s r before.watched hmade with ⟨halt, hhalt, -⟩ | ⟨g, hg, hheard⟩
    · -- The tick did not come to the recognizer, so that the moves have filled a counter.
      right
      refine ⟨⟨halt, hhalt⟩, ?_⟩
      by_contra hsmall
      obtain ⟨o, ho⟩ := completes_tick (s := s) hsensible.format hfits.silence hb hfresh moves r
        (Nat.not_le.mp hsmall)
      have hok : ticked.1 = .ok o := ho
      rw [hok] at hhalt
      cases hhalt
    · left
      rw [framesGiven, hheard]
      obtain ⟨asked, hasked, hhearing⟩ := hearing_hear s g hdue.nonempty
      have hfirst : g.recognizer.2 = [] := congrArg Prod.snd hg
      rw [hasked, hfirst, List.nil_append]
      exact framesHeard_of_hearing hhearing

/-- The default settings with a gate of a unit and a half, and with less silence. -/
def halfUnitGate : Settings :=
  { default with audio :=
    { default.audio with consumeGateBytes := 6, silenceFrameSamples := 3 } }

/-- A recognizer that always fails. Too few bytes, then seven, then the three that are left: silence
is fed, then a unit, then silence again. -/
theorem tick_never_idle_halfUnitGate :
    let deaf : Recognizer Nat :=
      { name := "deaf"
        accept := fun _ n => (.error (.decode "deaf"), n + 1)
        result := fun n => (.error (.decode "deaf"), n)
        partialResult := fun n => (.error (.decode "deaf"), n)
        finalResult := fun n => (.error (.decode "deaf"), n) }
    let b : Buffer := ⟨6, 4, [], by decide⟩
    let f : Feeder Nat TranscriptQueue Disk := .create 0 .create (.file []) (.create b)
    let r : Feeder.Reading := ⟨⟨0⟩, ⟨0, 0⟩, 0⟩
    let s := halfUnitGate.setup deaf TranscriptQueue.outlet Disk.medium
    let moves : List (Move × Feeder.Reading) :=
      [.append [9, 9], .clear, .append [1, 2, 3], .tick, .append [4, 5, 6, 7], .tick].map (·, r)
    let heard (k : Nat) : List (List Int16) :=
      framesGiven s r (movedAll s f (moves.take k))
    halfUnitGate.check = .ok () ∧ halfUnitGate.Fits ∧ halfUnitGate.buffer = .ok b ∧
      heard 3 = [[0, 0, 0]] ∧ heard 5 = [[770]] ∧ heard 6 = [[0, 0, 0]] ∧
      ∃ frame : MonoFrame, frame.samples ≠ [] ∧ (heard 5 = [frame.samples] ∨
        Machine.wordSize ≤ costOf 3 (moves.take 5 ++ [(.tick, r)])) := by
  intro deaf b f r s moves heard
  have hcheck : halfUnitGate.check = .ok () := by decide
  have hfits : halfUnitGate.Fits := ⟨by decide, by decide⟩
  have hb : halfUnitGate.buffer = .ok b := rfl
  obtain ⟨-, frame, hdue, -, hheard⟩ := tick_never_idle hcheck hfits hb deaf TranscriptQueue.outlet
    Disk.medium (f := f) rfl (moves.take 5) r
  exact ⟨hcheck, hfits, hb, by decide +kernel, by decide +kernel, by decide +kernel, frame,
    hdue.nonempty, hheard.imp_right And.right⟩

end Settings

end SpeechRelay
