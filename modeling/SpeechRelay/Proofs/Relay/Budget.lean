import SpeechRelay.Proofs.Feeder.Calls
import SpeechRelay.Proofs.Relay.Basic

/-!
# Rounds that come to their end

A round halts only where a counter is full or a frame of silence is larger than the address space.
So there is a budget for client and feeder together as there is one for calls: a move of the client
sets effects in motion that cost no more than the move (`cost_effects`), an effect spends what was
set aside for it, and a tick pays for itself. While moves cost less than a word together, every
round of every session comes to its end (`Solvent.run`).
-/

set_option autoImplicit false

namespace SpeechRelay

open Audio Feeder

/-- How much of a counter an effect can use up. -/
def Intake.Effect.cost : Intake.Effect → Nat
  | .append bytes => bytes.length
  | .record happening => happening.cost
  | _ => 0

namespace Relay

variable {σ τ ω : Type}

/-- What is to be set aside for effects. -/
def costIn (pending : List Intake.Effect) : Nat := (pending.map Intake.Effect.cost).sum

/-- What is set aside for effects in two stretches adds up. -/
theorem costIn_append (pending more : List Intake.Effect) :
    costIn (pending ++ more) = costIn pending + costIn more := by
  rw [costIn, List.map_append, List.sum_append]
  rfl

/-- How much of a counter a move can use up, with the effects that it sets in motion. Audio is
counted when it comes in and again when it is fed. -/
def Move.cost (s : Setup σ τ ω) : Move → Nat
  | .link e => 2 * (audioOf s.link.audioEvent e).length + 1
  | .settle => 0
  | .tick _ => s.feeder.silenceSamples + 2

/-- The effects of a step of the client cost no more than the step. -/
theorem cost_effects {s : Link.Setup} {c c' : Link.Client} {e : Link.Step}
    {seen : List Link.Action} (h : Link.Client.Transition s c e c' seen)
    (clearOnDisconnect : Bool) :
    costIn (effects clearOnDisconnect seen) ≤ 2 * (audioOf s.audioEvent e).length + 1 := by
  cases h with
  | receivedText q stop text =>
    simp only [Link.Client.onText, audioOf]
    cases Link.Envelope.decode s.audioEvent text with
    | error why => exact Nat.zero_le _
    | ok envelope =>
      cases envelope with
      | audio bytes =>
        simp only [costIn, effects, Intake.effects, Intake.Effect.cost, Happening.cost,
          List.flatMap_cons, List.flatMap_nil, List.append_nil, List.map_cons, List.map_nil,
          List.sum_cons, List.sum_nil]
        omega
      | _ => exact Nat.zero_le _
  | receivedBinary q stop bytes =>
    simp only [costIn, effects, Intake.effects, Intake.Effect.cost, Happening.cost, audioOf,
      List.flatMap_cons, List.flatMap_nil, List.append_nil, List.map_cons, List.map_nil,
      List.sum_cons, List.sum_nil]
    omega
  | halt count q stop h =>
    by_cases hcount : count = 0 <;> simp [costIn, effects, Intake.Effect.cost, hcount]
  | _ =>
    cases clearOnDisconnect <;>
      simp [costIn, effects, Intake.effects, Intake.Effect.cost, Happening.cost]

/-! ## The invariant -/

/-- The feeder is within a budget that also has what is set aside for the effects that are still to
come, and all rounds so far have come to their end. -/
structure Solvent (s : Setup σ τ ω) (relay : Relay σ τ ω) (sessions : Sessions) (n : Nat) :
    Prop where
  within : ∃ m, relay.feeder.Within m ∧ m + costIn relay.pending ≤ n
  unit : relay.feeder.pipeline.buffer.unit = s.feeder.format.unitBytes
  ended : ∀ session ∈ sessions.all, ∀ round ∈ session.rounds, ∃ o, round.outcome = .ok o

/-- An effect costs what was set aside for it, and leaves the unit of the buffer. -/
theorem within_effect {effect : Intake.Effect} {f : Feeder (σ × List RecognizerCall) τ ω}
    {pipeline : Pipeline} {m : Nat} (hw : f.Within m)
    (hrun : effect.run f.pipeline = .ok pipeline) :
    Within { f with pipeline } (m + effect.cost) ∧
      pipeline.buffer.unit = f.pipeline.buffer.unit := by
  cases effect with
  | append bytes =>
    cases hrun
    exact ⟨hw.append bytes, rfl⟩
  | record happening =>
    obtain ⟨c, hrecord, rfl⟩ := Pipeline.record_eq_ok.mp hrun
    have hgrown := f.pipeline.counters.grown_counted happening
    rw [← Counters.eq_counted_of_record hrecord] at hgrown
    refine ⟨⟨hw.counters.grow hgrown, ?_⟩, rfl⟩
    have haudio := hw.audio
    have hsamples := hgrown.samplesFed.2
    show c.samplesFed + f.pipeline.buffer.size ≤ m + happening.cost
    omega
  | note entry =>
    cases hrun
    exact ⟨⟨hw.counters, hw.audio⟩, rfl⟩
  | noteCleared =>
    cases hrun
    exact ⟨⟨hw.counters, hw.audio⟩, rfl⟩
  | clear =>
    cases hrun
    exact ⟨hw.clear, rfl⟩

namespace Solvent

variable {s : Setup σ τ ω} {relay next : Relay σ τ ω} {sessions : Sessions} {n : Nat}

/-- A larger budget does as well. -/
theorem mono (h : Solvent s relay sessions n) {m : Nat} (hle : n ≤ m) :
    Solvent s relay sessions m := by
  obtain ⟨k, hwithin, hk⟩ := h.within
  exact ⟨⟨k, hwithin, Nat.le_trans hk hle⟩, h.unit, h.ended⟩

/-- At the start nothing is set aside, and no round has been. -/
theorem start {gate : Nat} {f : Feeder (σ × List RecognizerCall) τ ω}
    (hf : s.feeder.format.IsPcm16)
    (hcreate : Buffer.create s.feeder.format gate = .ok f.pipeline.buffer)
    (hcounters : f.pipeline.counters.AtMost n) : Solvent s ⟨.create, [], f⟩ .start n := by
  have hunit : f.pipeline.buffer.unit = s.feeder.format.unitBytes :=
    (Buffer.create_eq_ok hcreate).2.1.trans (Nat.max_eq_left hf.unitBytes_pos)
  exact ⟨⟨n, within_of_create hcreate hcounters, Nat.le_refl n⟩, hunit, Sessions.rounds_start⟩

/-- A move costs no more than its cost, and a round that it is comes to its end. -/
theorem step (hf : s.feeder.format.IsPcm16)
    (hsilence : s.feeder.silenceSamples * 2 ≤ Machine.maxBytes) {m : Move} {rounds : List Round}
    (h : Solvent s relay sessions n) (hroom : n + m.cost s < Machine.wordSize)
    (hstep : relay.step s m = some (next, rounds)) :
    Solvent s next (sessions.after s.link.audioEvent m rounds) (n + m.cost s) := by
  obtain ⟨k, hwithin, hk⟩ := h.within
  cases m with
  | link e =>
    obtain ⟨client, seen, ht, -, rfl, rfl⟩ := step_link_eq_some hstep
    refine ⟨⟨k, hwithin, ?_⟩, h.unit, Sessions.rounds_after _ _ h.ended (by simp)⟩
    rw [costIn_append, ← Nat.add_assoc]
    exact Nat.add_le_add hk (cost_effects ht s.clearOnDisconnect)
  | settle =>
    obtain ⟨effect, pending, pipeline, hpending, hrun, rfl, rfl⟩ := step_settle_eq_some hstep
    obtain ⟨heffect, hunit⟩ := within_effect hwithin hrun
    rw [Sessions.after_settle]
    refine ⟨⟨k + effect.cost, heffect, ?_⟩, hunit.trans h.unit, h.ended⟩
    rw [hpending, costIn, List.map_cons, List.sum_cons, ← Nat.add_assoc] at hk
    exact hk
  | tick r =>
    cases hstep
    have htick : k + (s.feeder.silenceSamples + 2) < Machine.wordSize :=
      Nat.lt_of_le_of_lt (Nat.add_le_add_right (Nat.le_of_add_right_le hk) _) hroom
    obtain ⟨o, g, hg, hafter, hsame⟩ :=
      within_tick_plain (s := s.feeder.recorded) r hf hsilence h.unit hwithin htick
    have hnext : (round s.feeder r relay.feeder).2 = g := congrArg Prod.snd hg
    refine ⟨⟨k + (s.feeder.silenceSamples + 2), hnext ▸ hafter, ?_⟩, ?_,
      Sessions.rounds_after _ _ h.ended fun round hround => ?_⟩
    · -- What is set aside for the effects stays set aside.
      show k + (s.feeder.silenceSamples + 2) + costIn relay.pending ≤
        n + (s.feeder.silenceSamples + 2)
      omega
    · exact (congrArg (fun f => f.pipeline.buffer.unit) hnext).trans (hsame.trans h.unit)
    · rw [List.mem_singleton.mp hround]
      exact ⟨o, congrArg Prod.fst hg⟩

/-- So do moves one after the other, of which those that cannot be made cost nothing. -/
theorem run (hf : s.feeder.format.IsPcm16)
    (hsilence : s.feeder.silenceSamples * 2 ≤ Machine.maxBytes) (moves : List Move)
    (h : Solvent s relay sessions n)
    (hroom : n + (moves.map (Move.cost s)).sum < Machine.wordSize) :
    Solvent s (relay.run s sessions moves).1 (relay.run s sessions moves).2
      (n + (moves.map (Move.cost s)).sum) := by
  induction moves generalizing relay sessions n with
  | nil => exact h
  | cons m moves ih =>
    rw [List.map_cons, List.sum_cons, ← Nat.add_assoc] at hroom ⊢
    rw [Relay.run]
    cases hstep : relay.step s m with
    | none => exact ih (h.mono (Nat.le_add_right _ _)) hroom
    | some moved =>
      exact ih (h.step hf hsilence (Nat.lt_of_le_of_lt (Nat.le_add_right _ _) hroom) hstep) hroom

end Solvent

end Relay

end SpeechRelay
