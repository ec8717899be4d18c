import SpeechRelay.Proofs.Link.Transition

/-!
# The last thing a client writes

A client says goodbye only after the stop signal was given, and when it has done so it writes
nothing any more. A run in which a goodbye was written falls into the steps before it and the steps
behind it (`run_goodbye`).
-/

set_option autoImplicit false

namespace SpeechRelay.Link

namespace Phase

/-- Whether the client has seen the stop signal. -/
def isStopping : Phase → Bool
  | .draining | .flushing _ | .closing | .discarding _ | .stopped => true
  | _ => false

/-- Whether the client will not open a session any more, and is in none. -/
def isOver : Phase → Bool
  | .discarding _ | .stopped => true
  | _ => false

/-- A client in a session is not over. -/
theorem isOver_eq_false_of_inSession {p : Phase} (h : p.inSession) : p.isOver = false := by
  cases p with
  | discarding count => cases h
  | stopped => cases h
  | _ => rfl

end Phase

/-- Whether something is written to the session. -/
def Action.isWrite : Action → Bool
  | .wrote _ _ | .wroteGoodbye => true
  | _ => false

namespace Client

variable {s : Setup} {c c' : Client} {e : Step} {es : List Step} {seen : List Action}

/-! ## The stop signal -/

/-- Nobody gets to stopping without the stop signal. -/
theorem isStopping_transition (h : Transition s c e c' seen)
    (hc : c.phase.isStopping → c.stopRequested) : c'.phase.isStopping → c'.stopRequested := by
  cases h with
  | cancel => exact fun _ => rfl
  | _ => simp_all [Phase.isStopping]

/-- Only a cancellation gives the stop signal. -/
theorem stopRequested_transition (h : Transition s c e c' seen) (hc : c'.stopRequested) :
    c.stopRequested ∨ e = .cancel := by
  cases h with
  | cancel => exact Or.inr rfl
  | _ => exact Or.inl hc

/-- Whoever sees the stop signal sees that it was given. -/
theorem cancel_mem_of_stopRequested (h : c.run s es = some (c', seen)) (hc' : c'.stopRequested) :
    c.stopRequested ∨ .cancel ∈ es := by
  induction es generalizing c seen with
  | nil =>
    cases h
    exact Or.inl hc'
  | cons e es ih =>
    obtain ⟨next, now, later, hnext, hrun, -⟩ := Stepwise.run_cons_eq_some.mp h
    rcases ih hrun with hstop | hmem
    · rcases stopRequested_transition (transition_of_step hnext) hstop with hstop | rfl
      · exact Or.inl hstop
      · exact Or.inr List.mem_cons_self
    · exact Or.inr (List.mem_cons_of_mem e hmem)

/-! ## Behind the goodbye -/

/-- A client that is over stays so and writes nothing. -/
theorem isOver_transition (h : Transition s c e c' seen) (hc : c.phase.isOver) :
    c'.phase.isOver ∧ ∀ a ∈ seen, a.isWrite = false := by
  cases h with
  | halt count => by_cases hcount : count = 0 <;> simp [Phase.isOver, Action.isWrite, hcount]
  | writeFailed p => cases p <;> simp_all [Phase.isOver, Phase.isWriting]
  | _ => simp_all [Phase.isOver, Action.isWrite]

/-- A client that is over writes nothing in any run. -/
theorem isOver_run (h : c.run s es = some (c', seen)) (hc : c.phase.isOver) :
    c'.phase.isOver ∧ ∀ a ∈ seen, a.isWrite = false :=
  run_seen isOver_transition h hc

/-- A goodbye is all that is seen of the step that writes it. -/
theorem goodbye_transition (h : Transition s c e c' seen) (hmem : .wroteGoodbye ∈ seen) :
    seen = [.wroteGoodbye] ∧ e = .written ∧ c.phase = .closing ∧ c'.phase.isOver := by
  cases h with
  | writtenGoodbye => exact ⟨rfl, rfl, rfl, rfl⟩
  | receivedText q stop text =>
    unfold onText at hmem
    split at hmem <;> simp at hmem
  | halt count => by_cases hcount : count = 0 <;> simp [hcount] at hmem
  | _ => simp at hmem

/-- A run in which a goodbye was written is a run up to the goodbye and a run of a client that is
over. -/
theorem run_goodbye {before after : List Action}
    (h : c.run s es = some (c', before ++ .wroteGoodbye :: after)) :
    ∃ (early late : List Step) (closing last : Client), es = early ++ .written :: late ∧
      c.run s early = some (closing, before) ∧ closing.phase = .closing ∧
      last.phase.isOver ∧ last.run s late = some (c', after) := by
  induction es generalizing c before with
  | nil =>
    have hnil : before ++ .wroteGoodbye :: after = [] := congrArg Prod.snd (Option.some.inj h).symm
    cases before <;> cases hnil
  | cons e es ih =>
    obtain ⟨next, now, later, hnext, hrun, hseen⟩ := Stepwise.run_cons_eq_some.mp h
    -- The goodbye is the only action of its step, or it is seen later.
    have hcases : (now = [.wroteGoodbye] ∧ before = [] ∧ after = later) ∨
        ∃ rest, before = now ++ rest ∧ later = rest ++ .wroteGoodbye :: after := by
      rcases List.append_eq_append_iff.mp hseen with ⟨rest, hnow, hlater⟩ | hlater
      · cases rest with
        | nil => exact Or.inr ⟨[], by simpa using hnow.symm, hlater.symm⟩
        | cons a rest =>
          obtain ⟨rfl, hafter⟩ := List.cons_eq_cons.mp hlater
          have hmem : Action.wroteGoodbye ∈ now := by simp [hnow]
          have hone := (goodbye_transition (transition_of_step hnext) hmem).1
          rw [hone] at hnow
          have hparts := List.append_eq_singleton_iff.mp hnow.symm
          simp at hparts
          exact Or.inl ⟨hone, hparts.1, by rw [hafter, hparts.2]; rfl⟩
      · exact Or.inr hlater
    rcases hcases with ⟨rfl, rfl, rfl⟩ | ⟨rest, rfl, rfl⟩
    · obtain ⟨-, rfl, hclosing, hover⟩ :=
        goodbye_transition (transition_of_step hnext) List.mem_cons_self
      exact ⟨[], es, c, next, rfl, rfl, hclosing, hover, hrun⟩
    · obtain ⟨early, late, closing, last, rfl, hearly, hclosing, hover, hlate⟩ := ih hrun
      refine ⟨e :: early, late, closing, last, rfl, ?_, hclosing, hover, hlate⟩
      exact Stepwise.run_cons_eq_some.mpr ⟨next, now, rest, hnext, hearly, rfl⟩

/-- A client that is not over has not said goodbye. -/
theorem goodbye_not_mem (h : c.run s es = some (c', seen)) (hc' : c'.phase.isOver = false) :
    .wroteGoodbye ∉ seen := by
  intro hmem
  obtain ⟨before, after, rfl⟩ := List.append_of_mem hmem
  obtain ⟨-, late, -, last, -, -, -, hover, hlate⟩ := run_goodbye h
  have hend := (isOver_run hlate hover).1
  rw [hc'] at hend
  cases hend

end Client

end SpeechRelay.Link
