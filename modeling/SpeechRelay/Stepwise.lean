/-!
# Runs of a machine

Several parts of the relay are machines that take one step at a time, refuse a step that cannot be
taken now, and let others see something of each step. `Stepwise.run` is such a machine taking steps
one behind the other: it comes to an end if every step can be taken, and shows all that is seen of
them, in order.

A run of two parts is a run of the first and a run of the second (`run_append_eq_some`), and what
every step keeps, a run keeps (`run_seen`).
-/

set_option autoImplicit false

namespace SpeechRelay.Stepwise

variable {α ε ο : Type} {step : α → ε → Option (α × List ο)} {a b : α} {e : ε} {es : List ε}
  {seen : List ο}

/-- The state after steps and what others see of them, if all can be taken. -/
def run (step : α → ε → Option (α × List ο)) (a : α) : List ε → Option (α × List ο)
  | [] => some (a, [])
  | e :: es =>
    match step a e with
    | none => none
    | some (a, seen) =>
      match run step a es with
      | none => none
      | some (a, more) => some (a, seen ++ more)

/-- A run begins with its first step and goes on with the others. -/
theorem run_cons_eq_some : run step a (e :: es) = some (b, seen) ↔
    ∃ next now later, step a e = some (next, now) ∧ run step next es = some (b, later) ∧
      seen = now ++ later := by
  rw [run]
  constructor
  · intro h
    split at h
    · cases h
    · next next now hstep =>
      split at h
      · cases h
      · next last later hrun =>
        cases h
        exact ⟨next, now, later, hstep, hrun, rfl⟩
  · rintro ⟨next, now, later, hstep, hrun, rfl⟩
    simp only [hstep, hrun]

/-- A single step is a run. -/
theorem run_singleton (h : step a e = some (b, seen)) : run step a [e] = some (b, seen) :=
  run_cons_eq_some.mpr ⟨b, seen, [], h, rfl, (List.append_nil seen).symm⟩

/-- A run of steps and more is a run of the steps, and from where it ends a run of the others. -/
theorem run_append_eq_some {more : List ε} : run step a (es ++ more) = some (b, seen) ↔
    ∃ mid now later, run step a es = some (mid, now) ∧ run step mid more = some (b, later) ∧
      seen = now ++ later := by
  induction es generalizing a seen with
  | nil =>
    constructor
    · intro h
      exact ⟨a, [], seen, rfl, h, rfl⟩
    · rintro ⟨mid, now, later, hnow, hlater, rfl⟩
      cases hnow
      exact hlater
  | cons e es ih =>
    rw [List.cons_append, run_cons_eq_some]
    constructor
    · rintro ⟨next, first, rest, hstep, hrun, rfl⟩
      obtain ⟨mid, now, later, hnow, hlater, rfl⟩ := ih.mp hrun
      refine ⟨mid, first ++ now, later, ?_, hlater, (List.append_assoc _ _ _).symm⟩
      exact run_cons_eq_some.mpr ⟨next, first, now, hstep, hnow, rfl⟩
    · rintro ⟨mid, now, later, hnow, hlater, rfl⟩
      obtain ⟨next, first, rest, hstep, hrun, rfl⟩ := run_cons_eq_some.mp hnow
      refine ⟨next, first, rest ++ later, hstep, ?_, List.append_assoc _ _ _⟩
      exact ih.mpr ⟨mid, rest, later, hrun, hlater, rfl⟩

/-- What every step keeps, a run keeps, and what all steps show then, the run shows. -/
theorem run_seen {P : α → Prop} {Q : ο → Prop}
    (hstep : ∀ {a e b seen}, step a e = some (b, seen) → P a → P b ∧ ∀ o ∈ seen, Q o)
    (h : run step a es = some (b, seen)) (ha : P a) : P b ∧ ∀ o ∈ seen, Q o := by
  induction es generalizing a seen with
  | nil =>
    cases h
    exact ⟨ha, fun _ hmem => by cases hmem⟩
  | cons e es ih =>
    obtain ⟨next, now, later, hfirst, hrun, rfl⟩ := run_cons_eq_some.mp h
    obtain ⟨hnext, hnow⟩ := hstep hfirst ha
    obtain ⟨hlast, hlater⟩ := ih hrun hnext
    refine ⟨hlast, fun o hmem => ?_⟩
    rcases List.mem_append.mp hmem with hmem | hmem
    · exact hnow o hmem
    · exact hlater o hmem

end SpeechRelay.Stepwise
