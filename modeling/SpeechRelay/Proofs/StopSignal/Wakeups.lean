import Mathlib.Tactic.Common
import SpeechRelay.StopSignal

/-!
# No wake-up is lost

Between looking at the flag and sleeping, one that waits can be overtaken by a cancellation. It is
registered by then, so that the cancellation still reaches it. Hence nobody sleeps through a stop:
once the flag is set and nobody is about to notify, all who have found the flag unset have been
woken (`Awake`), and each of them returns after a few steps of its own, whatever the others do
meanwhile (`hasReturned_run`).

`Awake` is an invariant of single steps (`awake_transition`). The one step that could break it, that
of looking at the flag, leads to sleep only while the flag is unset.
-/

set_option autoImplicit false

namespace SpeechRelay.StopSignal

/-! ## Steps -/

/-- The steps that can be taken. -/
inductive Transition (s : StopSignal) : Step → StopSignal → Prop where
  | enterWait : Transition s .enterWait { s with waits := s.waits ++ [.entering] }
  | enterCancel : Transition s .enterCancel { s with cancels := s.cancels ++ [.entering] }
  | wait {i : Nat} {w w' : Waiting} (hw : s.waits[i]? = some w)
      (hadvance : w.advance s.requested = some w') :
    Transition s (.advanceWait i) { s with waits := s.waits.set i w' }
  | flag {i : Nat} (hc : s.cancels[i]? = some .entering) :
    Transition s (.advanceCancel i)
      { s with requested := true, cancels := s.cancels.set i .flagged }
  | notify {i : Nat} (hc : s.cancels[i]? = some .flagged) :
    Transition s (.advanceCancel i)
      { s with waits := s.waits.map Waiting.notify, cancels := s.cancels.set i .returned }

/-- There are no other steps that can be taken. -/
theorem transition_of_step {s s' : StopSignal} {e : Step} (h : s.step e = some s') :
    s.Transition e s' := by
  cases e with
  | enterWait =>
    cases h
    exact .enterWait
  | enterCancel =>
    cases h
    exact .enterCancel
  | advanceWait i =>
    simp only [step] at h
    split at h
    · cases h
    · next w hw =>
      obtain ⟨w', hadvance, rfl⟩ := Option.map_eq_some_iff.mp h
      exact .wait hw hadvance
  | advanceCancel i =>
    simp only [step] at h
    split at h
    · next hc =>
      cases h
      exact .flag hc
    · next hc =>
      cases h
      exact .notify hc
    · cases h

/-- What every step keeps, a run keeps. -/
theorem run_invariant {P : StopSignal → Prop}
    (hstep : ∀ {s s' e}, Transition s e s' → P s → P s') (steps : List Step) {s : StopSignal}
    (hs : P s) : P (s.run steps) := by
  induction steps generalizing s with
  | nil => exact hs
  | cons e steps ih =>
    rw [run]
    cases hnext : s.step e with
    | none => exact ih hs
    | some s' => exact ih (hstep (transition_of_step hnext) hs)

/-- Once the flag is set, it stays set. -/
theorem requested_transition {s s' : StopSignal} {e : Step} (h : s.Transition e s')
    (hs : s.requested = true) : s'.requested = true := by
  cases h with
  | flag hc => rfl
  | _ => exact hs

/-! ## Sleep -/

/-- Whether one has found the flag unset and has not been woken since. -/
def Waiting.isUnwoken : Waiting → Bool
  | .looked false | .parked false => true
  | _ => false

/-- Whoever is notified is woken. -/
theorem Waiting.isUnwoken_notify (w : Waiting) : w.notify.isUnwoken = false := by
  cases w <;> rfl

/-- Being notified is not yet returning. -/
theorem Waiting.notify_eq_returned {w : Waiting} : w.notify = .returned ↔ w = .returned := by
  cases w <;> simp [notify]

/-- Nobody goes to sleep while the flag is set. -/
theorem Waiting.isUnwoken_of_advance {w w' : Waiting} {requested : Bool}
    (h : w.advance requested = some w') (hw' : w'.isUnwoken) : w.isUnwoken ∨ requested = false := by
  cases w with
  | registered notified =>
    cases requested with
    | true =>
      cases h
      cases hw'
    | false => exact Or.inr rfl
  | looked notified =>
    cases h
    cases notified with
    | true => cases hw'
    | false => exact Or.inl rfl
  | parked notified =>
    cases notified with
    | true =>
      cases h
      cases hw'
    | false => cases h
  | entering =>
    cases h
    cases hw'
  | returned => cases h

/-- Nobody returns before the flag is set. -/
theorem Waiting.requested_of_advance {w : Waiting} {requested : Bool}
    (h : w.advance requested = some .returned) : requested = true := by
  cases w with
  | registered notified =>
    cases requested with
    | true => rfl
    | false => cases h
  | parked notified => cases notified <;> cases h
  | _ => cases h

/-- Whoever returns does so in a step that sees the flag set. -/
theorem requested_of_returning {s s' : StopSignal} {e : Step} (h : s.Transition e s') {i : Nat}
    (hnow : s'.hasReturned i = true) (hbefore : s.hasReturned i = false) : s.requested = true := by
  simp only [hasReturned, decide_eq_true_eq, decide_eq_false_iff_not] at hnow hbefore
  cases h with
  | enterWait =>
    rw [List.getElem?_append] at hnow
    split at hnow
    · exact absurd hnow hbefore
    · cases List.mem_singleton.mp (List.mem_of_getElem? hnow)
  | enterCancel => exact absurd hnow hbefore
  | @wait j w w' hw hadvance =>
    by_cases hji : j = i
    · subst hji
      rw [List.getElem?_set_self (List.getElem?_eq_some_iff.mp hw).1] at hnow
      cases hnow
      exact Waiting.requested_of_advance hadvance
    · rw [List.getElem?_set_ne hji] at hnow
      exact absurd hnow hbefore
  | flag hc => exact absurd hnow hbefore
  | notify hc =>
    rw [List.getElem?_map, Option.map_eq_some_iff] at hnow
    obtain ⟨w, hw, hnotified⟩ := hnow
    rw [Waiting.notify_eq_returned.mp hnotified] at hw
    exact absurd hw hbefore

/-- If the flag is set and nobody is about to notify, then all who found it unset have been woken. -/
def Awake (s : StopSignal) : Prop :=
  s.requested = true → .flagged ∉ s.cancels → ∀ w ∈ s.waits, w.isUnwoken = false

/-- At the start the flag is not set. -/
theorem awake_create : create.Awake := by
  intro hflag
  cases hflag

/-- Every step leaves all awake who have to be. -/
theorem awake_transition {s s' : StopSignal} {e : Step} (h : s.Transition e s') (hs : s.Awake) :
    s'.Awake := by
  intro hflag hnone
  cases h with
  | enterWait =>
    intro w hw
    rcases List.mem_append.mp hw with hw | hw
    · exact hs hflag hnone w hw
    · rw [List.mem_singleton.mp hw]
      rfl
  | enterCancel => exact hs hflag fun hmem => hnone (List.mem_append_left _ hmem)
  | @wait i w w' hw hadvance =>
    intro v hv
    rcases List.mem_or_eq_of_mem_set hv with hv | rfl
    · exact hs hflag hnone v hv
    · -- Had it found the flag unset just now, the flag would be unset.
      by_contra hunwoken
      rcases Waiting.isUnwoken_of_advance hadvance (by simpa using hunwoken) with hbefore | hunset
      · rw [hs hflag hnone w (List.mem_of_getElem? hw)] at hbefore
        cases hbefore
      · rw [hunset] at hflag
        cases hflag
  | flag hc => exact absurd (List.mem_set (List.getElem?_eq_some_iff.mp hc).1 _) hnone
  | notify hc =>
    intro w hw
    obtain ⟨v, -, rfl⟩ := List.mem_map.mp hw
    exact v.isUnwoken_notify

/-! ## Waking up -/

/-- How many steps of its own one that is awake needs to return, once the flag is set. -/
def Waiting.stepsLeft : Waiting → Nat
  | .looked _ => 4
  | .parked _ => 3
  | .entering => 2
  | .registered _ => 1
  | .returned => 0

/-- Once the flag is set, one that is awake goes on with each step of its own. -/
theorem Waiting.exists_advance {w : Waiting} (hw : w.isUnwoken = false) (hne : w ≠ .returned) :
    ∃ w', w.advance true = some w' ∧ w'.isUnwoken = false ∧ w'.stepsLeft + 1 = w.stepsLeft := by
  cases w with
  | entering => exact ⟨_, rfl, rfl, rfl⟩
  | registered notified => exact ⟨_, rfl, rfl, rfl⟩
  | looked notified =>
    cases notified with
    | true => exact ⟨_, rfl, rfl, rfl⟩
    | false => cases hw
  | parked notified =>
    cases notified with
    | true => exact ⟨_, rfl, rfl, rfl⟩
    | false => cases hw
  | returned => exact absurd rfl hne

/-- A step of others leaves one that is awake where it is. -/
theorem getElem?_transition {s s' : StopSignal} {e : Step} (h : s.Transition e s') {i : Nat}
    {w : Waiting} (hw : s.waits[i]? = some w) (hawake : w.isUnwoken = false)
    (he : e ≠ .advanceWait i) :
    ∃ w', s'.waits[i]? = some w' ∧ w'.isUnwoken = false ∧ w'.stepsLeft = w.stepsLeft := by
  cases h with
  | enterWait =>
    refine ⟨w, ?_, hawake, rfl⟩
    rw [List.getElem?_append_left (List.getElem?_eq_some_iff.mp hw).1]
    exact hw
  | enterCancel => exact ⟨w, hw, hawake, rfl⟩
  | @wait j v v' hv hadvance =>
    have hne : j ≠ i := fun hji => he (by rw [hji])
    refine ⟨w, ?_, hawake, rfl⟩
    rw [List.getElem?_set_ne hne]
    exact hw
  | flag hc => exact ⟨w, hw, hawake, rfl⟩
  | notify hc =>
    refine ⟨w.notify, ?_, w.isUnwoken_notify, ?_⟩
    · rw [List.getElem?_map, hw]
      rfl
    · cases w <;> rfl

/-- Once the flag is set, one that is awake has returned as soon as it has had its steps, whatever
steps others take between them. -/
theorem hasReturned_run {s : StopSignal} (hflag : s.requested = true) {i : Nat} {w : Waiting}
    (hw : s.waits[i]? = some w) (hawake : w.isUnwoken = false) (steps : List Step)
    (henough : w.stepsLeft ≤ steps.count (.advanceWait i)) : (s.run steps).hasReturned i := by
  induction steps generalizing s w with
  | nil =>
    have hreturned : w = .returned := by
      cases w <;> simp [Waiting.stepsLeft] at henough
      rfl
    rw [hreturned] at hw
    simp [run, hasReturned, hw]
  | cons e steps ih =>
    rw [run]
    by_cases he : e = .advanceWait i
    · subst he
      rw [List.count_cons_self] at henough
      by_cases hreturned : w = .returned
      · -- It has returned before and takes no more steps.
        have hstay : s.step (.advanceWait i) = none := by
          simp [step, hw, hreturned, Waiting.advance]
        rw [hstay]
        exact ih hflag hw hawake (by rw [hreturned]; exact Nat.zero_le _)
      · obtain ⟨w', hadvance, hawake', hleft⟩ := Waiting.exists_advance hawake hreturned
        have hnext : s.step (.advanceWait i) = some { s with waits := s.waits.set i w' } := by
          simp [step, hw, hflag, hadvance]
        rw [hnext]
        refine ih hflag ?_ hawake' (by omega)
        exact List.getElem?_set_self (List.getElem?_eq_some_iff.mp hw).1
    · rw [List.count_cons_of_ne (fun heq => he heq)] at henough
      cases hnext : s.step e with
      | none => exact ih hflag hw hawake henough
      | some s' =>
        have htransition := transition_of_step hnext
        obtain ⟨w', hw', hawake', hleft⟩ := getElem?_transition htransition hw hawake he
        exact ih (requested_transition htransition hflag) hw' hawake' (by omega)

/-- However many wait and cancel, and in whatever order their steps come: if the flag is set and
nobody is between setting it and notifying, then nobody sleeps without a wake-up, or is about to.
Whoever waits then returns within four steps of its own, whatever the others do between them. A wait
returns only when the flag is set, and the flag stays set. -/
theorem no_lost_wakeup (steps : List Step) :
    let s := create.run steps
    (s.requested = true → .flagged ∉ s.cancels →
      (.parked false ∉ s.waits ∧ .looked false ∉ s.waits) ∧
      ∀ i, i < s.waits.length → ∀ more, 4 ≤ more.count (.advanceWait i) →
        (s.run more).hasReturned i = true) ∧
    (∀ e s' i, s.step e = some s' → s'.hasReturned i = true → s.hasReturned i = false →
      s.requested = true) ∧
    ∀ more, s.requested = true → (s.run more).requested = true := by
  intro s
  have hawake : s.Awake := run_invariant awake_transition steps awake_create
  refine ⟨fun hflag hnone => ⟨⟨fun hmem => ?_, fun hmem => ?_⟩, fun i hi more hmore => ?_⟩,
    fun e s' i hstep hnow hbefore => ?_, fun more hflag => ?_⟩
  · cases hawake hflag hnone _ hmem
  · cases hawake hflag hnone _ hmem
  · have hwoken := hawake hflag hnone s.waits[i] (List.getElem_mem hi)
    refine hasReturned_run hflag (List.getElem?_eq_getElem hi) hwoken more (Nat.le_trans ?_ hmore)
    cases s.waits[i] <;> simp [Waiting.stepsLeft]
  · exact requested_of_returning (transition_of_step hstep) hnow hbefore
  · exact run_invariant (fun h hs => requested_transition h hs) more hflag

/-- One that waits finds the flag unset, is overtaken by a cancellation, and goes to sleep between
its two steps. -/
theorem no_lost_wakeup_overtaken :
    let overtaken : List Step :=
      [.enterWait, .advanceWait 0, .advanceWait 0, .enterCancel, .advanceCancel 0, .advanceWait 0]
    let steps : List Step := overtaken ++ [.advanceCancel 0]
    let s := create.run steps
    create.run overtaken = ⟨true, [.parked false], [.flagged]⟩ ∧
    s = ⟨true, [.parked true], [.returned]⟩ ∧ s.requested = true ∧ .flagged ∉ s.cancels ∧
    .parked false ∉ s.waits ∧ (s.poll 0).hasReturned 0 = true ∧ (s.poll 0).requested = true := by
  intro overtaken steps s
  obtain ⟨hwoken, -, hstays⟩ := no_lost_wakeup steps
  have hflag : s.requested = true := rfl
  have hnone : .flagged ∉ s.cancels := by decide
  obtain ⟨⟨hparked, -⟩, hreturns⟩ := hwoken hflag hnone
  exact ⟨rfl, rfl, hflag, hnone, hparked, hreturns 0 (by decide) _ (by decide), hstays _ hflag⟩

end SpeechRelay.StopSignal
