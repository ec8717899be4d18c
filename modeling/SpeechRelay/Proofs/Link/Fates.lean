import Mathlib.Data.List.Basic
import SpeechRelay.Proofs.Link.Transition

/-!
# What becomes of the transcripts

A transcript that the queue has accepted leaves it in the end: it is written to a session, it is
lost because writing it fails, or it is counted when the client stops. `Client.departures` lists
the transcripts that left during a run, in the order in which they left, and how. What has been
accepted is then, in order, what has left and what the client still holds.

The account of one step is a `Balance`. Balances add up, so that there is one for every run
(`balance_run`).
-/

set_option autoImplicit false

namespace SpeechRelay.Link

/-- How many transcripts the client has counted as not delivered. -/
def Phase.counted : Phase → Nat
  | .discarding count => count
  | _ => 0

namespace Client

/-- How a transcript leaves. -/
inductive Fate where
  | written
  /-- It was taken from the queue, and writing it failed. -/
  | lost
  | counted
  deriving DecidableEq

/-- The transcripts that the client holds, the oldest first. -/
def held (c : Client) : List Transcript := c.phase.inHand.toList ++ c.queue.waiting

/-- The transcript that a step brings, if the queue accepts it. -/
def arriving (c : Client) : Step → List Transcript
  | .emit t =>
    match (c.queue.emit t).1 with
    | .ok () => [t]
    | .error _ => []
  | _ => []

/-- The transcript that leaves with a step. -/
def departing (c : Client) : Step → List (Transcript × Fate)
  | .written => c.phase.inHand.toList.map (·, .written)
  | .writeFailed _ => c.phase.inHand.toList.map (·, .lost)
  | .discard => c.queue.waiting.head?.toList.map (·, .counted)
  | _ => []

/-- What is collected from the clients and the steps of a run. -/
def along {α : Type} (s : Setup) (f : Client → Step → List α) (c : Client) : List Step → List α
  | [] => []
  | e :: es =>
    match c.step s e with
    | none => []
    | some (next, _) => f c e ++ next.along s f es

/-- The transcripts that the queue accepts during a run. -/
def accepted (s : Setup) (c : Client) (es : List Step) : List Transcript := c.along s arriving es

/-- The transcripts that leave during a run, with their fates. -/
def departures (s : Setup) (c : Client) (es : List Step) : List (Transcript × Fate) :=
  c.along s departing es

/-- The transcripts that have left with one fate. -/
def withFate (fate : Fate) (left : List (Transcript × Fate)) : List Transcript :=
  (left.filter (·.2 = fate)).map Prod.fst

/-- The transcripts whose writing came to an end, well or not. -/
def attempted (left : List (Transcript × Fate)) : List Transcript :=
  (left.filter (·.2 ≠ .counted)).map Prod.fst

/-- The transcripts that others see written. -/
def written (seen : List Action) : List Transcript :=
  seen.filterMap fun
    | .wrote t _ => some t
    | _ => none

/-- How many transcripts are noted as not delivered. -/
def undelivered : List Action → Nat
  | [] => 0
  | .note (.undelivered count) :: seen => count + undelivered seen
  | _ :: seen => undelivered seen

section Collecting

variable {s : Setup} {c next : Client} {e : Step} {now : List Action}

/-- What is collected along a run is that of its first step, and then that of the others. -/
theorem along_cons {α : Type} (f : Client → Step → List α) (h : c.step s e = some (next, now))
    (es : List Step) : c.along s f (e :: es) = f c e ++ next.along s f es := by
  rw [along, h]

/-- What is collected along a run in two parts is collected part by part. -/
theorem along_append {α : Type} (f : Client → Step → List α) {mid : Client} {es : List Step}
    {seen : List Action} (h : c.run s es = some (mid, seen)) (es' : List Step) :
    c.along s f (es ++ es') = c.along s f es ++ mid.along s f es' := by
  induction es generalizing c seen with
  | nil =>
    cases h
    rfl
  | cons e es ih =>
    obtain ⟨next, first, rest, hnext, hrun, -⟩ := Stepwise.run_cons_eq_some.mp h
    rw [List.cons_append, along_cons f hnext, along_cons f hnext, ih hrun, List.append_assoc]

/-- What left with one fate in two stretches is put together. -/
theorem withFate_append (fate : Fate) (left more : List (Transcript × Fate)) :
    withFate fate (left ++ more) = withFate fate left ++ withFate fate more := by
  rw [withFate, List.filter_append, List.map_append]
  rfl

/-- The attempted transcripts are among those that have left, in the same order. -/
theorem attempted_sublist (left : List (Transcript × Fate)) :
    (attempted left).Sublist (left.map Prod.fst) :=
  List.filter_sublist.map Prod.fst

/-- The written transcripts are among the attempted ones, in the same order. -/
theorem withFate_written_sublist (left : List (Transcript × Fate)) :
    (withFate .written left).Sublist (attempted left) := by
  apply List.Sublist.map
  apply List.monotone_filter_right
  intro departure h
  simp_all

/-- Every transcript that has left has one of the three fates. -/
theorem perm_withFate (left : List (Transcript × Fate)) :
    (left.map Prod.fst).Perm
      (withFate .written left ++ withFate .lost left ++ withFate .counted left) := by
  induction left with
  | nil => exact List.Perm.nil
  | cons first left ih =>
    obtain ⟨t, fate⟩ := first
    have h := ih.cons t
    cases fate with
    | written => simpa [withFate] using h
    | lost =>
      refine h.trans ?_
      -- It moves behind those that were written.
      simp only [withFate, List.filter_cons, reduceCtorEq, decide_false, decide_true, if_true,
        List.map_cons, List.append_assoc, List.cons_append]
      exact List.perm_middle.symm
    | counted =>
      refine h.trans ?_
      simp only [withFate, List.filter_cons, reduceCtorEq, decide_false, decide_true, if_true,
        List.map_cons]
      exact List.perm_middle.symm

/-- What is written in two stretches is put together. -/
theorem written_append (seen more : List Action) :
    written (seen ++ more) = written seen ++ written more := List.filterMap_append

/-- What is noted as not delivered in two stretches adds up. -/
theorem undelivered_append (seen more : List Action) :
    undelivered (seen ++ more) = undelivered seen + undelivered more := by
  fun_induction undelivered seen with
  | case1 => simp
  | case2 seen count ih => simp [undelivered, ih, Nat.add_assoc]
  | case3 a seen hother ih =>
    rw [List.cons_append, undelivered, ih]
    exact hother

end Collecting

/-! ## Balances -/

/-- What a step or a run does to the transcripts, where some arrive, some leave, and others see
something of it. -/
structure Balance (c c' : Client) (arrived : List Transcript) (left : List (Transcript × Fate))
    (seen : List Action) : Prop where
  kept : c.held ++ arrived = left.map Prod.fst ++ c'.held
  written : Client.written seen = withFate .written left
  counted : c.phase.counted + (withFate .counted left).length =
    undelivered seen + c'.phase.counted

namespace Balance

variable {s : Setup} {c c' c'' : Client} {arrived more : List Transcript}
  {left rest : List (Transcript × Fate)} {seen later : List Action}

/-- Where nothing happens, the books balance. -/
theorem refl (c : Client) : Balance c c [] [] [] :=
  ⟨List.append_nil _, rfl, (Nat.zero_add _).symm⟩

/-- Two balanced stretches are balanced together. -/
theorem trans (h : Balance c c' arrived left seen) (h' : Balance c' c'' more rest later) :
    Balance c c'' (arrived ++ more) (left ++ rest) (seen ++ later) := by
  refine ⟨?_, ?_, ?_⟩
  · rw [← List.append_assoc, h.kept, List.append_assoc, h'.kept, List.map_append,
      List.append_assoc]
  · rw [written_append, h.written, h'.written, withFate_append]
  · have hfirst := h.counted
    have hsecond := h'.counted
    rw [withFate_append, List.length_append, undelivered_append]
    omega

end Balance

section Balanced

variable {s : Setup} {c c' : Client} {e : Step} {seen : List Action}

/-- Every step is balanced: what is held and what arrives either leaves or is still held. -/
theorem balance_transition (h : Transition s c e c' seen) :
    Balance c c' (c.arriving e) (c.departing e) seen := by
  cases h with
  | emit t =>
    refine ⟨?_, rfl, ?_⟩
    · cases hreceiving : c.queue.receiving <;>
        simp [held, arriving, departing, TranscriptQueue.emit, hreceiving]
    · simp [departing, withFate, undelivered]
  | receivedText q stop text =>
    have hseen : Client.written (onText s text) = [] ∧ undelivered (onText s text) = 0 := by
      unfold onText
      split <;> exact ⟨rfl, rfl⟩
    refine ⟨List.append_nil _, hseen.1, ?_⟩
    rw [hseen.2]
    rfl
  | halt count q stop h =>
    refine ⟨?_, ?_, ?_⟩
    · simp [held, arriving, departing, h, Phase.inHand, TranscriptQueue.dropReceiver]
    · by_cases hcount : count = 0 <;> simp [Client.written, departing, h, hcount, withFate]
    · by_cases hcount : count = 0 <;>
        simp [undelivered, departing, h, hcount, withFate, Phase.counted]
  | writeFailed p q stop why h =>
    refine ⟨?_, ?_, ?_⟩
    · simp [held, arriving, departing, Phase.inHand, Function.comp_def]
    · cases p <;> rfl
    · cases p <;> simp_all [departing, withFate, undelivered, Phase.counted, Phase.isWriting]
  | discard count q stop t ts h =>
    refine ⟨?_, ?_, ?_⟩
    · simp [held, arriving, departing, h, Phase.inHand]
    · simp [Client.written, departing, h, withFate]
    · simp [undelivered, departing, h, withFate, Phase.counted]
  | _ =>
    constructor <;> simp_all [held, arriving, departing, withFate, undelivered, Client.written,
      Phase.inHand, Phase.counted, TranscriptQueue.dropSenders]

/-- There is a balance for every run. -/
theorem balance_run {es : List Step} (h : c.run s es = some (c', seen)) :
    Balance c c' (c.accepted s es) (c.departures s es) seen := by
  induction es generalizing c seen with
  | nil =>
    cases h
    exact Balance.refl _
  | cons e es ih =>
    obtain ⟨next, now, later, hstep, hrun, rfl⟩ := Stepwise.run_cons_eq_some.mp h
    rw [accepted, departures, along_cons _ hstep, along_cons _ hstep]
    exact (balance_transition (transition_of_step hstep)).trans (ih hrun)

end Balanced

end Client

end SpeechRelay.Link
