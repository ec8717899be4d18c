import SpeechRelay.Intake
import SpeechRelay.Proofs.Feeder.Utterances
import SpeechRelay.Proofs.Link.Drain

/-!
# From the feeder to the client

The outlet of the feeder is the queue of the client. Each of the two is a task of its own, and both
hear of the stop signal by themselves: the client goes on as it can, while the feeder may be between
two rounds or in the middle of one. Having seen the signal, the feeder flushes its recognizer and
gives up its end of the queue. `Handover.step` is one move of one of them; between any two moves
an effect of the intake may change the pipeline of the feeder.

The feeder touches the queue only where it offers a transcript and where it gives up its end. A run
of both is therefore a run of the client, in which the queue accepts what the feeder has offered
with success (`mirrored_run`).
-/

set_option autoImplicit false

namespace SpeechRelay

open Audio Feeder

namespace Handover

/-- Where the task of the feeder is. -/
inductive Task where
  /-- Between two rounds. -/
  | looping
  /-- In a round, with a verdict on the frame. -/
  | judging (frame : MonoFrame) (v : Verdict)
  /-- Has seen the stop signal. -/
  | leaving
  /-- Has flushed the recognizer and emitted that transcript, if there was one. -/
  | flushed (last : Option Transcript)
  /-- A limit of the machine has ended it. -/
  | halted
  /-- Has given up its end of the queue. -/
  | gone (last : Option Transcript)

namespace Task

/-- The transcript emitted by the flush. -/
def last? : Task → Option Transcript
  | .flushed last => last
  | .gone last => last
  | _ => none

/-- Whether the feeder has given up its end of the queue. -/
def isGone : Task → Bool
  | .gone _ => true
  | _ => false

end Task

/-- What does not change: the feeder works for the queue. -/
structure Setup (σ ω : Type) where
  link : Link.Setup
  feeder : Feeder.Setup σ TranscriptQueue ω
  queued : feeder.outlet = TranscriptQueue.outlet

/-- A move of the client, of the intake, or of the feeder. -/
inductive Move where
  | link (e : Link.Step)
  | settle (effect : Intake.Effect)
  /-- The feeder starts a round and hears what the recognizer makes of the frame. -/
  | listen
  /-- The feeder ends a round. -/
  | conclude (r : Reading)
  /-- The feeder sees that it is to stop. -/
  | leave
  | flush (r : Reading)
  | drop

end Handover

/-- The client and the task of the feeder. The queue is the client's. -/
structure Handover (σ ω : Type) where
  client : Link.Client
  feeder : Watched σ TranscriptQueue ω
  task : Handover.Task

namespace Handover

variable {σ ω : Type}

/-- Both before their first move. -/
def start (f : Feeder σ TranscriptQueue ω) : Handover σ ω := ⟨.create, f.watched, .looping⟩

/-- The feeder with the queue as its outlet. -/
def supplier (h : Handover σ ω) : Watched σ TranscriptQueue ω :=
  { h.feeder with outlet := (h.client.queue, h.feeder.outlet.2) }

/-- The feeder has moved on and left the queue as its outlet is now. -/
def resume (h : Handover σ ω) (g : Watched σ TranscriptQueue ω) (task : Task) : Handover σ ω :=
  ⟨{ h.client with queue := g.outlet.1 }, g, task⟩

/-- Steps that are left to the feeder. -/
def isFeeding : Link.Step → Bool
  | .emit _ => true
  | .closeQueue => true
  | _ => false

/-- A move of the feeder. -/
def stepFeeder (s : Setup σ ω) (h : Handover σ ω) : Move → Option (Handover σ ω)
  | .listen =>
    match h.task with
    | .looping =>
      match Feeder.listen s.feeder.watched h.supplier with
      | (.ok (frame, v), g) => some (h.resume g (.judging frame v))
      | (.error _, g) => some (h.resume g .halted)
    | _ => none
  | .conclude r =>
    match h.task with
    | .judging frame v =>
      match Feeder.conclude s.feeder.watched r frame v h.supplier with
      | (.ok _, g) => some (h.resume g .looping)
      | (.error _, g) => some (h.resume g .halted)
    | _ => none
  | .leave =>
    match h.task with
    | .looping => if h.client.stopRequested then some { h with task := .leaving } else none
    | _ => none
  | .flush r =>
    match h.task with
    | .leaving =>
      match Feeder.finish s.feeder.watched r h.supplier with
      | (.ok last, g) => some (h.resume g (.flushed last))
      | (.error _, g) => some (h.resume g .halted)
    | _ => none
  | .drop =>
    match h.task with
    | .flushed last =>
      some { h with
        client := { h.client with queue := h.client.queue.dropSenders }, task := .gone last }
    | .halted =>
      some { h with
        client := { h.client with queue := h.client.queue.dropSenders }, task := .gone none }
    | _ => none
  | _ => none

/-- Both after a move and what others see of the client, if the move can be made. -/
def step (s : Setup σ ω) (h : Handover σ ω) : Move → Option (Handover σ ω × List Link.Action)
  | .link e =>
    if isFeeding e then none
    else (h.client.step s.link e).map fun (client, seen) => ({ h with client }, seen)
  | .settle effect =>
    match effect.run h.feeder.pipeline with
    | .ok pipeline => some ({ h with feeder := { h.feeder with pipeline } }, [])
    | .error _ => none
  | m => (h.stepFeeder s m).map (·, [])

/-- Both after moves and what others see of them, if all can be made. -/
def run (s : Setup σ ω) (h : Handover σ ω) (ms : List Move) :
    Option (Handover σ ω × List Link.Action) :=
  Stepwise.run (step s) h ms

/-- The transcripts that the queue has accepted from the feeder so far. -/
def accepted (h : Handover σ ω) : List Transcript := Feeder.accepted h.feeder.outlet.2

/-! ## The feeder seen from the client -/

/-- The client and the stop signal leave the ends of the queue to the feeder. -/
theorem senders_transition {s : Link.Setup} {c c' : Link.Client} {e : Link.Step}
    {seen : List Link.Action} (h : c.Transition s e c' seen) (he : isFeeding e = false) :
    c'.queue.senders = c.queue.senders := by
  cases h with
  | emit => cases he
  | closeQueue => cases he
  | _ => rfl

/-- The feeder has an end of the queue as long as it is not gone. -/
def Holding (h : Handover σ ω) : Prop := h.client.queue.senders = 0 ↔ h.task.isGone

/-- What moves `ms` do is what steps `es` of the client do, where `new` is what the feeder has
offered on the way. -/
structure Mirrors (s : Setup σ ω) (h h' : Handover σ ω) (ms : List Move) (seen : List Link.Action)
    (es : List Link.Step) (new : List Offer) : Prop where
  client : h.client.run s.link es = some (h'.client, seen)
  offers : h'.feeder.outlet.2 = h.feeder.outlet.2 ++ new
  accepted : h.client.accepted s.link es = Feeder.accepted new
  own : ∀ e, isFeeding e = false → (e ∈ es ↔ Move.link e ∈ ms)
  holding : h'.Holding
  last : ∀ t, h'.task.last? = some t → h.task.last? = some t ∨ t ∈ Feeder.accepted new

section Mirrors

variable {s : Setup σ ω} {h h' h'' : Handover σ ω}

/-- What is accepted of offers in a row comes in their order. -/
theorem accepted_append (offers more : List Offer) :
    Feeder.accepted (offers ++ more) = Feeder.accepted offers ++ Feeder.accepted more :=
  List.filterMap_append

/-- Moves that are mirrored one after the other are mirrored together. -/
theorem Mirrors.trans {ms more : List Move} {seen later : List Link.Action}
    {es rest : List Link.Step} {new newer : List Offer} (hfirst : Mirrors s h h' ms seen es new)
    (hsecond : Mirrors s h' h'' more later rest newer) :
    Mirrors s h h'' (ms ++ more) (seen ++ later) (es ++ rest) (new ++ newer) := by
  refine ⟨?_, ?_, ?_, ?_, hsecond.holding, ?_⟩
  · exact Stepwise.run_append_eq_some.mpr ⟨_, _, _, hfirst.client, hsecond.client, rfl⟩
  · rw [hsecond.offers, hfirst.offers, List.append_assoc]
  · rw [Link.Client.accepted, Link.Client.along_append _ hfirst.client, accepted_append]
    exact congrArg₂ (· ++ ·) hfirst.accepted hsecond.accepted
  · intro e he
    rw [List.mem_append, List.mem_append, hfirst.own e he, hsecond.own e he]
  · intro t ht
    rw [accepted_append]
    rcases hsecond.last t ht with hbefore | hnew
    · exact (hfirst.last t hbefore).imp_right (List.mem_append_left _)
    · exact Or.inr (List.mem_append_right _ hnew)

/-- A move that leaves the queue alone is no step of the client. -/
theorem mirrors_still {m : Move} (hm : ∀ e, m ≠ .link e) (hh : h.Holding)
    (hclient : h'.client = h.client) (hoffers : h'.feeder.outlet.2 = h.feeder.outlet.2)
    (hgone : h'.task.isGone = h.task.isGone)
    (hlast : ∀ t, h'.task.last? = some t → h.task.last? = some t) :
    Mirrors s h h' [m] [] [] [] := by
  refine ⟨?_, ?_, rfl, fun e _ => ?_, ?_, fun t ht => Or.inl (hlast t ht)⟩
  · rw [hclient]
    rfl
  · rw [hoffers, List.append_nil]
  · have hne := hm e
    simp [hne.symm]
  · rw [Holding, hclient, hgone]
    exact hh

/-- A move of the feeder that offers a transcript is the step by which the client gets it. -/
theorem mirrors_offer {m : Move} {g : Watched σ TranscriptQueue ω} {task : Task}
    (hm : ∀ e, m ≠ .link e) (hh : h.Holding) (hgone : h.task.isGone = false)
    (houtlet : OffersOnce s.feeder.watched.outlet h.supplier.outlet g.outlet)
    (htask : task.isGone = false)
    (hlast : ∀ new, g.outlet.2 = h.feeder.outlet.2 ++ new →
      ∀ t, task.last? = some t → t ∈ Feeder.accepted new) :
    ∃ es new, Mirrors s h (h.resume g task) [m] [] es new := by
  have hends : h.client.queue.senders = 0 ↔ h.task.isGone := hh
  rcases houtlet with hsame | ⟨t, hoffer⟩
  · -- Nothing is offered, and the client takes no step.
    have hqueue : g.outlet.1 = h.client.queue := congrArg Prod.fst hsame
    have hoffers : g.outlet.2 = h.feeder.outlet.2 := by rw [hsame]; rfl
    refine ⟨[], [], mirrors_still hm hh ?_ hoffers (htask.trans hgone.symm) fun t ht => ?_⟩
    · rw [resume, hqueue]
    · have hmem := hlast [] (by rw [hoffers, List.append_nil]) t ht
      cases hmem
  · have hqueue : g.outlet.1 = (h.client.queue.emit t).2 := by
      rw [hoffer]
      exact congrArg (fun o => (Outlet.emit o t h.client.queue).2) s.queued
    have hoffers : g.outlet.2 = h.feeder.outlet.2 ++ [⟨t, (h.client.queue.emit t).1⟩] := by
      rw [hoffer]
      exact congrArg (fun o : Outlet TranscriptQueue =>
        h.feeder.outlet.2 ++ [Offer.mk t (o.emit t h.client.queue).1]) s.queued
    have hopen : h.client.queue.senders ≠ 0 := fun hnone => by
      rw [hends.mp hnone] at hgone
      cases hgone
    have hstep : h.client.step s.link (.emit t) =
        some ({ h.client with queue := (h.client.queue.emit t).2 }, []) := by
      simp [Link.Client.step, Link.Client.stepAround, hopen]
    refine ⟨[.emit t], _, ⟨?_, hoffers, ?_, fun e he => ?_, ?_, fun t ht =>
      Or.inr (hlast _ hoffers t ht)⟩⟩
    · rw [resume, hqueue]
      exact Stepwise.run_singleton hstep
    · rw [Link.Client.accepted, Link.Client.along_cons _ hstep]
      show Link.Client.arriving h.client (.emit t) ++ [] = _
      rw [List.append_nil, Link.Client.arriving, Feeder.accepted]
      cases (h.client.queue.emit t).1 <;> rfl
    · have hne := hm e
      have hemit : e ≠ .emit t := fun heq => by
        rw [heq] at he
        cases he
      simp [hne.symm, hemit]
    · show g.outlet.1.senders = 0 ↔ task.isGone
      have hsenders : (h.client.queue.emit t).2.senders = h.client.queue.senders := by
        unfold TranscriptQueue.emit
        split <;> rfl
      rw [hqueue, hsenders, hends, hgone, htask]

/-- Giving up the end of the queue is the step by which the queue is closed. -/
theorem mirrors_drop {last : Option Transcript}
    (hlast : ∀ t, last = some t → h.task.last? = some t) :
    Mirrors s h
      { h with client := { h.client with queue := h.client.queue.dropSenders }, task := .gone last }
      [.drop] [] [.closeQueue] [] := by
  refine ⟨rfl, (List.append_nil _).symm, rfl, fun e he => ?_, ?_, fun t ht => Or.inl (hlast t ht)⟩
  · have hclose : e ≠ .closeQueue := fun heq => by
      rw [heq] at he
      cases he
    simp [hclose]
  · exact ⟨fun _ => rfl, fun _ => rfl⟩

/-- A step of the client mirrors itself. -/
theorem mirrors_link {e : Link.Step} {c : Link.Client} {seen : List Link.Action} (hh : h.Holding)
    (he : isFeeding e = false) (hstep : h.client.step s.link e = some (c, seen)) :
    Mirrors s h { h with client := c } [.link e] seen [e] [] := by
  refine ⟨?_, (List.append_nil _).symm, ?_, fun e' _ => by simp, ?_, fun t ht => Or.inl ht⟩
  · exact Stepwise.run_singleton hstep
  · rw [Link.Client.accepted, Link.Client.along_cons _ hstep]
    cases e with
    | emit t => cases he
    | _ => rfl
  · have hsenders : c.queue.senders = h.client.queue.senders :=
      senders_transition (Link.Client.transition_of_step hstep) he
    show c.queue.senders = 0 ↔ _
    rw [hsenders]
    exact hh

/-! ## One move after the other -/

/-- Starting a round is mirrored, by no step of the client. -/
theorem mirrored_listen (hh : h.Holding) (hstep : h.stepFeeder s .listen = some h') :
    ∃ es new, Mirrors s h h' [.listen] [] es new := by
  unfold stepFeeder at hstep
  dsimp only at hstep
  split at hstep
  case h_1 htask =>
    have houtlet := ((touches_listen s.feeder.watched h.supplier).outlet (by simp)).1
    generalize listen s.feeder.watched h.supplier = listened at hstep houtlet
    obtain ⟨verdict, g⟩ := listened
    have hqueue : g.outlet.1 = h.client.queue := congrArg Prod.fst houtlet
    have hoffers : g.outlet.2 = h.feeder.outlet.2 := (congrArg Prod.snd houtlet).trans rfl
    have hstill (task : Task) (hgone : task.isGone = false) (hlast : task.last? = none) :
        Mirrors s h (h.resume g task) [.listen] [] [] [] := by
      refine mirrors_still (fun e he => by cases he) hh ?_ hoffers ?_ fun t ht => ?_
      · rw [resume, hqueue]
      · rw [htask]
        exact hgone
      · have hnone : task.last? = some t := ht
        rw [hlast] at hnone
        cases hnone
    cases verdict with
    | error halt =>
      cases hstep
      exact ⟨[], [], hstill .halted rfl rfl⟩
    | ok heard =>
      cases hstep
      exact ⟨[], [], hstill _ rfl rfl⟩
  case h_2 => cases hstep

/-- Ending a round is mirrored by the transcript that it emits, if there is one. -/
theorem mirrored_conclude {r : Reading} (hh : h.Holding)
    (hstep : h.stepFeeder s (.conclude r) = some h') :
    ∃ es new, Mirrors s h h' [.conclude r] [] es new := by
  unfold stepFeeder at hstep
  dsimp only at hstep
  split at hstep
  case h_1 frame v htask =>
    have hgone : h.task.isGone = false := by rw [htask]; rfl
    have houtlet := offersOnce_conclude s.feeder.watched r h.supplier frame v
    generalize conclude s.feeder.watched r frame v h.supplier = concluded at hstep houtlet
    obtain ⟨outcome, g⟩ := concluded
    have hm : ∀ e, Move.conclude r ≠ .link e := fun e he => by cases he
    cases outcome with
    | error halt =>
      cases hstep
      exact mirrors_offer hm hh hgone houtlet rfl fun new _ t ht => by cases ht
    | ok o =>
      cases hstep
      exact mirrors_offer hm hh hgone houtlet rfl fun new _ t ht => by cases ht
  case h_2 => cases hstep

/-- Seeing that it is to stop is mirrored by no step. -/
theorem mirrored_leave (hh : h.Holding) (hstep : h.stepFeeder s .leave = some h') :
    ∃ es new, Mirrors s h h' [.leave] [] es new := by
  unfold stepFeeder at hstep
  dsimp only at hstep
  split at hstep
  case h_1 htask =>
    split at hstep
    · cases hstep
      refine ⟨[], [], mirrors_still (fun e he => by cases he) hh rfl rfl ?_ fun t ht => by cases ht⟩
      rw [htask]
      rfl
    · cases hstep
  case h_2 => cases hstep

/-- What the flush says it has emitted is what the queue has accepted. -/
theorem mirrored_flush {r : Reading} (hh : h.Holding)
    (hstep : h.stepFeeder s (.flush r) = some h') :
    ∃ es new, Mirrors s h h' [.flush r] [] es new := by
  unfold stepFeeder at hstep
  dsimp only at hstep
  split at hstep
  case h_1 htask =>
    have hgone : h.task.isGone = false := by rw [htask]; rfl
    have houtlet := offersOnce_finish s.feeder.watched r h.supplier
    obtain ⟨exchanges, offers, hadds, hexact⟩ := exact_finish s.feeder r h.supplier
    have hemitted := hexact.emitted
    have hoffers := hadds.offers
    generalize finish s.feeder.watched r h.supplier = finished at hstep houtlet hemitted hoffers
    obtain ⟨result, g⟩ := finished
    have hm : ∀ e, Move.flush r ≠ .link e := fun e he => by cases he
    cases result with
    | error halt =>
      cases hstep
      exact mirrors_offer hm hh hgone houtlet rfl fun new _ t ht => by cases ht
    | ok last =>
      cases hstep
      refine mirrors_offer hm hh hgone houtlet rfl fun new hnew t ht => ?_
      have hsame : offers = new := List.append_cancel_left (hoffers.symm.trans hnew)
      have hlast : last = some t := ht
      have haccepted := hemitted last rfl
      rw [← hsame, ← haccepted, hlast]
      exact List.mem_singleton_self t
  case h_2 => cases hstep

/-- Giving up the end of the queue is mirrored by closing the queue. -/
theorem mirrored_drop (hstep : h.stepFeeder s .drop = some h') :
    ∃ es new, Mirrors s h h' [.drop] [] es new := by
  unfold stepFeeder at hstep
  dsimp only at hstep
  split at hstep
  case h_1 last htask =>
    cases hstep
    refine ⟨_, _, mirrors_drop fun t ht => ?_⟩
    rw [htask]
    exact ht
  case h_2 htask =>
    cases hstep
    exact ⟨_, _, mirrors_drop fun t ht => by cases ht⟩
  case h_3 => cases hstep

/-- Every move of the feeder is mirrored. -/
theorem mirrored_stepFeeder {m : Move} (hh : h.Holding) (hstep : h.stepFeeder s m = some h') :
    ∃ es new, Mirrors s h h' [m] [] es new := by
  cases m with
  | link e => cases hstep
  | settle effect => cases hstep
  | listen => exact mirrored_listen hh hstep
  | conclude r => exact mirrored_conclude hh hstep
  | leave => exact mirrored_leave hh hstep
  | flush r => exact mirrored_flush hh hstep
  | drop => exact mirrored_drop hstep

/-- Every move is mirrored. -/
theorem mirrored_step {m : Move} {seen : List Link.Action} (hh : h.Holding)
    (hstep : h.step s m = some (h', seen)) : ∃ es new, Mirrors s h h' [m] seen es new := by
  unfold step at hstep
  split at hstep
  case h_1 e =>
    cases he : isFeeding e with
    | true => simp [he] at hstep
    | false =>
      simp only [he, Bool.false_eq_true, if_false, Option.map_eq_some_iff] at hstep
      obtain ⟨⟨c, actions⟩, hclient, heq⟩ := hstep
      cases heq
      exact ⟨[e], [], mirrors_link hh he hclient⟩
  case h_2 effect =>
    split at hstep
    · cases hstep
      exact ⟨[], [], mirrors_still (fun e he => by cases he) hh rfl rfl rfl fun t ht => ht⟩
    · cases hstep
  case h_3 =>
    obtain ⟨moved, hfeeder, heq⟩ := Option.map_eq_some_iff.mp hstep
    cases heq
    exact mirrored_stepFeeder hh hfeeder

/-- A run of both is a run of the client. -/
theorem mirrored_run {ms : List Move} {seen : List Link.Action} (hh : h.Holding)
    (hrun : h.run s ms = some (h', seen)) : ∃ es new, Mirrors s h h' ms seen es new := by
  induction ms generalizing h seen with
  | nil =>
    cases hrun
    refine ⟨[], [], rfl, (List.append_nil _).symm, rfl, fun e _ => ?_, hh, fun t ht => Or.inl ht⟩
    simp
  | cons m ms ih =>
    obtain ⟨next, now, later, hstep, hrest, rfl⟩ := Stepwise.run_cons_eq_some.mp hrun
    obtain ⟨es, new, hfirst⟩ := mirrored_step hh hstep
    obtain ⟨rest, newer, hsecond⟩ := ih hfirst.holding hrest
    exact ⟨es ++ rest, new ++ newer, hfirst.trans hsecond⟩

end Mirrors

end Handover

end SpeechRelay
