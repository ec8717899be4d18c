import SpeechRelay.Intake
import SpeechRelay.Proofs.Feeder.Round
import SpeechRelay.Proofs.Link.Transition

/-!
# Client and feeder together

The client reports to the intake, and what it reports takes effect on the pipeline bit by bit,
while the feeder goes on with its rounds and others put transcripts into the queue or give the stop
signal. `Relay.step` is one move of one of them. The client itself is one task: it takes its next
step only when all that it has reported has taken effect. If an effect halts, the client is gone.

`Relay.run` also keeps account of the sessions: for each of them the audio that came in during it,
and the rounds of the feeder until the next one.
-/

set_option autoImplicit false

namespace SpeechRelay

/-- The client and the feeder with the pipeline between them. -/
structure Relay (σ τ ω : Type) where
  client : Link.Client
  /-- The effects of what the client has reported that are still to come. -/
  pending : List Intake.Effect
  feeder : Feeder (σ × List RecognizerCall) τ ω

namespace Relay

/-- What does not change while the relay works. -/
structure Setup (σ τ ω : Type) where
  link : Link.Setup
  feeder : Feeder.Setup σ τ ω
  clearOnDisconnect : Bool

/-- A move of the client, the intake or the feeder. -/
inductive Move where
  | link (e : Link.Step)
  /-- The next effect of what the client has reported. -/
  | settle
  | tick (r : Feeder.Reading)

variable {σ τ ω : Type}

/-- The effects of what others see of the client. -/
def effects (clearOnDisconnect : Bool) (seen : List Link.Action) : List Intake.Effect :=
  seen.flatMap fun
    | .report e => Intake.effects clearOnDisconnect e
    | .note entry => [.note entry]
    | _ => []

/-- Whether a step is one of those around the client, which need not wait for it. -/
def isAround : Link.Step → Bool
  | .emit _ | .closeQueue | .cancel => true
  | _ => false

/-- The relay after a move and the round that the move was, if the move can be made. -/
def step (s : Setup σ τ ω) (relay : Relay σ τ ω) : Move → Option (Relay σ τ ω × List Feeder.Round)
  | .link e =>
    if isAround e ∨ relay.pending.isEmpty then
      (relay.client.step s.link e).map fun (client, seen) =>
        ({ relay with client, pending := relay.pending ++ effects s.clearOnDisconnect seen }, [])
    else none
  | .settle =>
    match relay.pending with
    | [] => none
    | effect :: pending =>
      match effect.run relay.feeder.pipeline with
      | .ok pipeline => some ({ relay with pending, feeder := { relay.feeder with pipeline } }, [])
      | .error _ => none
  | .tick r =>
    match relay.feeder.round s.feeder r with
    | (round, feeder) => some ({ relay with feeder }, [round])

/-! ## Sessions -/

/-- The audio that a step of the client brings: the payload of a message, if it has one. -/
def audioOf (audioEvent : String) : Link.Step → List UInt8
  | .received (.binary bytes) => bytes
  | .received (.text text) =>
    match Link.Envelope.decode audioEvent text with
    | .ok (.audio bytes) => bytes
    | _ => []
  | _ => []

/-- What came in during a session, and the rounds from its start to the start of the next one. -/
structure Session where
  audio : List UInt8
  rounds : List Feeder.Round

/-- The samples that were fed from the buffer since the session started. -/
def Session.fed (session : Session) : List Int16 := Feeder.bufferedSamples session.rounds

/-- The sessions up to some moment. -/
structure Sessions where
  /-- The one that started last. Before the first one, a session without audio. -/
  latest : Session
  earlier : List Session

namespace Sessions

/-- No session has started. -/
def start : Sessions := ⟨⟨[], []⟩, []⟩

/-- All sessions so far, the latest first. -/
def all (sessions : Sessions) : List Session := sessions.latest :: sessions.earlier

/-- The sessions after a move that was made. -/
def after (audioEvent : String) (sessions : Sessions) (m : Move) (rounds : List Feeder.Round) :
    Sessions :=
  match m with
  | .link .connected => ⟨⟨[], []⟩, sessions.all⟩
  | .link e =>
    { sessions with latest.audio := sessions.latest.audio ++ audioOf audioEvent e }
  | _ => { sessions with latest.rounds := sessions.latest.rounds ++ rounds }

end Sessions

/-- The relay and its sessions after moves, of which those that cannot be made are left out. -/
def run (s : Setup σ τ ω) (relay : Relay σ τ ω) (sessions : Sessions) :
    List Move → Relay σ τ ω × Sessions
  | [] => (relay, sessions)
  | m :: ms =>
    match relay.step s m with
    | none => run s relay sessions ms
    | some (next, rounds) => run s next (sessions.after s.link.audioEvent m rounds) ms

/-! ## What a move can do -/

section Step

variable {s : Setup σ τ ω} {relay next : Relay σ τ ω} {rounds : List Feeder.Round}

/-- A move of the client is a step of it, and the client itself does not go on before all that it
has reported has taken effect. -/
theorem step_link_eq_some {e : Link.Step} (h : relay.step s (.link e) = some (next, rounds)) :
    ∃ client seen, Link.Client.Transition s.link relay.client e client seen ∧
      (isAround e ∨ relay.pending = []) ∧
      next = { relay with
        client, pending := relay.pending ++ effects s.clearOnDisconnect seen } ∧ rounds = [] := by
  simp only [step] at h
  split at h
  · next hwait =>
    obtain ⟨⟨client, seen⟩, hstep, heq⟩ := Option.map_eq_some_iff.mp h
    cases heq
    refine ⟨client, seen, Link.Client.transition_of_step hstep, ?_, rfl, rfl⟩
    exact hwait.imp_right List.isEmpty_iff.mp
  · cases h

/-- A settling move carries out the first effect that is still to come. -/
theorem step_settle_eq_some (h : relay.step s .settle = some (next, rounds)) :
    ∃ effect pending pipeline, relay.pending = effect :: pending ∧
      effect.run relay.feeder.pipeline = .ok pipeline ∧
      next = { relay with pending, feeder := { relay.feeder with pipeline } } ∧ rounds = [] := by
  simp only [step] at h
  split at h
  · cases h
  · next effect pending hpending =>
    split at h
    · next pipeline hrun =>
      cases h
      exact ⟨effect, pending, pipeline, hpending, hrun, rfl, rfl⟩
    · cases h

end Step

/-- A step of the client that opens no session brings its audio to the latest one. -/
theorem Sessions.after_link (audioEvent : String) (sessions : Sessions) {e : Link.Step}
    (he : e ≠ .connected) (rounds : List Feeder.Round) :
    sessions.after audioEvent (.link e) rounds =
      { sessions with latest.audio := sessions.latest.audio ++ audioOf audioEvent e } := by
  cases e with
  | connected => exact absurd rfl he
  | _ => rfl

/-- Settling leaves the account of the sessions as it is. -/
theorem Sessions.after_settle (audioEvent : String) (sessions : Sessions) :
    sessions.after audioEvent .settle [] = sessions := by
  simp [after]

/-- Before the first session there has been no round. -/
theorem Sessions.rounds_start {P : Feeder.Round → Prop} :
    ∀ session ∈ start.all, ∀ round ∈ session.rounds, P round := by
  intro session hmem round hround
  rcases List.mem_singleton.mp hmem with rfl
  cases hround

/-- What holds of all rounds so far and of those of a move holds of all rounds after the move. -/
theorem Sessions.rounds_after {P : Feeder.Round → Prop} (audioEvent : String)
    {sessions : Sessions} (m : Move) {rounds : List Feeder.Round}
    (h : ∀ session ∈ sessions.all, ∀ round ∈ session.rounds, P round)
    (hnew : ∀ round ∈ rounds, P round) :
    ∀ session ∈ (sessions.after audioEvent m rounds).all, ∀ round ∈ session.rounds, P round := by
  have hlatest : ∀ round ∈ sessions.latest.rounds ++ rounds, P round := fun round hround =>
    (List.mem_append.mp hround).elim (h sessions.latest List.mem_cons_self round) (hnew round)
  have hearlier : ∀ session ∈ sessions.earlier, ∀ round ∈ session.rounds, P round :=
    fun session hmem => h session (List.mem_cons_of_mem _ hmem)
  intro session hmem
  cases m with
  | link e =>
    by_cases he : e = .connected
    · subst he
      rcases List.mem_cons.mp hmem with rfl | hmem
      · intro round hround
        cases hround
      · exact h session hmem
    · rw [after_link _ _ he] at hmem
      rcases List.mem_cons.mp hmem with rfl | hmem
      · exact h sessions.latest List.mem_cons_self
      · exact hearlier session hmem
  | settle | tick =>
    rcases List.mem_cons.mp hmem with rfl | hmem
    · exact hlatest
    · exact hearlier session hmem

end Relay

end SpeechRelay
