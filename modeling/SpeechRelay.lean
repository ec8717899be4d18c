import SpeechRelay.Feeder.Run
import SpeechRelay.Link.Client
import SpeechRelay.Recognizer.Backend
import SpeechRelay.Settings.Check
import SpeechRelay.Settings.Load
import SpeechRelay.Status.Route
import SpeechRelay.StopSignal
import SpeechRelay.Stepwise
import SpeechRelay.Proofs.Audio.Mixing
import SpeechRelay.Proofs.Audio.Halting
import SpeechRelay.Proofs.Audio.Inversion
import SpeechRelay.Proofs.Audio.LogKeeping
import SpeechRelay.Proofs.Feeder.Touches
import SpeechRelay.Proofs.Feeder.Round
import SpeechRelay.Proofs.Feeder.BufferedAudio
import SpeechRelay.Proofs.Link.Transition
import SpeechRelay.Proofs.Relay.Basic
import SpeechRelay.Proofs.Relay.Budget
import SpeechRelay.Proofs.Relay.SessionAudio
import SpeechRelay.Proofs.Link.Fates
import SpeechRelay.Proofs.Link.Farewell
import SpeechRelay.Proofs.Link.Delivery
import SpeechRelay.Proofs.Audio.SharedBuffer
import SpeechRelay.Proofs.Feeder.Utterances
import SpeechRelay.Proofs.Link.Drain
import SpeechRelay.Proofs.Handover.Basic
import SpeechRelay.Proofs.Handover.Flush
import SpeechRelay.Proofs.Json.Literals
import SpeechRelay.Proofs.Json.Numerals
import SpeechRelay.Proofs.Json.Tokens
import SpeechRelay.Proofs.Json.Values
import SpeechRelay.Proofs.Json.Skipping
import SpeechRelay.Proofs.Json.Records
import SpeechRelay.Proofs.Link.Envelopes
import SpeechRelay.Proofs.Intake.Events
import SpeechRelay.Proofs.Feeder.Counting
import SpeechRelay.Proofs.Feeder.Bookkeeping
import SpeechRelay.Proofs.Feeder.Calls
import SpeechRelay.Proofs.Feeder.Accounts
import SpeechRelay.Proofs.Feeder.AudioPath
import SpeechRelay.Proofs.Feeder.Hypotheses
import SpeechRelay.Proofs.Feeder.Lockstep
import SpeechRelay.Proofs.Feeder.Diagnostics
import SpeechRelay.Proofs.Settings.Limits
import SpeechRelay.Proofs.Settings.Fields
import SpeechRelay.Proofs.Settings.Assigning
import SpeechRelay.Proofs.Settings.Layers
import SpeechRelay.Proofs.Settings.Written
import SpeechRelay.Proofs.Settings.Precedence
import SpeechRelay.Proofs.Link.Lifecycle
import SpeechRelay.Proofs.Relay.Lifecycle
import SpeechRelay.Proofs.Json.Writing
import SpeechRelay.Proofs.Transcript.Identifiers
import SpeechRelay.Proofs.Link.Frames
import SpeechRelay.Proofs.Settings.Numbers
import SpeechRelay.Proofs.Settings.Exactness
import SpeechRelay.Proofs.StopSignal.Wakeups
import SpeechRelay.Proofs.Feeder.CallOrder
import SpeechRelay.Proofs.Settings.Feeding
import SpeechRelay.Proofs.Link.WireForms
import SpeechRelay.Proofs.Relay.Reception
import SpeechRelay.Proofs.Audio.Means
import SpeechRelay.Proofs.Recognizer.Answers
import SpeechRelay.Proofs.Feeder.Endings
import SpeechRelay.Proofs.Calendar.Days
import SpeechRelay.Proofs.Calendar.Stamps
import SpeechRelay.Proofs.Transcript.Timestamps
import SpeechRelay.Proofs.Feeder.LoggedAudio
