import SpeechRelay.Json.Error

/-!
# Messages and failures of the link

What a gateway may send during a session, and what may go wrong on the way.
-/

set_option autoImplicit false

namespace SpeechRelay.Link

/-- The goodbye of a gateway. -/
structure Goodbye where
  code : Nat
  reason : String
  deriving DecidableEq

/-- A message of the gateway. -/
inductive Message where
  | binary (bytes : List UInt8)
  | text (s : String)
  | close (goodbye : Option Goodbye)
  /-- A message that only keeps the link alive. -/
  | keepAlive
  deriving DecidableEq

/-- The reason that is given for the end of a session by a goodbye. -/
def closeReason : Option Goodbye → String
  | none => "closed by gateway"
  | some g => "closed by gateway (" ++ toString g.code ++ "): " ++ g.reason

/-- The reason that is given for a session whose messages just end. -/
def endedReason : String := "stream ended"

/-- A failure of the wire below the messages. -/
inductive WireError where
  | connectionClosed
  | alreadyClosed
  /-- The connection was cut without a goodbye. -/
  | cut
  | other (text : String)
  deriving DecidableEq

/-- The wording of a failure of the wire. -/
def WireError.message : WireError → String
  | .connectionClosed => "Connection closed normally"
  | .alreadyClosed => "Trying to work with closed connection"
  | .cut => "WebSocket protocol error: Connection reset without closing handshake"
  | .other text => text

/-- A failure of the link. -/
inductive TransportError where
  /-- No session could be started. -/
  | connect (url : String) (why : WireError)
  /-- A session broke. -/
  | broken (why : WireError)
  /-- A transcript could not be written as a frame. -/
  | encode (why : Json.ReadError)

/-- The wording of a failure of the link. -/
def TransportError.message : TransportError → String
  | .connect url why => "failed to connect to " ++ url ++ ": " ++ why.message
  | .broken why => "websocket protocol error: " ++ why.message
  | .encode why => "failed to encode outbound event: " ++ why.message

end SpeechRelay.Link
