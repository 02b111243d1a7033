import SpoolTag.Daemon.Basic

/-!
# Sessions of clients

A client on a web socket is told of every change and gets answers to its pings. A session meets
changes and frames in some order; `Session.respond` says what each of them brings about, and
`Session.messages` what the client is sent when they come in a given order.
-/

namespace SpoolTag

open SpoolTag.Json

/-- What a client may send. -/
inductive Frame where
  | text (s : String)
  | binary (bytes : List UInt8)
  | ping (payload : List UInt8)
  | pong (payload : List UInt8)
  | close
  deriving DecidableEq, Repr

/-- Why no frame could be read. -/
inductive SocketFault where
  /-- The connection ended without a closing frame. -/
  | cut
  /-- A ping or pong carries more than 125 bytes. -/
  | controlTooBig
  deriving DecidableEq, Repr

def SocketFault.message : SocketFault → String
  | .cut => "WebSocket protocol error: Connection reset without closing handshake"
  | .controlTooBig =>
    "WebSocket protocol error: Control frame too big (payload must be 125 bytes or less)"

/-- What a session meets. -/
inductive Encounter where
  | change (c : Change)
  | lagged (missed : Nat)
  /-- Nothing will be sent on the channel any more. -/
  | channelClosed
  | frame (f : Frame)
  | fault (f : SocketFault)
  | ended
  deriving DecidableEq

/-- What a client is sent. -/
inductive Letter where
  | text (s : String)
  | pong (payload : List UInt8)
  deriving DecidableEq, Repr

/-- What a session does about something it met: what it sends, what it reports, and whether it ends
there. -/
structure Reaction where
  letter : Option Letter := none
  reports : List Report := []
  ends : Bool := false
  deriving DecidableEq

namespace Session

/-- The text that tells of a change. -/
def changeText (c : Change) : String :=
  String.ofList
    (Document.object [("type", .string Change.notification), ("data", c.document)]).text

/-- The text that answers a ping in a text frame. -/
def pongText : String := String.ofList (Document.object [("type", .string "pong")]).text

/-- What a session does about something it met. -/
def respond : Encounter → Reaction
  | .change c => { letter := some (.text (changeText c)) }
  | .lagged missed => { reports := [.clientLagged missed] }
  | .frame (.ping payload) => { letter := some (.pong payload) }
  | .frame (.text s) => { letter := if s = "ping" then some (.text pongText) else none }
  | .frame .close | .ended | .channelClosed => { ends := true }
  | .fault f => { reports := [.socketFailed f.message], ends := true }
  | .frame (.binary _) | .frame (.pong _) => {}

/-- What a client is sent when the session meets the given things in this order, each with whether
sending works then. -/
def messages : List (Encounter × Bool) → List Letter
  | [] => []
  | (e, works) :: rest =>
    let reaction := respond e
    if reaction.ends then []
    else
      match reaction.letter with
      | none => messages rest
      | some letter => if works then letter :: messages rest else []

end Session

end SpoolTag
