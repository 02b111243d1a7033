import SpoolTag.Daemon.Basic
import SpoolTag.Http.Exchange

/-!
# The web interface

The routes of the web server and what a request to each of them does. A request to write a record is
looked at in three steps, each of which may reject it: the declared type of the body, its length,
and its text. Nothing happens on the device before all of them are done.
-/

namespace SpoolTag

open SpoolTag.Json

/-- Where requests can go. -/
inductive Route where
  | status
  | read
  | write
  | refresh
  | socket
  deriving DecidableEq, Repr

namespace Route

def path : Route → String
  | .status => "/server/filaman/status"
  | .read => "/server/filaman/nfc_read"
  | .write => "/server/filaman/nfc_write"
  | .refresh => "/server/filaman/refresh"
  | .socket => "/ws"

def ofPath? (path : String) : Option Route :=
  [status, read, write, refresh, socket].find? (·.path == path)

def methods : Route → List String
  | .write | .refresh => ["POST"]
  | .status | .read | .socket => ["GET", "HEAD"]

/-- The methods of a route in one line. -/
def allow (r : Route) : String := ",".intercalate r.methods

end Route

/-! ### Answers -/

namespace Http.Response

def document (status : Nat) (d : Document) : Response :=
  { status, contentType := some "application/json", body := String.ofList d.text }

def failure (status : Nat) (message : String) : Response :=
  document status (.object [("error", .string message)])

/-- A line of text as an answer. -/
def plain (status : Nat) (text : String) : Response :=
  { status, contentType := some "text/plain; charset=utf-8", body := text }

end Http.Response

/-! ### Bodies -/

/-- Why a body is not read as a record. -/
inductive Rejection where
  | notDeclared
  | tooLong
  | unreadable (error : ReadError) (place : Position)
  deriving DecidableEq, Repr

def Rejection.message : Rejection → String
  | .notDeclared => "Expected request with \x60Content-Type: application/json\x60"
  | .tooLong => "Failed to buffer the request body: length limit exceeded"
  | .unreadable .notJson _ => "Failed to parse the request body as JSON"
  | .unreadable (.mismatch field cause) place =>
    "Failed to deserialize the JSON body into the target type: " ++
      (field.elim "" fun name => s!"{name}: ") ++ cause.message ++ place.shown

/-- The longest body that is taken, in bytes. -/
def maxBody : Nat := 2 * 1024 * 1024

/-- The record in the body of a request. -/
def Http.Request.record (r : Http.Request) : Except Rejection Record :=
  if ¬ r.hasJson then .error .notDeclared
  else if maxBody < r.body.length then .error .tooLong
  else (Record.ofBytes r.body).mapError fun (error, place) => .unreadable error place

/-! ### Requests for a web socket -/

/-- Whether a header has the given value, in any case of its letters. -/
def Http.Request.headerIs (r : Http.Request) (name value : String) : Bool :=
  (r.header? name).any fun v => v.map Char.toLower == value

/-- Whether a text occurs in another one. -/
def occurs (text : List Char) : List Char → Bool
  | [] => text.isEmpty
  | c :: rest => text.isPrefixOf (c :: rest) || occurs text rest

/-- The answer to a request for a web socket that does not come over a connection of its own. -/
def socketRefusal (r : Http.Request) : Http.Response :=
  if r.method ≠ "GET" then .plain 405 "Request method must be \x60GET\x60"
  else if ¬ (r.header? "connection").any fun v =>
      occurs ['u', 'p', 'g', 'r', 'a', 'd', 'e'] (v.toList.map Char.toLower) then
    .plain 400 "Connection header did not include 'upgrade'"
  else if ¬ r.headerIs "upgrade" "websocket" then
    .plain 400 "\x60Upgrade\x60 header did not include 'websocket'"
  else if (r.header? "sec-websocket-key").isNone then
    .plain 400 "\x60Sec-WebSocket-Key\x60 header missing"
  else if ¬ r.headerIs "sec-websocket-version" "13" then
    .plain 400 "\x60Sec-WebSocket-Version\x60 header did not include '13'"
  else .plain 426 "WebSocket request couldn't be upgraded since no upgrade state was present"

/-! ### Handling -/

/-- The status of the answer to a request that the device failed. -/
def TagError.httpStatus : TagError → Nat
  | .deviceUnavailable _ _ => 503
  | .kindMismatch _ _ => 400
  | _ => 500

namespace Daemon

variable {σ α : Type}

/-- The answer to a request that the device has carried out or failed. -/
def answer (encode : α → Document) : Except TagError α → Act σ Http.Response
  | .ok a => pure (.document 200 (encode a))
  | .error e => do
    Act.report (.requestFailed e e.httpStatus)
    pure (.failure e.httpStatus e.message)

/-- Writes the record in the body of a request. -/
def handleWrite (d : Daemon σ) (r : Http.Request) : Act σ Http.Response := do
  match r.record with
  | .error rejection =>
    Act.report (.bodyRejected rejection.message)
    pure (.failure 400 rejection.message)
  | .ok record =>
    Act.report (.writeRequested record.id record.name)
    answer (fun () => .object [("status", .string "OK")]) (← d.write record)

/-- Does what a request to a route asks for. -/
def perform (d : Daemon σ) (time : String) (r : Http.Request) : Route → Act σ Http.Response
  | .status => do answer Status.document (← d.status)
  | .read => do answer Record.document (← d.record)
  | .write => d.handleWrite r
  | .refresh => do answer Change.document (← d.refresh time)
  | .socket => pure (socketRefusal r)

/-- Handles a request at the given time. -/
def handle (d : Daemon σ) (time : String) (r : Http.Request) : Act σ Http.Response := do
  match Route.ofPath? r.path with
  | none => pure { status := if r.method = "OPTIONS" then 200 else 404,
                   openToAll := r.method = "OPTIONS" }
  | some route =>
    if r.method = "OPTIONS" then
      pure { status := 200, openToAll := true, allow := some route.allow }
    else if r.method ∈ route.methods then
      let response ← d.perform time r route
      pure (if r.method = "HEAD" then { response with body := "" } else response)
    else pure { status := 405, allow := some route.allow }

end Daemon

end SpoolTag
