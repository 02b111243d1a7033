import SpoolTag.Notice
import SpoolTag.Record
import SpoolTag.Text.Quoted

/-!
# What the daemon reports

Everything worth a log entry while the daemon runs: the notices of the device operations, and what
happens to events, requests, clients and the configuration.
-/

namespace SpoolTag

open SpoolTag.Log

/-- Something that the daemon does or that happens to it. -/
inductive Report where
  /-- An operation on the device has something to say. -/
  | device (notice : Notice)
  | started (version : String)
  | configLoaded (path : String)
  | configMissing (path : String)
  | configured (adapter : Nat) (address : UInt8) (simulate : Bool)
  | simulated (address : UInt8)
  /-- A change went out to so many receivers. -/
  | sent (notification : String) (status : Status) (receivers : Nat)
  /-- The watcher polls at this period, in milliseconds. -/
  | watcherStarted (period : Nat)
  | watcherDisabled
  /-- A poll found another status than the last one known. -/
  | statusChanged (previous : Option Status) (current : Status)
  /-- The first poll of an outage failed. -/
  | pollFailed (error : TagError)
  | reachable
  | serving (address : String)
  /-- The body of a request holds no record. -/
  | bodyRejected (reason : String)
  /-- A request asks to write a record. -/
  | writeRequested (id : Int32) (name : String)
  /-- The device failed a request, which is answered with this status. -/
  | requestFailed (error : TagError) (status : Nat)
  | clientConnected
  | clientDisconnected
  /-- A client has missed so many changes. -/
  | clientLagged (missed : Nat)
  | socketFailed (reason : String)
  deriving DecidableEq

def Status.shown (s : Status) : String :=
  let flag (b : Bool) : String := if b then "true" else "false"
  "StatusSnapshot \x7b present: " ++ flag s.present ++ ", nfc_valid: " ++ flag s.nfcValid ++ " \x7d"

namespace Report

/-- The speaker of reports about the program as a whole. -/
def mainTarget : String := "filaman"

/-- The speaker of reports about the configuration. -/
def configTarget : String := "filaman::config"

/-- The speaker of reports about the device and its changes. -/
def stateTarget : String := "filaman::state"

def watcherTarget : String := "filaman::watcher"

/-- The speaker of reports about the web server. -/
def serverTarget : String := "filaman::server"

def apiTarget : String := "filaman::api"

def socketTarget : String := "filaman::ws"

/-- How log entries show a status that may be unknown. -/
def shownStatus? : Option Status → String
  | none => "None"
  | some s => s!"Some({s.shown})"

def entry : Report → Entry
  | .device notice => notice.entry
  | .started version => ⟨.info, mainTarget, s!"Filaman v{version}", []⟩
  | .configLoaded path => ⟨.info, configTarget, "Loaded configuration", [("path", .shown path)]⟩
  | .configMissing path =>
    ⟨.info, configTarget, "Configuration file not found, using defaults",
      [("path", .shown path)]⟩
  | .configured adapter address simulate =>
    ⟨.info, mainTarget, "Configuration loaded",
      [("smbus_id", .number adapter), ("dev_address", .number address.toNat),
        ("simulate", .flag simulate)]⟩
  | .simulated address =>
    ⟨.info, stateTarget, "Using simulated filament manager",
      [("address", .number address.toNat)]⟩
  | .sent notification status receivers =>
    ⟨.debug, stateTarget, s!"Sent {notification}",
      [("present", .flag status.present), ("nfc_valid", .flag status.nfcValid),
        ("receivers", .number receivers)]⟩
  | .watcherStarted period =>
    ⟨.info, watcherTarget, "Presence watcher started", [("period_ms", .number period)]⟩
  | .watcherDisabled => ⟨.info, serverTarget, "Presence watcher disabled", []⟩
  | .statusChanged previous current =>
    ⟨.debug, watcherTarget, "Presence status changed",
      [("previous", .shown (shownStatus? previous)), ("current", .shown current.shown)]⟩
  | .pollFailed error =>
    ⟨.warn, watcherTarget, "Presence poll failed", [("error", .shown error.message)]⟩
  | .reachable => ⟨.info, watcherTarget, "Filament manager reachable again", []⟩
  | .serving address =>
    ⟨.info, serverTarget, "Starting web server", [("address", .shown address)]⟩
  | .bodyRejected reason =>
    ⟨.debug, apiTarget, "Rejected tag write body", [("error", .shown reason)]⟩
  | .writeRequested id name =>
    ⟨.info, apiTarget, "Tag write requested", [("id", Notice.int id), ("name", .shown name)]⟩
  | .requestFailed error status =>
    ⟨.warn, apiTarget, "Device request failed",
      [("error", .shown error.message), ("status", .number status)]⟩
  | .clientConnected => ⟨.info, socketTarget, "WebSocket client connected", []⟩
  | .clientDisconnected => ⟨.info, socketTarget, "WebSocket client disconnected", []⟩
  | .clientLagged missed =>
    ⟨.debug, socketTarget, "Filament event channel lagged", [("skipped", .number missed)]⟩
  | .socketFailed reason =>
    ⟨.warn, socketTarget, "WebSocket error", [("error", .shown reason)]⟩

end Report

end SpoolTag
