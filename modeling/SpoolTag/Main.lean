import SpoolTag.CommandLine.Program
import SpoolTag.Daemon.Api
import SpoolTag.Daemon.Clock
import SpoolTag.Daemon.Server
import Std.Http.Server
import Std.Time.DateTime.Timestamp

/-!
# The executable

The outermost layer: it reads the configuration file and the clock, prints what the program has to
say, and carries requests from the network to the daemon and answers back. Adapters cannot be driven
from here, so the program knows of none and serves simulated devices. Web sockets are refused.
-/

namespace SpoolTag.Main

open SpoolTag.CommandLine (Ending Outcome)

def host : Host Unit := ⟨[], ⟨fun _ k => (.error SystemError.notFound, k)⟩⟩

def now : IO Instant := do
  let nanoseconds := (← Std.Time.Timestamp.now).toNanosecondsSinceUnixEpoch.val.toNat
  pure ⟨nanoseconds / 1000000000, nanoseconds % 1000000000⟩

def fileAt (path : String) : IO Config.FileState := do
  try
    pure (.file (← IO.FS.readBinFile path).toList)
  catch
    | .noFileOrDirectory .. | .noSuchThing .. => pure .missing
    | .inappropriateType .. | .illegalOperation .. => pure .directory
    | _ => pure .missing

def printEntries (entries : List Log.Entry) : IO Unit := do
  for e in entries do
    let time := (← now).shownMicro
    let blank := String.ofList (List.replicate (5 - e.level.label.length) ' ')
    IO.println s!"{time} {blank}{CommandLine.entryText e}"

/-- A daemon at work: its world, shared by all that act in it, and the level of its log. -/
structure Service (κ : Type) where
  daemon : Daemon (κ ⊕ Memory)
  world : IO.Ref (World (κ ⊕ Memory))
  level : Log.Level

namespace Service

variable {κ α : Type}

/-- Acts in the world, alone, and prints what is reported. -/
def act (s : Service κ) (a : Act (κ ⊕ Memory) α) : IO α := do
  let (result, reports) ← s.world.modifyGet fun w =>
    let (result, w) := a.run w
    ((result, w.reports.reverse), { w with reports := [] })
  printEntries ((reports.map Report.entry).filter fun e => s.level.weight ≤ e.level.weight)
  pure result

/-- Polls for ever. -/
partial def watch (s : Service κ) (period : Nat) (w : Watcher) : IO Unit := do
  let time := (← now).shown
  let w ← s.act (w.tick s.daemon time)
  IO.sleep (UInt32.ofNat period)
  s.watch period w

def requestOf (r : Std.Http.Request Std.Http.Body.Stream) (body : ByteArray) : Http.Request where
  method := toString r.line.method
  uri := toString r.line.uri
  headers := r.line.headers.toList.map fun (name, v) => (name.value, v.value)
  body := body.toList

def responseOf (r : Http.Response) :
    Std.Async.Async (Std.Http.Response Std.Http.Body.Full) := do
  let status := (Std.Http.Status.ofCode none (UInt16.ofNat r.status)).getD .internalServerError
  let builder := r.headers.foldl (fun b (name, v) => b.header! name v)
    (Std.Http.Response.withStatus status)
  builder.fromBytes r.body.toUTF8

instance : Std.Http.Server.Handler (Service κ) where
  ResponseBody := Std.Http.Body.Full
  onRequest s r := do
    let body : ByteArray ← r.body.readAll
    let time := (← now).shown
    responseOf (← s.act (s.daemon.handle time (requestOf r body)))

def socketAddress (e : Endpoint) : Std.Net.SocketAddress :=
  match e.host with
  | .v4 bytes =>
    let byte (shift : UInt32) : UInt8 := (bytes >>> shift).toUInt8
    .v4 ⟨.ofParts (byte 24) (byte 16) (byte 8) (byte 0), e.port⟩
  | .v6 groups =>
    let group (i : Nat) : UInt16 := groups[i]?.getD 0
    .v6 ⟨.ofParts (group 0) (group 1) (group 2) (group 3) (group 4) (group 5) (group 6) (group 7),
      e.port⟩

def serve (s : Service κ) (e : Endpoint) : IO Unit :=
  Std.Async.Async.block do
    let server ← Std.Http.Server.serve (socketAddress e) s
    server.waitShutdown

end Service

/-- Serves as the configuration says; the result is the error that stops it. -/
def serve (daemon : Daemon (Unit ⊕ Memory)) (world : World (Unit ⊕ Memory)) (config : Config)
    (level : Log.Level) : IO (Option String) := do
  let s : Service Unit := ⟨daemon, ← IO.mkRef { world with reports := [] }, level⟩
  let period := config.pollInterval.toNat
  let bound := Endpoint.ofText config.bind
  if period = 0 then s.act (Act.report .watcherDisabled)
  if bound.isOk then s.act (Act.report (.serving config.bind))
  if period ≠ 0 then
    let watcher ← s.act (Watcher.start period)
    let _ ← IO.asTask (s.watch period watcher)
  match bound with
  | .error e => pure (some e.message)
  | .ok e =>
    s.serve e
    pure none

/-- Runs the program with the given arguments. -/
def run (arguments : List String) : IO UInt32 := do
  let file ← match CommandLine.parse arguments with
    | .ok (.run path ..) => fileAt path
    | _ => pure .missing
  let time := (← now).shown
  let outcome := CommandLine.run host () (fun _ => file) time arguments
  printEntries outcome.entries
  if let some text := outcome.ending.error? then IO.eprintln text
  match outcome.ending with
  | .printed text =>
    IO.println text
    pure 0
  | .serving daemon world config =>
    match ← serve daemon world config outcome.level with
    | none => pure 0
    | some e =>
      IO.eprintln s!"Error: {e}"
      pure 1
  | ending => pure ending.code.toUInt32

end SpoolTag.Main

def main (arguments : List String) : IO UInt32 := SpoolTag.Main.run arguments
