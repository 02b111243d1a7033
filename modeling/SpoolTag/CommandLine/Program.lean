import SpoolTag.CommandLine.Arguments
import SpoolTag.Daemon.Startup
import SpoolTag.Text.Quoted

/-!
# The program

The program reads its configuration, opens the device and then either prints what there is to see or
goes on to serve. What it prints, what it reports and how it ends is decided here; files and clocks
are handed in.
-/

namespace SpoolTag.CommandLine

def name : String := "filaman"

def version : String := "0.1.0"

def helpText : String :=
  "\n".intercalate
    ["Filament manager daemon",
     "",
     "Usage: filaman [OPTIONS]",
     "",
     "Options:",
     "  -c, --config <CONFIG>        Path to configuration file [default: filaman.toml]",
     "  -b, --bind <BIND>            Bind address for web server",
     "  -l, --log-level <LOG_LEVEL>  Log level (trace, debug, info, warn, error) [default: info]",
     "      --simulate               Use a simulated device instead of the i2c bus",
     "      --status-once            Print the current status (and record, if any) and exit",
     "  -h, --help                   Print help",
     "  -V, --version                Print version"]

/-- The level from which on entries are printed; an unknown name stands for `info`. -/
def levelOf (name : String) : Log.Level := (Log.Level.ofName? name).getD .info

/-- How the program goes on. -/
inductive Ending (κ : Type) where
  /-- It ends with this on its output. -/
  | printed (text : String)
  | failed (message : String)
  | misused (error : UsageError)
  | serving (daemon : Daemon (κ ⊕ Memory)) (world : World (κ ⊕ Memory)) (config : Config)

/-- The code with which the program ends. -/
def Ending.code {κ : Type} : Ending κ → UInt8
  | .printed _ | .serving _ _ _ => 0
  | .failed _ => 1
  | .misused _ => 2

/-- The first line about an error, if there is one. -/
def Ending.error? {κ : Type} : Ending κ → Option String
  | .printed _ | .serving _ _ _ => none
  | .failed message => some s!"Error: {message}"
  | .misused error => some s!"error: {error.message}"

/-- What the program has printed and reported, and how it goes on. -/
structure Outcome (κ : Type) where
  ending : Ending κ
  reports : List Report := []
  level : Log.Level := .info

namespace Outcome

/-- The entries that are printed, in order. -/
def entries {κ : Type} (o : Outcome κ) : List Log.Entry :=
  (o.reports.map Report.entry).filter fun e => o.level.weight ≤ e.level.weight

end Outcome

def detailText : String × Log.Detail → String
  | (key, .text s) => s!"{key}={Text.quoted s}"
  | (key, .shown s) => s!"{key}={s}"

def entryText (e : Log.Entry) : String :=
  " ".intercalate ([s!"{e.level.label} {e.target}: {e.message}"] ++ e.details.map detailText)

variable {κ : Type}

/-- The configuration in force: that of the file with the changes that the arguments ask for. -/
def adjusted (c : Config) (bind : Option String) (simulate : Bool) : Config :=
  { c with bind := bind.getD c.bind, simulate := c.simulate || simulate }

/-- Opens the device, and prints what there is to see if that is all. -/
def open? (host : Host κ) (time : String) (config : Config) (statusOnce : Bool) :
    Act (κ ⊕ Memory) (World (κ ⊕ Memory) → Ending κ) := do
  match ← Daemon.start host config with
  | .error e => pure fun _ => .failed e.message
  | .ok daemon =>
    if statusOnce then
      match ← daemon.refresh time with
      | .error e => pure fun _ => .failed e.message
      | .ok change => pure fun _ => .printed (String.ofList change.document.indented)
    else pure fun world => .serving daemon world config

def run (host : Host κ) (kernel : κ) (fileAt : String → Config.FileState) (time : String)
    (arguments : List String) : Outcome κ :=
  match parse arguments with
  | .error e => { ending := .misused e }
  | .ok .help => { ending := .printed helpText }
  | .ok .version => { ending := .printed s!"{name} {version}" }
  | .ok (.run path bind logLevel simulate statusOnce) =>
    let level := levelOf logLevel
    match Config.load path (fileAt path) with
    | .error e => ⟨.failed e.message, [.started version], level⟩
    | .ok (config, loaded) =>
      let config := adjusted config bind simulate
      match config.address with
      | .error fault => ⟨.failed fault.message, [.started version, loaded], level⟩
      | .ok address =>
        let configured : Report := .configured config.adapter.toNat address config.simulate
        let (ending, world) := open? host time config statusOnce
          { bus := .inl kernel, reports := [configured, loaded, .started version] }
        ⟨ending world, world.reports.reverse, level⟩

end SpoolTag.CommandLine
