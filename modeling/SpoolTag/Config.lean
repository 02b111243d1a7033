import SpoolTag.Fault
import SpoolTag.Report
import SpoolTag.Toml.Document

/-!
# The configuration

What the daemon is told by its configuration file: where the web server listens, which device to
open and how often to poll it. Every setting has a default except the address of the device. Unknown
settings are passed over.
-/

namespace SpoolTag

open SpoolTag.Toml

/-- The settings. -/
structure Config where
  /-- The address of the web server. -/
  bind : String := "0.0.0.0:7125"
  /-- The number of the adapter. -/
  adapter : UInt32 := 0
  /-- The address of the device. -/
  device : Option UInt8 := none
  /-- The time between two polls in milliseconds; there are none if it is zero. -/
  pollInterval : UInt64 := 500
  /-- Whether the device is simulated. -/
  simulate : Bool := false
  deriving DecidableEq, Repr

namespace Config

/-! ### Reading -/

def asText : Item → Option String
  | .text s => some s
  | _ => none

/-- An integer from zero up to a limit. -/
def asNat (limit : Nat) : Item → Option Nat
  | .integer i => if 0 ≤ i ∧ i < limit then some i.toNat else none
  | _ => none

def asFlag : Item → Option Bool
  | .flag b => some b
  | _ => none

/-- The settings with the given names as they stand in a section: a table has them under their
names, an array in their order. A date is a section without settings. -/
def section? (names : List String) : Item → Option (List (Option Item))
  | .table _ entries => some (names.map fun name => Entries.item? name entries)
  | .array items => some ((List.range names.length).map fun i => items[i]?)
  | .tables all => some ((List.range names.length).map fun i => (all[i]?).map (.table .header))
  | .moment => some (names.map fun _ => none)
  | _ => none

def setting {α : Type} (read : Item → Option α) (default : α) : Option Item → Option α
  | none => some default
  | some item => read item

/-- Takes the settings of the web server. -/
def withDaemon (c : Config) (item : Item) : Option Config := do
  match ← section? ["bind"] item with
  | [bind] => pure { c with bind := ← setting asText c.bind bind }
  | _ => none

def withDevice (c : Config) (item : Item) : Option Config := do
  match ← section? ["smbus_id", "dev_address", "poll_interval_ms", "simulate"] item with
  | [adapter, device, pollInterval, simulate] =>
    pure { c with
      adapter := ← setting (fun i => (asNat UInt32.size i).map UInt32.ofNat) c.adapter adapter
      device := ← setting (fun i => (asNat UInt8.size i).map fun n => some (UInt8.ofNat n)) c.device
        device
      pollInterval := ← setting (fun i => (asNat UInt64.size i).map UInt64.ofNat) c.pollInterval
        pollInterval
      simulate := ← setting asFlag c.simulate simulate }
  | _ => none

def ofText (text : List Char) : Option Config := do
  let entries ← Toml.ofText text
  let c : Config := {}
  let c ← (entries.item? "daemon").elim (some c) c.withDaemon
  (entries.item? "device").elim (some c) c.withDevice

/-! ### Checking -/

/-- What is wrong with the address of the device. -/
inductive Fault where
  | noAddress
  | addressTooLarge (address : UInt8)
  deriving DecidableEq, Repr

def Fault.message : Fault → String
  | .noAddress => "device.dev_address is required"
  | .addressTooLarge address =>
    s!"device.dev_address 0x{Text.hexByte address} is not a 7-bit address"

/-- The address of the device, which has to be given and to fit seven bits. -/
def address (c : Config) : Except Fault UInt8 :=
  match c.device with
  | none => .error .noAddress
  | some address => if 0x7F < address then .error (.addressTooLarge address) else .ok address

/-! ### Files -/

/-- What stands at a path. -/
inductive FileState where
  | missing
  | directory
  | file (bytes : List UInt8)
  deriving DecidableEq, Repr

/-- Why there is no configuration. -/
inductive LoadError where
  | io (cause : IoError)
  | malformed
  deriving DecidableEq, Repr

def LoadError.message : LoadError → String
  | .io cause => cause.message
  | .malformed => "TOML parse error"

/-- The configuration in the file at a path; without a file it is the default. -/
def load (path : String) : FileState → Except LoadError (Config × Report)
  | .missing => .ok ({}, .configMissing path)
  | .directory => .error (.io (.system SystemError.isDirectory))
  | .file bytes =>
    match Text.Utf8.decode bytes with
    | .error _ => .error (.io (.other "stream did not contain valid UTF-8"))
    | .ok text =>
      match ofText text with
      | none => .error .malformed
      | some c => .ok (c, .configLoaded path)

end Config

end SpoolTag
