import SpoolTag.Bus.Adapter
import SpoolTag.Bus.Choice
import SpoolTag.Config
import SpoolTag.Daemon.Basic

/-!
# Starting up

The device that the configuration names is either behind an adapter of the host or simulated. A
simulated one keeps its registers in memory and starts with a spool on it.
-/

namespace SpoolTag

/-- The computer that the daemon runs on: the numbers of its adapters, and what stands behind
them. -/
structure Host (κ : Type) where
  adapters : List Nat
  kernel : Kernel κ

/-- Why the daemon does not start. -/
inductive StartupError where
  | config (fault : Config.Fault)
  | adapter (number : Nat) (cause : IoError)
  | noDevice (number : Nat) (device : UInt8) (cause : TagError)
  | simulation (cause : TagError)
  deriving DecidableEq, Repr

def StartupError.message : StartupError → String
  | .config fault => fault.message
  | .adapter number cause => s!"Failed to open {Adapter.path number}: {cause.message}"
  | .noDevice number device cause =>
    s!"There is no device on i2c bus {number} with address 0x{Text.hexByte device}: " ++
      cause.message
  | .simulation cause => cause.message

namespace Daemon

variable {σ κ : Type}

/-- Opens the device at an address of a bus. -/
def «open» (bus : Bus σ) (device : UInt8) : Act σ (Except TagError (Daemon σ)) := do
  match ← bus.hold (Manager.open device .standard) with
  | .ok manager => pure (.ok ⟨bus, manager⟩)
  | .error e => pure (.error e)

/-- The record on the tag of a simulated device. -/
def sample : Record :=
  ({ id := 1, name := "Generic PLA", spoolWeight := 200, totalWeight := 1200 } : Record)
    |>.withField "extr_temp" (.int32 215)
    |>.withField "bed_temp" (.int32 60)

/-- Sets both flags of a device in memory, and forgets its transactions. -/
def arrive (catalog : Catalog) (device : UInt8) (m : Memory) : Except TagError Memory := do
  let present ← catalog.lookup Register.present
  let nfcValid ← catalog.lookup Register.nfcValid
  pure ((m.set device present.address [1]).set device nfcValid.address [1]).clear

/-- The bus of a host's adapter, or of a simulated device. -/
def hostBus (host : Host κ) : Bus (κ ⊕ Memory) := host.kernel.bus.choice Memory.bus

/-- Makes a simulated device with a spool on it, and opens it. -/
def simulate (host : Host κ) (device : UInt8) :
    Act (κ ⊕ Memory) (Except TagError (Daemon (κ ⊕ Memory))) := do
  Act.report (.simulated device)
  modify fun w => { w with bus := .inr (Memory.attach {} device) }
  match ← Daemon.open (hostBus host) device with
  | .error e => pure (.error e)
  | .ok d =>
    match ← d.write sample with
    | .error e => pure (.error e)
    | .ok () =>
      match (← get).bus with
      | .inl _ => pure (.ok d)
      | .inr m =>
        match arrive d.manager.catalog device m with
        | .error e => pure (.error e)
        | .ok m =>
          modify fun w => { w with bus := .inr m }
          pure (.ok d)

/-- Opens the device that the configuration names. -/
def start (host : Host κ) (config : Config) :
    Act (κ ⊕ Memory) (Except StartupError (Daemon (κ ⊕ Memory))) := do
  match config.address with
  | .error fault => pure (.error (.config fault))
  | .ok device =>
    if config.simulate then
      pure ((← simulate host device).mapError .simulation)
    else
      let number := config.adapter.toNat
      match Adapter.openAt host.adapters (Adapter.path number) with
      | .error cause => pure (.error (.adapter number cause))
      | .ok notice =>
        Act.report (.device notice)
        pure ((← Daemon.open (hostBus host) device).mapError (.noDevice number device))

end Daemon

end SpoolTag
