import SpoolTag.Daemon.Change
import SpoolTag.Daemon.Channel
import SpoolTag.Report

/-!
# The daemon

The daemon owns a device on a bus and the channel on which its clients learn of changes. Everything
it does on the device is one uninterrupted dialog with the bus, `Daemon.hold`; a change is sent
afterwards, `Daemon.publish`.
-/

namespace SpoolTag

/-- What the daemon works on: the state of the bus, the channel, and its reports so far, the latest
first. -/
structure World (σ : Type) where
  bus : σ
  channel : Channel Change := {}
  reports : List Report := []

/-- What the daemon does in its world. -/
abbrev Act (σ : Type) := StateM (World σ)

def Act.report {σ : Type} (r : Report) : Act σ Unit :=
  modify fun w => { w with reports := r :: w.reports }

/-- Carries out an operation on a bus from its first to its last transaction. -/
def Bus.hold {σ α : Type} (bus : Bus σ) (operation : Attempt α) :
    Act σ (Except TagError α) := fun w =>
  let run := operation.run.run bus w.bus
  (run.result,
    { w with
      bus := run.state
      reports := run.notices.foldl (fun reports n => .device n :: reports) w.reports })

/-- A device, and the bus on which it is reached. -/
structure Daemon (σ : Type) where
  bus : Bus σ
  manager : Manager

namespace Daemon

variable {σ α : Type}

/-- Carries out an operation on the device from its first to its last transaction. -/
def hold (d : Daemon σ) (operation : Attempt α) : Act σ (Except TagError α) :=
  d.bus.hold operation

/-- Sends a sighting, made at the given time, to all receivers. -/
def publish (time : String) (seen : Sighting) : Act σ Change := do
  let change : Change := ⟨seen, time⟩
  let receivers := (← get).channel.listening
  modify fun w => { w with channel := w.channel.send change }
  Act.report (.sent Change.notification seen.status receivers)
  pure change

def status (d : Daemon σ) : Act σ (Except TagError Status) := d.hold d.manager.readStatus

def record (d : Daemon σ) : Act σ (Except TagError Record) := d.hold d.manager.readRecord

def write (d : Daemon σ) (r : Record) : Act σ (Except TagError Unit) :=
  d.hold (d.manager.writeRecord r)

/-- Looks at the device and sends what there is to see. -/
def refresh (d : Daemon σ) (time : String) : Act σ (Except TagError Change) := do
  match ← d.hold d.manager.look with
  | .ok seen => .ok <$> publish time seen
  | .error e => pure (.error e)

def subscribe : Act σ Receiver := modifyGet fun w =>
  let (receiver, channel) := w.channel.subscribe
  (receiver, { w with channel })

def leave : Act σ Unit := modify fun w => { w with channel := w.channel.leave }

def receive (r : Receiver) : Act σ (Received Change × Receiver) := do
  pure ((← get).channel.receive r)

end Daemon

end SpoolTag
