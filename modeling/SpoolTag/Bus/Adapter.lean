import SpoolTag.Bus.Memory
import SpoolTag.Path

/-!
# Adapters

An adapter of the host carries out transfers: one or more messages in a row, each of which writes a
buffer to a device or fills one from it. The length of a message is a 16-bit number of its own and
only that many bytes of its buffer take part. A read of a register is a transfer of two messages,
the register's address and then the bytes.

What stands behind an adapter is a `Kernel`; it gives the bytes for every message, or the number of
a system error.
-/

namespace SpoolTag

/-- One message of a transfer. -/
structure Message where
  device : UInt8
  reading : Bool
  length : UInt16
  buffer : List UInt8
  deriving DecidableEq, Repr

namespace Message

/-- A message whose length is that of its buffer, as far as 16 bits tell it. -/
def of (device : UInt8) (reading : Bool) (buffer : List UInt8) : Message :=
  ⟨device, reading, UInt16.ofNat buffer.length, buffer⟩

/-- The bytes of the buffer that take part in the transfer. -/
def sent (m : Message) : List UInt8 := m.buffer.take m.length.toNat

/-- The buffer after the transfer: a message that reads gets the given bytes, at most as many as its
length says. -/
def filled (m : Message) (bytes : List UInt8) : List UInt8 :=
  if m.reading then padTo m.length.toNat bytes ++ m.buffer.drop m.length.toNat else m.buffer

end Message

/-- What carries out transfers: bytes for every message, or a system error. -/
structure Kernel (κ : Type) where
  transfer : List Message → κ → Except Nat (List (List UInt8)) × κ

namespace Kernel

variable {κ : Type}

/-- The failure of a transfer to a device. -/
def failure (device : UInt8) (code : Nat) : BusError :=
  if code ∈ SystemError.notAcknowledged then .noAcknowledge device else .io (.system code)

/-- Carries out a transfer; the buffers after it are those of the messages that read. -/
def exchange (kernel : Kernel κ) (device : UInt8) (messages : List Message) (k : κ) :
    Except BusError (List (List UInt8)) × κ :=
  match kernel.transfer messages k with
  | (.error code, k) => (.error (failure device code), k)
  | (.ok bytes, k) => (.ok ((messages.zip bytes).map fun (m, b) => m.filled b), k)

/-- Carries out a transaction. A read of no bytes takes no transfer. -/
def answer (kernel : Kernel κ) (r : Request) (k : κ) : Answer κ :=
  match r with
  | .probe device =>
    match kernel.exchange device [.of device true [0]] k with
    | (.error e, k) => ⟨.error e, [], k⟩
    | (.ok _, k) => ⟨.ok [], [], k⟩
  | .read device register count =>
    if count = 0 then ⟨.ok [], [], k⟩
    else
      let messages := [.of device false [register], .of device true (List.replicate count 0)]
      match kernel.exchange device messages k with
      | (.error e, k) => ⟨.error e, [], k⟩
      | (.ok buffers, k) =>
        ⟨.ok ((buffers[1]?).getD []), [.adapterRead device register count], k⟩
  | .write device register bytes =>
    match kernel.exchange device [.of device false (register :: bytes)] k with
    | (.error e, k) => ⟨.error e, [], k⟩
    | (.ok _, k) => ⟨.ok [], [.adapterWrite device register bytes.length], k⟩

def bus (kernel : Kernel κ) : Bus κ := ⟨kernel.answer⟩

end Kernel

namespace Adapter

/-- The path of the adapter with the given number. -/
def path (number : Nat) : String := "/dev/i2c-" ++ String.ofList (Nat.toDigits 10 number)

/-- Opens the adapter at a path on a host with the given adapters. An adapter is known by its own
path only. -/
def openAt (adapters : List Nat) (file : String) : Except IoError Notice :=
  if adapters.any fun n => path n == file then .ok (.adapterOpened file)
  else .error (Path.refusal file)

end Adapter

/-! ### A kernel that follows a script -/

/-- What a scripted kernel does with one transfer: fill every message that reads from the same
bytes, or fail. -/
inductive ScriptLine where
  | fill (bytes : List UInt8)
  | fail (code : Nat)
  deriving DecidableEq, Repr

/-- A kernel's script: the lines to come, and the transfers so far, the latest first. -/
structure Script where
  lines : List ScriptLine := []
  transfers : List (List Message) := []

namespace Script

/-- Carries out a transfer by the next line; without one it succeeds with zeros. -/
def transfer (messages : List Message) (s : Script) : Except Nat (List (List UInt8)) × Script :=
  let later : Script := ⟨s.lines.drop 1, messages :: s.transfers⟩
  match s.lines with
  | .fail code :: _ => (.error code, later)
  | .fill bytes :: _ => (.ok (messages.map fun _ => bytes), later)
  | [] => (.ok (messages.map fun _ => []), later)

def kernel : Kernel Script := ⟨transfer⟩

end Script

end SpoolTag
