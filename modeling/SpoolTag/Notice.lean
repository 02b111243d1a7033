import SpoolTag.Bitmap
import SpoolTag.Log

/-!
# What is reported about registers and records

The notices of the operations on a device and of the buses below them, by kind, and their rendering
into log entries.
-/

namespace SpoolTag

open SpoolTag.Log

/-- How far the writing of a record has got. -/
inductive Stage where
  | idle
  | mandatoryWritten
  | optionalWritten
  | bitmapWritten
  deriving DecidableEq, Repr

/-- The name of a stage in messages. -/
def Stage.label : Stage → String
  | .idle => "Idle"
  | .mandatoryWritten => "MandatoryFieldsWritten"
  | .optionalWritten => "OptionalFieldsWritten"
  | .bitmapWritten => "BitmapCommitted"

/-- Something worth a log entry. -/
inductive Notice where
  /-- A register file in memory answered a read. -/
  | memoryRead (device register : UInt8) (count : Nat)
  /-- A register file in memory took a write. -/
  | memoryWrite (device register : UInt8) (length : Nat)
  /-- The adapter at this path is open. -/
  | adapterOpened (path : String)
  | adapterRead (device register : UInt8) (count : Nat)
  | adapterWrite (device register : UInt8) (length : Nat)
  | probed (device : UInt8)
  | registerRead (register : String) (v : Value)
  | registerWritten (register : String) (v : Value)
  /-- A string of this length takes no transaction. -/
  | textSkipped (register : String) (length : Int32)
  /-- A string was read, in this many bytes. -/
  | textRead (register : String) (requested : Int32) (count : Nat)
  /-- A string was too long for one transaction. -/
  | textCut (register : String) (whole length : Nat)
  /-- A string was written, in this many bytes. -/
  | textWritten (register : String) (length : Nat)
  | operationSent (operation : Operation)
  /-- The mandatory fields of a record were read. -/
  | mandatoryRead (id nameLength : Int32) (bitmap : Bitmap)
  | committed (id : Int32) (name : String) (bitmap : Bitmap)
  /-- A record was not written to its end. -/
  | abandoned (id : Int32) (stage : Stage) (error : TagError)
  /-- A field of a record has no optional register. -/
  | fieldIgnored (name : String)
  deriving DecidableEq, Repr

namespace Notice

/-- The speaker of notices about registers in memory. -/
def memoryTarget : String := "filaman_bus::memory"

def adapterTarget : String := "filaman_bus::i2c"

/-- The speaker of notices about single registers. -/
def registerTarget : String := "filaman_bus::transport"

def recordTarget : String := "filaman_bus::device"

def int (i : Int32) : Detail := .shown (String.ofList (Number.Numeral.ofInt i.toInt).text)

def readDetails (device register : UInt8) (count : Nat) : List (String × Detail) :=
  [("device", .number device.toNat), ("register", .number register.toNat), ("count", .number count)]

def writeDetails (device register : UInt8) (length : Nat) : List (String × Detail) :=
  [("device", .number device.toNat), ("register", .number register.toNat), ("len", .number length)]

def entry : Notice → Entry
  | .memoryRead device register count =>
    ⟨.trace, memoryTarget, "memory bus read", readDetails device register count⟩
  | .memoryWrite device register length =>
    ⟨.trace, memoryTarget, "memory bus write", writeDetails device register length⟩
  | .adapterOpened path => ⟨.debug, adapterTarget, "Opened i2c bus", [("path", .shown path)]⟩
  | .adapterRead device register count =>
    ⟨.trace, adapterTarget, "i2c read", readDetails device register count⟩
  | .adapterWrite device register length =>
    ⟨.trace, adapterTarget, "i2c write", writeDetails device register length⟩
  | .probed device =>
    ⟨.info, registerTarget, "Filament manager responded to probe",
      [("device", .number device.toNat)]⟩
  | .registerRead register v =>
    ⟨.debug, registerTarget, "Read register",
      [("register", .text register), ("value", .shown v.shown)]⟩
  | .registerWritten register v =>
    ⟨.debug, registerTarget, "Wrote register",
      [("register", .text register), ("value", .shown v.shown)]⟩
  | .textSkipped register length =>
    ⟨.debug, registerTarget, "Skipping empty string read",
      [("register", .text register), ("length", int length)]⟩
  | .textRead register requested count =>
    ⟨.debug, registerTarget, "Read string register",
      [("register", .text register), ("requested", int requested), ("count", .number count)]⟩
  | .textCut register whole length =>
    ⟨.debug, registerTarget, "String truncated to block size",
      [("register", .text register), ("original_len", .number whole),
        ("len", .number length)]⟩
  | .textWritten register length =>
    ⟨.debug, registerTarget, "Wrote string register",
      [("register", .text register), ("len", .number length)]⟩
  | .operationSent operation =>
    ⟨.info, registerTarget, "Sent operation", [("operation", .shown operation.label)]⟩
  | .mandatoryRead id nameLength bitmap =>
    ⟨.debug, recordTarget, "Read mandatory fields",
      [("id", int id), ("name_len", int nameLength), ("bitmap", .shown bitmap.shown)]⟩
  | .committed id name bitmap =>
    ⟨.info, recordTarget, "Filament record committed",
      [("id", int id), ("name", .shown name), ("bitmap", .shown bitmap.shown)]⟩
  | .abandoned id stage error =>
    ⟨.warn, recordTarget, "Filament record write abandoned before commit",
      [("id", int id), ("stage", .shown stage.label), ("error", .shown error.message)]⟩
  | .fieldIgnored name =>
    ⟨.debug, recordTarget, "Ignoring field without an optional register",
      [("field", .shown name)]⟩

end Notice

end SpoolTag
