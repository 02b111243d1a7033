import SpoolTag.Manager.Registers
import SpoolTag.Record

/-!
# Reading and writing tags

Whole records are put together from single registers. The mandatory registers always take part; of
the optional ones those that the bitmap names. A record counts as written once the commit operation
has been sent after everything else, and all its optional values are converted before the first
transaction.
-/

namespace SpoolTag

namespace Manager

/-! ### Reading -/

/-- The value in a register, seen as what it should hold. -/
def readAs {α : Type} (m : Manager) (name : String) (expected : Kind) (view : Value → Option α) :
    Attempt α := do
  let r ← m.register name
  let v ← m.read r
  match view v with
  | some a => pure a
  | none => throw (.kindMismatch r.name expected)

def readBool (m : Manager) (name : String) : Attempt Bool := m.readAs name .bool Value.bool?

def readInt32 (m : Manager) (name : String) : Attempt Int32 := m.readAs name .int32 Value.int32?

def readByte (m : Manager) (name : String) : Attempt UInt8 := m.readAs name .byte Value.byte?

/-- Reads the two flags and nothing else. -/
def readStatus (m : Manager) : Attempt Status := do
  let present ← m.readBool Register.present
  let nfcValid ← m.readBool Register.nfcValid
  pure { present, nfcValid }

/-- Reads registers one after the other into fields of their names. -/
def readFields (m : Manager) (fields : Fields) : List Register → Attempt Fields
  | [] => pure fields
  | r :: rest => do
    let v ← m.read r
    m.readFields (fields.insert r.name v) rest

def readRecord (m : Manager) : Attempt Record := do
  let nameLength ← m.readInt32 Register.filamentNameLen
  let id ← m.readInt32 Register.filamentId
  let nameRegister ← m.register Register.filamentName
  let name ← m.readText nameRegister nameLength
  let spoolWeight ← m.readInt32 Register.spoolWeight
  let totalWeight ← m.readInt32 Register.totalWeight
  let bitmap : Bitmap := ⟨← m.readByte Register.optBitmap⟩
  Attempt.report (.mandatoryRead id nameLength bitmap)
  let optional ← m.readFields .empty (bitmap.presentIn m.catalog.optional)
  pure { id, name, spoolWeight, totalWeight, optional }

/-! ### Writing -/

/-- An optional register that takes part in a write: its bit, and its value converted to what it
holds. -/
structure Prepared where
  register : Register
  index : UInt8
  value : Value
  deriving DecidableEq, Repr

/-- The optional registers named in the fields, in the order of their bits. -/
def prepare (catalog : Catalog) (fields : Fields) :
    List Register → Except TagError (List Prepared)
  | [] => .ok []
  | r :: rest =>
    match fields.get? r.name with
    | none => prepare catalog fields rest
    | some v => do
      let index ← catalog.bitIndex r
      let value ← v.coerce r.kind r.name
      let others ← prepare catalog fields rest
      pure ({ register := r, index, value } :: others)

/-- The bits of the registers that take part. -/
def bitmapOf (prepared : List Prepared) : Bitmap :=
  prepared.foldl (fun bitmap p => bitmap.insert p.index) .empty

/-- Writes a value into the register with the given name. -/
def writeNamed (m : Manager) (name : String) (v : Value) : Attempt Unit := do
  let r ← m.register name
  m.write r v

/-- Writes the fields that every record has. -/
def writeMandatory (m : Manager) (record : Record) : Attempt Unit := do
  m.writeNamed Register.filamentId (.int32 record.id)
  let nameRegister ← m.register Register.filamentName
  let lengthRegister ← m.register Register.filamentNameLen
  let _ ← m.writeText nameRegister record.name lengthRegister
  m.writeNamed Register.spoolWeight (.int32 record.spoolWeight)
  m.writeNamed Register.totalWeight (.int32 record.totalWeight)

/-- Writes the optional registers that take part. -/
def writeOptional (m : Manager) : List Prepared → Attempt Unit
  | [] => pure ()
  | p :: rest => do
    m.write p.register p.value
    m.writeOptional rest

/-- Why a record was not written to its end, and how far it had got. -/
structure Abandoned where
  stage : Stage
  error : TagError
  deriving DecidableEq, Repr

/-- A part of the writing of a record that starts at a stage. -/
def during {α : Type} (stage : Stage) (part : Attempt α) : ExceptT Abandoned Dialog α :=
  ExceptT.adapt (fun error => ⟨stage, error⟩) part

/-- Writes all of a record and commits it. -/
def writeStages (m : Manager) (record : Record) (prepared : List Prepared) :
    ExceptT Abandoned Dialog Unit := do
  during .idle (m.writeMandatory record)
  during .mandatoryWritten (m.writeOptional prepared)
  during .optionalWritten (m.writeNamed Register.optBitmap (.byte (bitmapOf prepared).bits))
  during .bitmapWritten (m.send .commit)

/-- Reports the fields that have no optional register. -/
def reportIgnored (m : Manager) : List String → Attempt Unit
  | [] => pure ()
  | name :: rest => do
    unless m.catalog.optional.any (·.name == name) do Attempt.report (.fieldIgnored name)
    m.reportIgnored rest

/-- Writes a record to the tag and commits it. -/
def writeRecord (m : Manager) (record : Record) : Attempt Unit := do
  m.reportIgnored record.optional.names
  let prepared ← Attempt.ofExcept (prepare m.catalog record.optional m.catalog.optional)
  match ← ((m.writeStages record prepared).run : Dialog (Except Abandoned Unit)) with
  | .ok () => Attempt.report (.committed record.id record.name (bitmapOf prepared))
  | .error ⟨stage, error⟩ =>
    Attempt.report (.abandoned record.id stage error)
    throw error

end Manager

end SpoolTag
