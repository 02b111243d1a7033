import SpoolTag.Bus.Dialog
import SpoolTag.Value.Wire

/-!
# Register access

A filament manager is reached at an address of a bus and read and written register by register.
Every operation asks for exactly the transactions it names, once each, and ends with the first that
fails.
-/

namespace SpoolTag

/-- A filament manager that has answered a probe: where it is and what registers it has. -/
structure Manager where
  device : UInt8
  catalog : Catalog

namespace Manager

def «open» (device : UInt8) (catalog : Catalog) : Attempt Manager := do
  let _ ← Attempt.transact (.probe device)
  Attempt.report (.probed device)
  pure ⟨device, catalog⟩

def register (m : Manager) (name : String) : Attempt Register :=
  Attempt.ofExcept (m.catalog.lookup name)

/-! ### Scalars -/

def read (m : Manager) (r : Register) : Attempt Value :=
  match r.kind.width? with
  | none => throw (.unsupportedKind r.name r.kind)
  | some width => do
    let bytes ← Attempt.transact (.read m.device r.address width)
    let v ← Attempt.ofExcept (r.decode bytes)
    Attempt.report (.registerRead r.name v)
    pure v

/-- Writes a register of fixed width; the value is first converted to what the register holds. -/
def write (m : Manager) (r : Register) (v : Value) : Attempt Unit :=
  if r.kind = .utf8String then throw (.unsupportedKind r.name r.kind)
  else do
    let v ← Attempt.ofExcept (v.coerce r.kind r.name)
    let bytes ← Attempt.ofExcept (r.encode v)
    let _ ← Attempt.transact (.write m.device r.address bytes)
    Attempt.report (.registerWritten r.name v)

/-! ### Strings -/

/-- Fails unless the register holds a string. -/
def needText (r : Register) : Attempt Unit :=
  if r.kind = .utf8String then pure () else throw (.kindMismatch r.name .utf8String)

/-- The number of bytes to read for a string of the given length. -/
def textCount (length : Int32) : Nat := min length.toInt.toNat Register.maxStringBytes

/-- Reads a string of the given length, as far as one transaction carries it; there is nothing to
read for a length of zero or less. -/
def readText (m : Manager) (r : Register) (length : Int32) : Attempt String := do
  needText r
  let count := textCount length
  if count = 0 then
    Attempt.report (.textSkipped r.name length)
    pure ""
  else
    let bytes ← Attempt.transact (.read m.device r.address count)
    if bytes.length ≠ count then throw (.malformedResponse r.name count bytes.length)
    else
      match Text.Utf8.decode bytes with
      | .error fault => throw (.badText r.name fault)
      | .ok text =>
        Attempt.report (.textRead r.name length count)
        pure (String.ofList text)

/-- What one transaction carries of a string: the longest run of whole characters that fits. -/
def carried (text : String) : List Char := Text.Utf8.fitting Register.maxStringBytes text.toList

/-- Writes the number of bytes into the length register, and then the bytes of a string. The result
is the number of bytes. -/
def writeText (m : Manager) (r : Register) (text : String) (lengthRegister : Register) :
    Attempt Nat := do
  needText r
  let bytes := Text.Utf8.encode (carried text)
  let whole := (Text.Utf8.encode text.toList).length
  if bytes.length < whole then Attempt.report (.textCut r.name whole bytes.length)
  m.write lengthRegister (.int32 (Int32.ofNat bytes.length))
  let _ ← Attempt.transact (.write m.device r.address bytes)
  Attempt.report (.textWritten r.name bytes.length)
  pure bytes.length

/-! ### Operations -/

def send (m : Manager) (operation : Operation) : Attempt Unit := do
  let r ← m.register Register.operation
  m.write r (.byte operation.code)
  Attempt.report (.operationSent operation)

end Manager

end SpoolTag
