import SpoolTag.Fault

/-!
# Register catalogs

A catalog is a list of registers in which every register can be found by name and the optional
ones can be numbered by the bits of one byte. `Layout.of` checks a list and finds the two things
the bitmap relies on: the first address it covers, and the optional registers in the order of their
bits. A `Catalog` carries the proof that its registers passed.
-/

namespace SpoolTag

/-- What the bitmap relies on: the first address it covers, and the registers from there on. -/
structure Layout where
  start : UInt8
  optional : List Register
  deriving DecidableEq, Repr

namespace Layout

/-- The first register whose name or address already occurred; a repeated name is reported before
a repeated address. -/
def repetition? (names : List String) (addresses : List UInt8) : List Register → Option LayoutFault
  | [] => none
  | r :: rest =>
    if r.name ∈ names then some (.duplicateName r.name)
    else if r.address ∈ addresses then some (.duplicateAddress r.address r.name)
    else repetition? (r.name :: names) (r.address :: addresses) rest

/-- Puts a register before the first one with a greater address. -/
def insertByAddress (r : Register) : List Register → List Register
  | [] => [r]
  | s :: rest => if r.address ≤ s.address then r :: s :: rest else s :: insertByAddress r rest

/-- The registers in the order of their addresses. -/
def sortByAddress (registers : List Register) : List Register :=
  registers.foldr insertByAddress []

/-- The first register that is not at the address of its bit, the first of them being at `next`, or
that has no fixed width. -/
def misfit? (start : UInt8) (next : Nat) : List Register → Option LayoutFault
  | [] => none
  | r :: rest =>
    if r.address.toNat ≠ next then some (.gap r.name r.address start)
    else if r.kind.width? = none then some (.optionalString r.name)
    else misfit? start (next + 1) rest

/-- The registers that the bitmap has to cover: all from its successor on but the operation
register. -/
def covered (start : UInt8) (registers : List Register) : List Register :=
  sortByAddress
    (registers.filter fun r => start ≤ r.address && r.name != Register.operation)

/-- The layout of a list of registers, or the first thing that is wrong with it. -/
def of (registers : List Register) : Except LayoutFault Layout :=
  match repetition? [] [] registers with
  | some fault => .error fault
  | none =>
    match registers.find? (·.name == Register.optBitmap) with
    | none => .error .noBitmap
    | some bitmap =>
      if bitmap.kind ≠ .byte then .error .bitmapNotByte
      else if bitmap.address = 0xFF then .error .bitmapLast
      else
        let start := bitmap.address + 1
        let optional := covered start registers
        if 8 < optional.length then .error (.tooManyOptional optional.length)
        else
          match misfit? start start.toNat optional with
          | some fault => .error fault
          | none => .ok ⟨start, optional⟩

end Layout

/-- A list of registers with a sound layout. -/
structure Catalog where
  registers : List Register
  layout : Layout
  sound : Layout.of registers = .ok layout

namespace Catalog

/-- The catalog of a list of registers, if the layout is sound. -/
def ofRegisters (registers : List Register) : Except TagError Catalog :=
  match sound : Layout.of registers with
  | .ok layout => .ok ⟨registers, layout, sound⟩
  | .error fault => .error (.invalidCatalog fault)

/-- The catalog of the device: the bitmap covers six registers from address eight on. -/
def standard : Catalog where
  registers := Register.standard
  layout := ⟨0x08, Register.standard.drop 9⟩
  sound := by rfl

/-- The first address the bitmap covers. -/
def start (c : Catalog) : UInt8 := c.layout.start

/-- The optional registers; the position of each is the index of its bit. -/
def optional (c : Catalog) : List Register := c.layout.optional

def lookup (c : Catalog) (name : String) : Except TagError Register :=
  match c.registers.find? (·.name == name) with
  | some r => .ok r
  | none => .error (.unknownRegister name)

/-- Whether the register, with its address and kind, is one of the optional ones. -/
def isOptional (c : Catalog) (r : Register) : Bool := c.optional.contains r

/-- The index of the bit of an optional register. -/
def bitIndex (c : Catalog) (r : Register) : Except TagError UInt8 :=
  if r.address < c.start ∨ ¬ c.isOptional r then .error (.notOptional r.name r.address)
  else .ok (r.address - c.start)

end Catalog

end SpoolTag
