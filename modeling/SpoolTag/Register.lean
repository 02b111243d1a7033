import SpoolTag.Value

/-!
# Registers

The filament manager is driven through registers at one-byte addresses. This module names the ones
the library looks for and gives the register table of the device.
-/

namespace SpoolTag

/-- One register: its name, its address and what it holds. -/
structure Register where
  name : String
  address : UInt8
  kind : Kind
  deriving DecidableEq, Repr

namespace Register

/-! ### Names -/

/-- Accepts operation codes. -/
def operation : String := "operation"

/-- Tells whether a spool is present. -/
def present : String := "present"

/-- Tells whether the tag of the spool holds a valid record. -/
def nfcValid : String := "nfc_valid"

/-- The number of the filament. -/
def filamentId : String := "filament_id"

/-- The number of bytes in the name of the filament. -/
def filamentNameLen : String := "filament_name_len"

/-- The name of the filament. -/
def filamentName : String := "filament_name"

/-- The weight of the empty spool. -/
def spoolWeight : String := "spool_weight"

/-- The weight of the spool with the filament. -/
def totalWeight : String := "total_weight"

/-- Tells which optional registers carry a value. -/
def optBitmap : String := "opt_bitmap"

/-! ### The device -/

/-- The registers of the device. -/
def standard : List Register :=
  [⟨operation, 0x0F, .byte⟩,
   ⟨present, 0x00, .bool⟩,
   ⟨nfcValid, 0x01, .bool⟩,
   ⟨filamentId, 0x02, .int32⟩,
   ⟨filamentNameLen, 0x03, .int32⟩,
   ⟨filamentName, 0x04, .utf8String⟩,
   ⟨spoolWeight, 0x05, .int32⟩,
   ⟨totalWeight, 0x06, .int32⟩,
   ⟨optBitmap, 0x07, .byte⟩,
   ⟨"extr_multiplier", 0x08, .float32⟩,
   ⟨"pressure_advance", 0x09, .float32⟩,
   ⟨"extr_temp", 0x0A, .int32⟩,
   ⟨"bed_temp", 0x0B, .int32⟩,
   ⟨"regular_fan", 0x0C, .int32⟩,
   ⟨"bridge_fan", 0x0D, .int32⟩]

/-- The most bytes one transaction can carry for a string. -/
def maxStringBytes : Nat := 32

end Register

/-- The codes the operation register accepts. -/
inductive Operation where
  /-- Apply every register write since the last time. -/
  | commit
  deriving DecidableEq, Repr

namespace Operation

/-- The byte that is written for the operation. -/
def code : Operation → UInt8
  | .commit => 0

/-- The name of the operation in messages. -/
def label : Operation → String
  | .commit => "Commit"

end Operation

end SpoolTag
