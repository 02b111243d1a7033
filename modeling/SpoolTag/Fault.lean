import SpoolTag.Register
import SpoolTag.SystemError
import SpoolTag.Text.Utf8

/-!
# Faults

What can go wrong between the host and a tag, by cause. A `BusError` is the failure of one
transaction; a `TagError` is the failure of an operation. The wording of each stands in one place,
its `message`.
-/

namespace SpoolTag

/-- Why a transaction could not be carried out at all. -/
inductive IoError where
  /-- The operating system refused, with this number. -/
  | system (code : Nat)
  /-- A name holds the character that ends names. -/
  | nulInName
  /-- The bus gave a reason of its own. -/
  | other (reason : String)
  deriving DecidableEq, Repr

def IoError.message : IoError → String
  | .system code => SystemError.message code
  | .nulInName => "file name contained an unexpected NUL byte"
  | .other reason => reason

/-- The failure of one bus transaction. -/
inductive BusError where
  | io (cause : IoError)
  | noAcknowledge (device : UInt8)
  deriving DecidableEq, Repr

def BusError.message : BusError → String
  | .io cause => s!"Bus I/O error: {cause.message}"
  | .noAcknowledge device => s!"No acknowledgment from device 0x{Text.hexByte device}"

/-- What is wrong with a list of registers. -/
inductive LayoutFault where
  | duplicateName (name : String)
  | duplicateAddress (address : UInt8) (name : String)
  | noBitmap
  | bitmapNotByte
  | bitmapLast
  | tooManyOptional (count : Nat)
  | gap (name : String) (address start : UInt8)
  | optionalString (name : String)
  deriving DecidableEq, Repr

def LayoutFault.message : LayoutFault → String
  | .duplicateName name => s!"duplicate register name {name}"
  | .duplicateAddress address name => s!"duplicate address 0x{Text.hexByte address} ({name})"
  | .noBitmap => "missing opt_bitmap register"
  | .bitmapNotByte => "opt_bitmap must be a byte register"
  | .bitmapLast => "opt_bitmap cannot be the last address"
  | .tooManyOptional count => s!"{count} optional registers do not fit in a bitmap byte"
  | .gap name address start =>
    s!"optional register {name} at 0x{Text.hexByte address} breaks the contiguous run " ++
      s!"from 0x{Text.hexByte start}"
  | .optionalString name => s!"optional register {name} cannot be a string"

/-- The failure of an operation on registers or records. -/
inductive TagError where
  | deviceUnavailable (device : UInt8) (cause : BusError)
  /-- The catalog has no register of this name. -/
  | unknownRegister (name : String)
  /-- A string register was given to an operation on scalars. -/
  | unsupportedKind (register : String) (kind : Kind)
  /-- The bytes of a string are not UTF-8. -/
  | badText (register : String) (fault : Text.Utf8.Malformed)
  /-- The bitmap has no bit for the register. -/
  | notOptional (register : String) (address : UInt8)
  /-- A value does not convert to what the register holds. -/
  | kindMismatch (register : String) (expected : Kind)
  /-- A read gave another number of bytes than was asked for. -/
  | malformedResponse (register : String) (expected actual : Nat)
  /-- The registers do not form a catalog. -/
  | invalidCatalog (fault : LayoutFault)
  deriving DecidableEq, Repr

namespace TagError

def message : TagError → String
  | .deviceUnavailable device cause =>
    s!"Device 0x{Text.hexByte device} unavailable: {cause.message}"
  | .unknownRegister name => s!"Unknown register: {name}"
  | .unsupportedKind register kind =>
    s!"Register {register} has type {kind.label}, which the generic path cannot transfer"
  | .badText register fault => s!"Register {register} returned invalid UTF-8: {fault.message}"
  | .notOptional register address =>
    s!"Register {register} (0x{Text.hexByte address}) is not covered by the optional bitmap"
  | .kindMismatch register expected =>
    s!"Value for {register} cannot be represented as {expected.label}"
  | .malformedResponse register expected actual =>
    s!"Register {register}: expected {expected} bytes, got {actual}"
  | .invalidCatalog fault => s!"Invalid register catalog: {fault.message}"

/-- Whether the bus failed, rather than the catalog or a value. -/
def isDeviceUnavailable : TagError → Bool
  | .deviceUnavailable _ _ => true
  | _ => false

end TagError

/-- The value as one of the kind a register holds, or the mismatch. -/
def Value.coerce (v : Value) (kind : Kind) (register : String) : Except TagError Value :=
  match v.coerce? kind with
  | some w => .ok w
  | none => .error (.kindMismatch register kind)

end SpoolTag
