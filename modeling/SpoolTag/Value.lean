import SpoolTag.Number.Single
import SpoolTag.Text.Hex

/-!
# Register values

The four kinds of scalar a register can hold, beside the kind for strings, which have no fixed
width and are no `Value`. A value converts to another kind only when nothing is lost: `coerce?` is
the whole table of conversions.
-/

namespace SpoolTag

open SpoolTag.Number

/-- What a register holds. -/
inductive Kind where
  | bool
  | int32
  | float32
  | byte
  | utf8String
  deriving DecidableEq, Repr

namespace Kind

/-- The number of bytes of one transaction; strings have none of their own. -/
def width? : Kind → Option Nat
  | .bool | .byte => some 1
  | .int32 | .float32 => some 4
  | .utf8String => none

/-- The name of the kind in documents. -/
def name : Kind → String
  | .bool => "bool"
  | .int32 => "int32"
  | .float32 => "float32"
  | .byte => "byte"
  | .utf8String => "utf8string"

/-- The name of the kind in messages. -/
def label : Kind → String
  | .bool => "Bool"
  | .int32 => "Int32"
  | .float32 => "Float32"
  | .byte => "Byte"
  | .utf8String => "Utf8String"

/-- Every kind, in the order in which messages list them. -/
def all : List Kind := [.bool, .int32, .float32, .byte, .utf8String]

/-- The kind with the given name in documents. -/
def ofName? (name : String) : Option Kind := all.find? (·.name == name)

end Kind

/-- A scalar register value. -/
inductive Value where
  | bool (b : Bool)
  | int32 (i : Int32)
  | float32 (x : Single)
  | byte (b : UInt8)
  deriving DecidableEq, Repr

namespace Value

def kind : Value → Kind
  | .bool _ => .bool
  | .int32 _ => .int32
  | .float32 _ => .float32
  | .byte _ => .byte

/-- Whether an integer is in the range of 32 bits with a sign. -/
def inInt32 (i : Int) : Bool := -2147483648 ≤ i && i < 2147483648

/-- The value as one of another kind, when that keeps the number. An integer becomes the nearest
single-precision number, and a single-precision number that is an integer in range becomes that
integer. -/
def coerce? : Value → Kind → Option Value
  | .bool b, .bool => some (.bool b)
  | .int32 i, .int32 => some (.int32 i)
  | .float32 x, .float32 => some (.float32 x)
  | .byte b, .byte => some (.byte b)
  | .int32 i, .float32 => some (.float32 (.ofInt i.toInt))
  | .int32 i, .byte =>
    if 0 ≤ i.toInt ∧ i.toInt < 256 then some (.byte (UInt8.ofNat i.toInt.toNat)) else none
  | .int32 i, .bool =>
    if i.toInt = 0 then some (.bool false) else if i.toInt = 1 then some (.bool true) else none
  | .byte b, .int32 => some (.int32 (Int32.ofNat b.toNat))
  | .byte b, .float32 => some (.float32 (.ofInt b.toNat))
  | .bool b, .int32 => some (.int32 (if b then 1 else 0))
  | .bool b, .byte => some (.byte (if b then 1 else 0))
  | .float32 x, .int32 =>
    match x.toInt? with
    | some i => if inInt32 i then some (.int32 (Int32.ofInt i)) else none
    | none => none
  | _, _ => none

/-- The truth value, if it is one. -/
def bool? : Value → Option Bool
  | .bool b => some b
  | _ => none

def int32? : Value → Option Int32
  | .int32 i => some i
  | _ => none

def byte? : Value → Option UInt8
  | .byte b => some b
  | _ => none

def shown : Value → String
  | .bool b => if b then "true" else "false"
  | .int32 i => String.ofList (Numeral.ofInt i.toInt).text
  | .float32 x => x.shown
  | .byte b => "0x" ++ Text.hexByte b

/-- Equality of values of one kind, numbers compared as numbers. -/
def same : Value → Value → Bool
  | .float32 x, .float32 y => x.same y
  | v, w => v == w

end Value

end SpoolTag
