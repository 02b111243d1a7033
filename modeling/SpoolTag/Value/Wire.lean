import SpoolTag.Fault

/-!
# Values on the wire

Words of 32 bits travel as four bytes, the lowest first; truth values and bytes travel as one byte,
and every byte but zero reads as true. Strings do not go this way.
-/

namespace SpoolTag

/-- Four bytes, the lowest first. -/
def wordBytes (w : UInt32) : List UInt8 :=
  (List.range 4).map fun i => UInt8.ofNat (w.toNat >>> (8 * i))

/-- The number that bytes spell, the lowest first. -/
def littleEndian : List UInt8 → Nat
  | [] => 0
  | b :: rest => b.toNat + 256 * littleEndian rest

namespace Value

def bytes : Value → List UInt8
  | .bool b => [if b then 1 else 0]
  | .byte b => [b]
  | .int32 i => wordBytes i.toUInt32
  | .float32 x => wordBytes x.bits

end Value

namespace Register

/-- The bytes by which a register takes a value of its own kind. -/
def encode (r : Register) (v : Value) : Except TagError (List UInt8) :=
  if r.kind = .utf8String then .error (.unsupportedKind r.name r.kind)
  else if v.kind = r.kind then .ok v.bytes
  else .error (.kindMismatch r.name r.kind)

/-- The value that the bytes of a register spell. -/
def decode (r : Register) (bytes : List UInt8) : Except TagError Value :=
  match r.kind.width? with
  | none => .error (.unsupportedKind r.name r.kind)
  | some width =>
    if bytes.length ≠ width then .error (.malformedResponse r.name width bytes.length)
    else
      match r.kind with
      | .bool => .ok (.bool (littleEndian bytes != 0))
      | .byte => .ok (.byte (UInt8.ofNat (littleEndian bytes)))
      | .int32 => .ok (.int32 (UInt32.ofNat (littleEndian bytes)).toInt32)
      | .float32 => .ok (.float32 ⟨UInt32.ofNat (littleEndian bytes)⟩)
      | .utf8String => .error (.unsupportedKind r.name r.kind)

end Register

end SpoolTag
