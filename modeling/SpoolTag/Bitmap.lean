import SpoolTag.Catalog

/-!
# The bitmap of optional registers

One byte tells which optional registers carry a value: bit `i`, the lowest being bit zero, belongs
to the optional register at position `i`.
-/

namespace SpoolTag

/-- The presence bits of the optional registers. -/
structure Bitmap where
  bits : UInt8
  deriving DecidableEq, Repr

namespace Bitmap

/-- No register is present. -/
def empty : Bitmap := ⟨0⟩

/-- The bitmap with one more bit set. -/
def insert (m : Bitmap) (index : UInt8) : Bitmap := ⟨m.bits ||| (1 <<< index)⟩

/-- Whether a bit is set; there are eight. -/
def contains (m : Bitmap) (index : UInt8) : Bool :=
  index < 8 && (m.bits >>> index) &&& 1 != 0

/-- The registers whose bit is set, the first one having bit `index`. A position is looked up by
its lowest eight bits. -/
def presentFrom (m : Bitmap) (index : Nat) : List Register → List Register
  | [] => []
  | r :: rest =>
    if m.contains (UInt8.ofNat index) then r :: m.presentFrom (index + 1) rest
    else m.presentFrom (index + 1) rest

/-- The registers whose bit is set, in the order of the bits. -/
def presentIn (m : Bitmap) (optional : List Register) : List Register :=
  m.presentFrom 0 optional

def shown (m : Bitmap) : String := "0b" ++ Text.binaryByte m.bits

end Bitmap

end SpoolTag
