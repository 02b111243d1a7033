import SpoolTag.Number.Numeral

/-!
# Single-precision numbers

A single-precision number is its 32 bits. Two numbers are the same value here when their bits are;
`Single.same` is the numerical comparison, under which the two zeros agree and a value that is no
number agrees with nothing.
-/

namespace SpoolTag.Number

/-- A single-precision number, as its bits. -/
structure Single where
  bits : UInt32
  deriving DecidableEq, Repr

namespace Single

/-- Whether the sign bit is set. -/
def negative (x : Single) : Bool := Format.single.signWeight ≤ x.bits.toNat

/-- The bits without the sign. -/
def magnitude (x : Single) : Nat := x.bits.toNat % Format.single.signWeight

/-- Neither infinite nor outside the numbers. -/
def isFinite (x : Single) : Bool := x.magnitude < Format.single.infinity

/-- Neither finite nor infinite. -/
def isNaN (x : Single) : Bool := Format.single.infinity < x.magnitude

/-- The number with the given sign and magnitude. -/
def ofParts (negative : Bool) (magnitude : Nat) : Single :=
  ⟨UInt32.ofNat ((if negative then Format.single.signWeight else 0) + magnitude)⟩

def ofInt (i : Int) : Single := ofParts (i < 0) (Format.single.round i.natAbs 1)

/-- The integer that the number is, if it is one. -/
def toInt? (x : Single) : Option Int :=
  (Format.single.integer? x.magnitude).map fun n => if x.negative then -n else n

/-- Numerical equality. -/
def same (x y : Single) : Bool :=
  !x.isNaN && !y.isNaN && (x.bits == y.bits || (x.magnitude == 0 && y.magnitude == 0))

def shown (x : Single) : String :=
  if x.isNaN then "NaN"
  else if x.isFinite then String.ofList (Style.shown.numeral .single x.negative x.magnitude).text
  else if x.negative then "-inf" else "inf"

/-- The number as documents spell it; one that is not finite has no spelling. -/
def numeral? (x : Single) : Option Numeral :=
  if x.isFinite then some (Style.documentSingle.numeral .single x.negative x.magnitude) else none

end Single

end SpoolTag.Number
