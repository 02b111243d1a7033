import SpoolTag.Number.Single

/-!
# The numbers of a document

A numeral without fraction and exponent is an integer as long as it fits 64 bits, with a sign or
without; a negative zero is not. Everything else is a double-precision number, found as follows. The
digits are gathered into a whole number while that fits 64 bits; digits that do not fit are dropped,
those before the point leaving a power of ten behind. The whole number is rounded to double
precision and then multiplied or divided, with one rounding, by the power of ten, itself rounded. A
result beyond the range of double precision is no number at all, even where the number that is
written is within it; one that is too small is zero.
-/

namespace SpoolTag.Json

open SpoolTag.Number

/-- The number that a numeral stands for. -/
inductive Number where
  | integer (i : Int)
  | float (negative : Bool) (magnitude : Nat)
  deriving DecidableEq, Repr

/-- The digits of a number that have been gathered so far, and how many of them there are. -/
structure Gathered where
  total : Nat
  count : Nat
  deriving DecidableEq, Repr

/-- Appends digits while the whole fits 64 bits. -/
def Gathered.extend (g : Gathered) : List Char → Gathered
  | [] => g
  | c :: rest =>
    let total := g.total * 10 + (c.toNat - '0'.toNat)
    if total < UInt64.size then Gathered.extend ⟨total, g.count + 1⟩ rest else g

/-- The power of ten that the exponent part stands for. -/
def exponentValue : Option Exponent → Int
  | none => 0
  | some e =>
    let size : Int := (Nat.ofDigitChars 10 e.digits 0 : Nat)
    if e.negative then -size else size

/-- `10 ^ n` as a magnitude of double precision. -/
def powerOfTen (n : Nat) : Nat := Format.double.round (Nat.pow 10 n) 1

/-- A magnitude times a power of ten, which has to be finite. Powers below `10 ^ -308` are reached
in steps; three of them take every whole number of 64 bits to zero. -/
def scale? : Nat → Nat → Int → Option Nat
  | 0, _, _ => some 0
  | steps + 1, b, exponent =>
    if exponent.natAbs ≤ 308 then
      let power := powerOfTen exponent.natAbs
      if 0 ≤ exponent then
        let product := Format.double.product b power
        if product < Format.double.infinity then some product else none
      else some (Format.double.quotient b power)
    else if b = 0 then some 0
    else if 0 ≤ exponent then none
    else scale? steps (Format.double.quotient b (powerOfTen 308)) (exponent + 308)

namespace Number

/-- The number that a numeral stands for; none when working it out leads beyond the range of double
precision. -/
def ofNumeral? (n : Numeral) : Option Number :=
  let whole := Gathered.extend ⟨0, 0⟩ n.whole
  if n.fraction = [] ∧ n.exponent = none ∧ whole.count = n.whole.length ∧
      (if n.negative then 0 < whole.total ∧ 2 * whole.total ≤ UInt64.size else True) then
    some (.integer (if n.negative then -whole.total else whole.total))
  else
    let all := whole.extend n.fraction
    let exponent : Int :=
      (n.whole.length - whole.count : Nat) - (all.count - whole.count : Nat) +
        exponentValue n.exponent
    (scale? 4 (Format.double.round all.total 1) exponent).map (.float n.negative)

def toSingle : Number → Single
  | .integer i => .ofInt i
  | .float negative b => .ofParts negative (Format.double.convert .single b)

/-- The numeral by which messages quote the number. -/
def numeral : Number → Numeral
  | .integer i => .ofInt i
  | .float negative b => Style.documentDouble.numeral .double negative b

end Number

end SpoolTag.Json
