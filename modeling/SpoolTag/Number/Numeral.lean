import SpoolTag.Number.Shortest

/-!
# Numerals

A numeral is a number as it is spelled: a sign, the digits before the point, the digits after it,
and a power of ten. A decimal is spelled positionally, with zeros up to the point, or with one digit
before the point and an exponent. Which of the two, whether a whole number still gets a fraction,
and which of two equally near decimals is taken, is a `Style`; the library spells numbers in three
of them.
-/

namespace SpoolTag.Number

/-- The exponent part of a numeral. -/
structure Exponent where
  negative : Bool
  digits : List Char
  deriving DecidableEq, Repr

/-- A number as it is spelled. An empty fraction stands for no point at all. -/
structure Numeral where
  negative : Bool := false
  whole : List Char
  fraction : List Char := []
  exponent : Option Exponent := none
  deriving DecidableEq, Repr

namespace Numeral

/-- The characters of a numeral; the exponent always shows its sign. -/
def text (n : Numeral) : List Char :=
  (if n.negative then ['-'] else []) ++ n.whole ++
    (if n.fraction = [] then [] else '.' :: n.fraction) ++
    match n.exponent with
    | none => []
    | some e => 'e' :: (if e.negative then '-' else '+') :: e.digits

def ofInt (i : Int) : Numeral := { negative := i < 0, whole := Nat.toDigits 10 i.natAbs }

end Numeral

namespace Decimal

def digits (d : Decimal) : List Char := Nat.toDigits 10 d.coefficient

/-- The power of ten of the first digit. -/
def leading (d : Decimal) : Int := d.exponent + d.digits.length - 1

/-- The decimal with a point where one is needed; `pointed` asks for a fraction in any case. -/
def positional (d : Decimal) (pointed : Bool) : Numeral :=
  let places := (-d.exponent).toNat
  let count := d.digits.length
  if places = 0 then
    { whole := d.digits ++ List.replicate d.exponent.toNat '0'
      fraction := if pointed then ['0'] else [] }
  else if places < count then
    { whole := d.digits.take (count - places), fraction := d.digits.drop (count - places) }
  else { whole := ['0'], fraction := List.replicate (places - count) '0' ++ d.digits }

/-- One digit, the others after a point, and the power of ten. -/
def scientific (d : Decimal) : Numeral :=
  { whole := d.digits.take 1
    fraction := d.digits.drop 1
    exponent := some ⟨d.leading < 0, Nat.toDigits 10 d.leading.natAbs⟩ }

end Decimal

/-- How numbers are spelled. -/
structure Style where
  /-- The choice between two decimals at the same distance. -/
  tie : Tie
  /-- Whether a decimal with this power of ten in front is spelled positionally. -/
  plain : Int → Bool
  /-- Whether a whole number gets a fraction. -/
  pointed : Bool

namespace Style

/-- Numbers in messages are always positional, and whole numbers are bare. -/
def shown : Style := ⟨.up, fun _ => true, false⟩

/-- Single-precision numbers in documents are positional from a millionth up to a trillion. -/
def documentSingle : Style := ⟨.even, fun e => -6 ≤ e && e ≤ 12, true⟩

/-- Double-precision numbers in documents are positional from `1e-5` up to `1e15`. -/
def documentDouble : Style := ⟨.even, fun e => -5 ≤ e && e ≤ 15, true⟩

def decimal (s : Style) (d : Decimal) : Numeral :=
  if s.plain d.leading then d.positional s.pointed else d.scientific

/-- The numeral of a finite magnitude of format `f`, with its sign. -/
def numeral (s : Style) (f : Format) (negative : Bool) (b : Nat) : Numeral :=
  { (if b = 0 then (⟨0, 0⟩ : Decimal).positional s.pointed
      else s.decimal (f.shortest s.tie b)) with negative }

end Style

end SpoolTag.Number
