/-!
# Binary floating-point formats

A binary format keeps a number as a sign bit, an exponent field and a fraction field. Everything
here works on the *magnitude*: the bits without the sign, read as a natural number. Magnitudes are
ordered like the numbers they stand for, and all arithmetic is exact on natural numbers, so a
rounding is one division.

* `Format.units` gives the number that a magnitude stands for, in units of the least positive one;
* `Format.round` gives the magnitude nearest to a quotient, a tie going to the even one, and
  infinity from half a unit past the largest finite number;
* `Format.product` and `Format.quotient` are the exact results, rounded.
-/

namespace SpoolTag.Number

/-- A binary format, by the widths of its fraction field and of its exponent field. -/
structure Format where
  fractionBits : Nat
  exponentBits : Nat
  deriving DecidableEq, Repr

namespace Format

/-- Single precision: 32 bits in all. -/
def single : Format := ⟨23, 8⟩

/-- Double precision: 64 bits in all. -/
def double : Format := ⟨52, 11⟩

/-- The least positive magnitude stands for `2 ^ (-scale)`. -/
def scale (f : Format) : Nat := (1 <<< (f.exponentBits - 1)) - 2 + f.fractionBits

/-- The magnitude of infinity; those above it are not numbers. -/
def infinity (f : Format) : Nat := ((1 <<< f.exponentBits) - 1) <<< f.fractionBits

/-- The weight of the sign bit. -/
def signWeight (f : Format) : Nat := 1 <<< (f.fractionBits + f.exponentBits)

/-- The significand of a finite magnitude: its fraction field, with the leading bit where the
exponent field is not zero. -/
def significand (f : Format) (b : Nat) : Nat :=
  if b >>> f.fractionBits = 0 then b
  else (1 <<< f.fractionBits) + b % (1 <<< f.fractionBits)

/-- How many times the significand of a finite magnitude is doubled, counted in units of the least
positive number. -/
def doublings (f : Format) (b : Nat) : Nat := (b >>> f.fractionBits) - 1

/-- The number a finite magnitude stands for, in units of the least positive number. -/
def units (f : Format) (b : Nat) : Nat := f.significand b <<< f.doublings b

end Format

/-- The integer nearest to `num / den`, a tie going to the even one. -/
def nearest (num den : Nat) : Nat :=
  let q := num / den
  let twice := 2 * (num % den)
  if twice < den then q else if den < twice then q + 1 else q + q % 2

/-- The number of binary digits. -/
def bitLength (n : Nat) : Nat := if n = 0 then 0 else Nat.log2 n + 1

namespace Format

/-- The magnitude nearest to `num / den`, a tie going to the even one. -/
def round (f : Format) (num den : Nat) : Nat :=
  let whole := num <<< f.scale
  let steps := bitLength (whole / den) - (f.fractionBits + 1)
  min ((steps <<< f.fractionBits) + nearest whole (den <<< steps)) f.infinity

/-- The product of two finite magnitudes, rounded. -/
def product (f : Format) (a b : Nat) : Nat :=
  f.round (f.units a * f.units b) (1 <<< (2 * f.scale))

/-- The quotient of two finite magnitudes, the second not zero, rounded. -/
def quotient (f : Format) (a b : Nat) : Nat := f.round (f.units a) (f.units b)

/-- A finite magnitude of one format, rounded to another. -/
def convert (source target : Format) (b : Nat) : Nat :=
  if b < source.infinity then target.round (source.units b) (1 <<< source.scale)
  else target.infinity

/-- The integer that a finite magnitude stands for, if it is one. -/
def integer? (f : Format) (b : Nat) : Option Nat :=
  if b < f.infinity ∧ f.units b % (1 <<< f.scale) = 0 then some (f.units b >>> f.scale) else none

end Format

end SpoolTag.Number
