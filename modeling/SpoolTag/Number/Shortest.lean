import SpoolTag.Number.Binary

/-!
# The shortest decimal of a binary number

Every number of a binary format owns an interval: the reals that round to it. The shortest decimal
of the number is the one on the coarsest decimal grid that has a point in this interval, and of two
such points the nearer one. Only the two neighbours of the number on a grid need a look: if any
point of the grid lies in the interval, one of these does.

The interval is kept in quarters of the format's least positive number, where both its ends are
integers. It contains its ends exactly when the significand is even.
-/

namespace SpoolTag.Number

/-- A positive decimal number, `coefficient * 10 ^ exponent`. -/
structure Decimal where
  coefficient : Nat
  exponent : Int
  deriving DecidableEq, Repr

/-- The choice between two decimals at the same distance. -/
inductive Tie where
  | even
  | up
  deriving DecidableEq, Repr

/-- The reals that round to one number, in quarters of the least positive number of its format. -/
structure Interval where
  lower : Nat
  center : Nat
  upper : Nat
  closed : Bool
  deriving DecidableEq, Repr

namespace Interval

/-- Whether `num / den` lies in the interval. -/
def contains (i : Interval) (num den : Nat) : Bool :=
  if i.closed then i.lower * den ≤ num && num ≤ i.upper * den
  else i.lower * den < num && num < i.upper * den

/-- The nearer neighbour of the centre on the grid of step `step / den`, if it lies in the
interval. -/
def gridPoint? (i : Interval) (tie : Tie) (step den : Nat) : Option Nat :=
  let below := i.center * den / step
  let twice := 2 * (i.center * den % step)
  match i.contains (below * step) den, i.contains ((below + 1) * step) den with
  | false, false => none
  | true, false => some below
  | false, true => some (below + 1)
  | true, true =>
    if twice < step then some below
    else if step < twice then some (below + 1)
    else match tie with
      | .up => some (below + 1)
      | .even => some (below + below % 2)

/-- The first of the grids `exponent`, `exponent - 1`, … with a point in the interval, where one of
the interval's quarters is `1 / unit`. -/
def shortest (i : Interval) (tie : Tie) (unit : Nat) : Nat → Int → Decimal
  | 0, exponent => ⟨0, exponent⟩
  | grids + 1, exponent =>
    match i.gridPoint? tie (Nat.pow 10 exponent.toNat * unit) (Nat.pow 10 (-exponent).toNat) with
    | some coefficient => ⟨coefficient, exponent⟩
    | none => i.shortest tie unit grids (exponent - 1)

end Interval

namespace Format

/-- The interval of a positive finite magnitude. Below a power of two the neighbour is half as far
away as above it, unless that power is the least normal number. -/
def interval (f : Format) (b : Nat) : Interval :=
  let center := 4 * f.units b
  let half := 2 <<< f.doublings b
  let lowest := b % (1 <<< f.fractionBits) = 0 ∧ 0 < f.doublings b
  { lower := center - if lowest then half / 2 else half
    center
    upper := center + half
    closed := f.significand b % 2 = 0 }

/-- A decimal exponent above that of a positive finite magnitude: `30103 / 100000` is the logarithm
of two to the base ten. -/
def decimalBound (f : Format) (b : Nat) : Int :=
  ((bitLength (f.units b) : Int) - f.scale) * 30103 / 100000 + 2

/-- The shortest decimal of a positive finite magnitude. -/
def shortest (f : Format) (tie : Tie) (b : Nat) : Decimal :=
  (f.interval b).shortest tie (4 <<< f.scale) (f.fractionBits + 8) (f.decimalBound b)

end Format

end SpoolTag.Number
