import QueryParams.Decimal.Binary64
import QueryParams.Text.Numeral

/-!
# The shortest decimal

Of the decimals that round to a given binary number, the one with the fewest digits is wanted, and
of several such the nearest. The decimal grids `10 ^ scale` are tried from the coarsest on; on each
only the two neighbours of the number can be the nearest point that rounds to it.

All comparisons are made between integers. The unit of the binary side is a quarter of the spacing
of the binary numbers, so that the ends of the interval that rounds to the number are whole.
-/

namespace QueryParams

/-- The decimal `digits * 10 ^ scale`. -/
structure Decimal where
  digits : Nat
  scale : Int
  deriving DecidableEq, Repr

inductive Tie where
  | upward
  | toEven
  deriving DecidableEq, Repr

namespace Decimal

/-- A positive number between the two ends of the interval that rounds to it, in quarters of
`2 ^ exponent`. -/
structure Interval where
  lower : Nat
  middle : Nat
  upper : Nat
  closed : Bool
  exponent : Int
  deriving DecidableEq, Repr

namespace Interval

/-- The interval that rounds to `significand * 2 ^ exponent`. Below a power of two the numbers are
twice as dense; the ends belong to the number whose significand is even. -/
def ofBinary (significand : Nat) (exponent : Int) : Interval where
  lower :=
    if significand = Nat.pow 2 Binary64.fractionBits ∧ Binary64.leastExponent < exponent then
      4 * significand - 1
    else 4 * significand - 2
  middle := 4 * significand
  upper := 4 * significand + 2
  closed := significand % 2 == 0
  exponent := exponent - 2

def gridFactor (i : Interval) (scale : Int) : Nat :=
  Nat.pow 10 scale.toNat * Nat.pow 2 (-i.exponent).toNat

def binaryFactor (i : Interval) (scale : Int) : Nat :=
  Nat.pow 10 (-scale).toNat * Nat.pow 2 i.exponent.toNat

def contains (i : Interval) (d : Decimal) : Bool :=
  let point := d.digits * i.gridFactor d.scale
  let lower := i.lower * i.binaryFactor d.scale
  let upper := i.upper * i.binaryFactor d.scale
  if i.closed then lower ≤ point && point ≤ upper else lower < point && point < upper

def leadingExponent (i : Interval) : Int :=
  let numerator := i.middle * i.binaryFactor 0
  let denominator := i.gridFactor 0
  if denominator ≤ numerator then (Text.numeral (numerator / denominator)).length - 1
  else -(Text.numeral ((denominator - 1) / numerator)).length

/-- The point of a grid that is nearest to the number, if it rounds to the number. -/
def nearest? (tie : Tie) (i : Interval) (scale : Int) : Option Decimal :=
  let target := i.middle * i.binaryFactor scale
  let below : Decimal := ⟨target / i.gridFactor scale, scale⟩
  let above : Decimal := ⟨below.digits + 1, scale⟩
  match i.contains below, i.contains above with
  | false, false => none
  | true, false => some below
  | false, true => some above
  | true, true =>
    match compare (2 * target) ((below.digits + above.digits) * i.gridFactor scale), tie with
    | .lt, _ => some below
    | .gt, _ => some above
    | .eq, .upward => some above
    | .eq, .toEven => some (if below.digits % 2 = 0 then below else above)

end Interval

/-- The shortest decimal of a positive binary number. Seventeen digits tell any two such numbers
apart, so one of the grids always has a point. -/
def shortest (tie : Tie) (significand : Nat) (exponent : Int) : Decimal :=
  let interval := Interval.ofBinary significand exponent
  let coarsest := interval.leadingExponent + 1
  ((List.range 18).findSome? fun (n : Nat) => interval.nearest? tie (coarsest - n)).getD ⟨0, 0⟩

end Decimal

end QueryParams
