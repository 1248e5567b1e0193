import AudioBus.Binary.Rounding

/-!
The shortest decimal that reads back as a given number.

The reals that round to a number form an interval, closed when its pattern is even.  Of the
decimal grids, ordered from coarse to fine, the first one with a point in that interval gives the
fewest digits, and the point nearest to the number is the answer.
-/

namespace AudioBus

structure Decimal where
  digits : Nat
  exponent : Int
deriving DecidableEq

namespace Binary

variable {F : Format}

/-- The reals that round to a positive number: everything is counted in half units, and `value`
is the number itself. -/
structure RoundingInterval where
  lower : Nat
  value : Nat
  upper : Nat
  closed : Bool

def roundingInterval (x : Binary F) : RoundingInterval where
  lower := F.unitsOf (x.magnitude - 1) + x.units
  value := 2 * x.units
  upper := x.units + F.unitsOf (x.magnitude + 1)
  closed := decide (x.magnitude % 2 = 0)

namespace RoundingInterval

def contains (interval : RoundingInterval) (point : Nat) : Bool :=
  if interval.closed then decide (interval.lower ≤ point ∧ point ≤ interval.upper)
  else decide (interval.lower < point ∧ point < interval.upper)

def refine (interval : RoundingInterval) (parts : Nat) : RoundingInterval where
  lower := interval.lower * parts
  value := interval.value * parts
  upper := interval.upper * parts
  closed := interval.closed

def nearestMultiple? (interval : RoundingInterval) (step : Nat) : Option Nat :=
  let below := interval.value / step
  let above := below + 1
  let belowFits := decide (0 < below) && interval.contains (below * step)
  let aboveFits := interval.contains (above * step)
  if belowFits && aboveFits then
    if interval.value - below * step < above * step - interval.value then some below
    else some above
  else if belowFits then some below
  else if aboveFits then some above
  else none

end RoundingInterval

/-- The point of the grid of step ten to the power of `exponent` that reads back as `x`, if
there is one. -/
def gridPoint? (x : Binary F) (exponent : Int) : Option Nat :=
  if 0 ≤ exponent then
    x.roundingInterval.nearestMultiple? (2 * F.one * Nat.pow 10 exponent.toNat)
  else
    (x.roundingInterval.refine (Nat.pow 10 (-exponent).toNat)).nearestMultiple? (2 * F.one)

def decimalCeiling (x : Binary F) : Int :=
  let binaryExponent : Int := (x.units.log2 : Int) + 1 - F.unitExponent
  if 0 ≤ binaryExponent then binaryExponent / 3 + 1
  else binaryExponent / 4 + 1

def firstGridPoint (x : Binary F) (exponent : Int) : Nat → Decimal
  | 0 => { digits := 0, exponent := exponent }
  | finer + 1 =>
      match x.gridPoint? exponent with
      | some digits => { digits := digits, exponent := exponent }
      | none => firstGridPoint x (exponent - 1) finer

/-- The shortest decimal that reads back as the size of a finite number.  The grid whose step
is below one unit always has a point, which bounds the search. -/
def shortest (x : Binary F) : Decimal :=
  if x.magnitude = 0 then { digits := 0, exponent := 0 }
  else x.firstGridPoint x.decimalCeiling (x.decimalCeiling + F.unitExponent + 1).toNat

end Binary

end AudioBus
