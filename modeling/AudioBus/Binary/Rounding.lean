import AudioBus.Binary.Basic

/-!
Exact values of the finite numbers in units, and the number nearest to a ratio of units.
-/

namespace AudioBus

def roundHalfEven (numerator denominator : Nat) : Nat :=
  let quotient := numerator / denominator
  let remainder := numerator % denominator
  if 2 * remainder < denominator then quotient
  else if denominator < 2 * remainder then quotient + 1
  else quotient + quotient % 2

namespace Format

variable (F : Format)

def unitsOf (pattern : Nat) : Nat :=
  let exponent := pattern / F.binadeSize
  if exponent = 0 then pattern
  else (F.binadeSize + pattern % F.binadeSize) * Nat.pow 2 (exponent - 1)

/-- The pattern of the number nearest to `numerator / denominator` units, the even pattern of
two; what is nearer to a number beyond the largest finite one is infinity.

The binade is chosen so that the ratio spans between one and two binade sizes of its steps. A
ratio that rounds up to the next binade carries into the exponent by itself. -/
def nearestPattern (numerator denominator : Nat) : Nat :=
  let binade := (numerator / denominator).log2 - F.fractionBits
  let step := roundHalfEven numerator (denominator * Nat.pow 2 binade)
  min (binade * F.binadeSize + step) F.infinity

theorem nearestPattern_lt (numerator denominator : Nat) :
    F.nearestPattern numerator denominator < F.patternCount :=
  Nat.lt_of_le_of_lt (Nat.min_le_right _ _) F.infinity_lt

end Format

namespace Binary

variable {F : Format}

def units (x : Binary F) : Nat := F.unitsOf x.magnitude

def signedUnits (x : Binary F) : Int :=
  if x.negative then -(x.units : Int) else x.units

def nearest (negative : Bool) (numerator denominator : Nat) : Binary F where
  negative := negative
  magnitude := F.nearestPattern numerator denominator
  magnitude_lt := F.nearestPattern_lt numerator denominator

end Binary

end AudioBus
