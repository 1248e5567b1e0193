import AudioBus.Binary.Rounding

/-!
Arithmetic on binary floating-point numbers: every operation takes the exact result in units
and rounds it once.
-/

namespace AudioBus.Binary

variable {F : Format}

def addFinite (x y : Binary F) : Binary F :=
  let total := x.signedUnits + y.signedUnits
  let negative := decide (total < 0) || (decide (total = 0) && x.negative && y.negative)
  nearest negative total.natAbs 1

def add (x y : Binary F) : Binary F :=
  if x.isNaN || y.isNaN then nan
  else if x.isInfinite then
    if y.isInfinite && x.negative != y.negative then nan else infinite x.negative
  else if y.isInfinite then infinite y.negative
  else addFinite x y

def sub (x y : Binary F) : Binary F :=
  if y.isNaN then nan else add x y.neg

def mul (x y : Binary F) : Binary F :=
  let negative := x.negative != y.negative
  if x.isNaN || y.isNaN then nan
  else if x.isInfinite || y.isInfinite then
    if x.magnitude = 0 || y.magnitude = 0 then nan else infinite negative
  else nearest negative (x.units * y.units) F.one

def div (x y : Binary F) : Binary F :=
  let negative := x.negative != y.negative
  if x.isNaN || y.isNaN then nan
  else if x.isInfinite then
    if y.isInfinite then nan else infinite negative
  else if y.isInfinite then { zero with negative := negative }
  else if y.magnitude = 0 then
    if x.magnitude = 0 then nan else infinite negative
  else nearest negative (x.units * F.one) y.units

instance : Add (Binary F) where
  add := add

instance : Sub (Binary F) where
  sub := sub

instance : Mul (Binary F) where
  mul := mul

instance : Div (Binary F) where
  div := div

def ofNat (n : Nat) : Binary F :=
  nearest false (n * F.one) 1

instance : NatCast (Binary F) where
  natCast := ofNat

def ofDecimal (negative : Bool) (digits : Nat) (exponent : Int) : Binary F :=
  if 0 ≤ exponent then nearest negative (digits * Nat.pow 10 exponent.toNat * F.one) 1
  else nearest negative (digits * F.one) (Nat.pow 10 (-exponent).toNat)

def nearestNat (x : Binary F) : Nat :=
  (2 * x.units + F.one) / (2 * F.one)

end AudioBus.Binary
