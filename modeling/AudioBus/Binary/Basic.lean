/-!
Binary floating-point numbers as a sign and a magnitude pattern.

The magnitude patterns of a format count its non-negative numbers upwards from zero: first the
finite numbers in order of size, then infinity, then the patterns that are not numbers.  Every
finite number is a whole multiple of one unit, the smallest positive number of its format, so
comparisons are comparisons of patterns and arithmetic is exact in units until it is rounded.
-/

namespace AudioBus

/-- A binary interchange format: how many bits of a pattern hold the fraction, and how many
the exponent. -/
structure Format where
  fractionBits : Nat
  exponentBits : Nat
  fraction_pos : 0 < fractionBits := by decide
  exponent_pos : 0 < exponentBits := by decide

namespace Format

def single : Format where
  fractionBits := 23
  exponentBits := 8

def double : Format where
  fractionBits := 52
  exponentBits := 11

variable (F : Format)

def binadeSize : Nat := Nat.pow 2 F.fractionBits

def patternCount : Nat := Nat.pow 2 F.exponentBits * F.binadeSize

def infinity : Nat := (Nat.pow 2 F.exponentBits - 1) * F.binadeSize

def quietNaN : Nat := F.infinity + F.binadeSize / 2

def unitExponent : Nat := Nat.pow 2 (F.exponentBits - 1) + F.fractionBits - 2

def one : Nat := Nat.pow 2 F.unitExponent

theorem binadeSize_pos : 0 < F.binadeSize :=
  Nat.pow_pos (by decide)

theorem patternCount_eq : F.patternCount = F.infinity + F.binadeSize := by
  have exponentsPos : 0 < Nat.pow 2 F.exponentBits := Nat.pow_pos (by decide)
  unfold patternCount infinity
  rw [← Nat.succ_mul]
  congr 1
  omega

theorem infinity_lt : F.infinity < F.patternCount := by
  have binadePos := F.binadeSize_pos
  rw [patternCount_eq]
  omega

theorem quietNaN_lt : F.quietNaN < F.patternCount := by
  have binadePos := F.binadeSize_pos
  rw [patternCount_eq, quietNaN]
  omega

end Format

structure Binary (F : Format) where
  negative : Bool
  magnitude : Nat
  magnitude_lt : magnitude < F.patternCount
deriving DecidableEq

abbrev Binary32 := Binary Format.single
abbrev Binary64 := Binary Format.double

abbrev Sample := Binary32

abbrev Seconds := Binary64

namespace Binary

variable {F : Format}

def ofBits (word : Nat) : Binary F where
  negative := word / F.patternCount % 2 = 1
  magnitude := word % F.patternCount
  magnitude_lt := Nat.mod_lt _ (Nat.zero_lt_of_lt F.infinity_lt)

def toBits (x : Binary F) : Nat :=
  (if x.negative then F.patternCount else 0) + x.magnitude

theorem ofBits_toBits (x : Binary F) : ofBits x.toBits = x := by
  have countPos : 0 < F.patternCount := Nat.zero_lt_of_lt x.magnitude_lt
  obtain ⟨negative, magnitude, magnitude_lt⟩ := x
  cases negative with
  | false =>
      simp only [ofBits, toBits, Bool.false_eq_true, if_false, Nat.zero_add,
        Nat.div_eq_of_lt magnitude_lt, Nat.mod_eq_of_lt magnitude_lt]
      simp
  | true =>
      have quotient : (F.patternCount + magnitude) / F.patternCount = 1 := by
        rw [Nat.add_div_left magnitude countPos, Nat.div_eq_of_lt magnitude_lt]
      simp only [ofBits, toBits, if_true, quotient, Nat.add_mod_left,
        Nat.mod_eq_of_lt magnitude_lt]
      simp

theorem toBits_lt (x : Binary F) : x.toBits < 2 * F.patternCount := by
  have magnitudeBound := x.magnitude_lt
  unfold toBits
  split <;> omega

def zero : Binary F where
  negative := false
  magnitude := 0
  magnitude_lt := Nat.zero_lt_of_lt F.infinity_lt

def nan : Binary F where
  negative := false
  magnitude := F.quietNaN
  magnitude_lt := F.quietNaN_lt

def infinite (negative : Bool) : Binary F where
  negative := negative
  magnitude := F.infinity
  magnitude_lt := F.infinity_lt

instance : Inhabited (Binary F) where
  default := zero

def neg (x : Binary F) : Binary F :=
  { x with negative := !x.negative }

def isNaN (x : Binary F) : Bool :=
  decide (F.infinity < x.magnitude)

def isInfinite (x : Binary F) : Bool :=
  decide (x.magnitude = F.infinity)

def isFinite (x : Binary F) : Bool :=
  decide (x.magnitude < F.infinity)

/-- The place of a number among the numbers, the two zeros sharing one. -/
def rank (x : Binary F) : Int :=
  if x.negative then -(x.magnitude : Int) else x.magnitude

/-- Whether `x` is below `y`; never so when either is not a number. -/
def less (x y : Binary F) : Bool :=
  !x.isNaN && !y.isNaN && decide (x.rank < y.rank)

def atMost (x y : Binary F) : Bool :=
  !x.isNaN && !y.isNaN && decide (x.rank ≤ y.rank)

/-- Whether `x` and `y` are the same number: the two zeros are, and what is not a number is
not the same as anything. -/
def same (x y : Binary F) : Bool :=
  !x.isNaN && !y.isNaN && decide (x.rank = y.rank)

/-- The greater of two numbers, the first of two equal ones; what is not a number gives way
to the other. -/
def larger (x y : Binary F) : Binary F :=
  if x.isNaN then y else if x.less y then y else x

/-- A place for every pattern in one order: numbers by size, the negative zero before the
positive one, patterns that are not numbers outermost on the side of their sign. -/
def orderKey (x : Binary F) : Int :=
  if x.negative then -(x.magnitude : Int) - 1 else x.magnitude

end Binary

end AudioBus
