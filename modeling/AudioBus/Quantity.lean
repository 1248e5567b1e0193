/-!
The bounded quantities of the library: rates, counts of samples, positions on a receiver's
timeline, and intervals.
-/

namespace AudioBus

structure SampleRate where
  hertz : Nat
  hertz_pos : 0 < hertz
  hertz_lt : hertz < 0x1_0000_0000
deriving DecidableEq

def SampleRate.ofNat? (hertz : Nat) : Option SampleRate :=
  if bounds : 0 < hertz ∧ hertz < 0x1_0000_0000 then
    some { hertz := hertz, hertz_pos := bounds.1, hertz_lt := bounds.2 }
  else none

structure SampleCount where
  count : Nat
  count_pos : 0 < count
  count_lt : count < 0x1_0000_0000_0000_0000
deriving DecidableEq

namespace SampleCount

def ofNat? (count : Nat) : Option SampleCount :=
  if bounds : 0 < count ∧ count < 0x1_0000_0000_0000_0000 then
    some { count := count, count_pos := bounds.1, count_lt := bounds.2 }
  else none

def one : SampleCount where
  count := 1
  count_pos := by decide
  count_lt := by decide

end SampleCount

def lastIndex : Nat := 0xFFFF_FFFF_FFFF_FFFF

structure SampleIndex where
  value : Nat
  value_le : value ≤ lastIndex
deriving DecidableEq

namespace SampleIndex

def zero : SampleIndex where
  value := 0
  value_le := Nat.zero_le _

instance : Inhabited SampleIndex where
  default := zero

def clamp (value : Nat) : SampleIndex where
  value := min value lastIndex
  value_le := Nat.min_le_right _ _

def advance (index : SampleIndex) (samples : Nat) : SampleIndex :=
  clamp (index.value + samples)

theorem advance_value (index : SampleIndex) (samples : Nat) :
    (index.advance samples).value = min (index.value + samples) lastIndex :=
  rfl

theorem advance_zero (index : SampleIndex) : index.advance 0 = index := by
  cases index with
  | mk value value_le =>
      simp [advance, clamp, Nat.min_eq_left value_le]

theorem advance_advance (index : SampleIndex) (first second : Nat) :
    (index.advance first).advance second = index.advance (first + second) := by
  simp only [advance, clamp, mk.injEq]
  omega

end SampleIndex

structure Interval where
  seconds : Nat
  nanoseconds : Nat
  seconds_lt : seconds < 0x1_0000_0000_0000_0000
  nanoseconds_lt : nanoseconds < 1_000_000_000
deriving DecidableEq

namespace Interval

def ofParts? (seconds nanoseconds : Nat) : Option Interval :=
  if bound : seconds + nanoseconds / 1_000_000_000 < 0x1_0000_0000_0000_0000 then
    some
      { seconds := seconds + nanoseconds / 1_000_000_000
        nanoseconds := nanoseconds % 1_000_000_000
        seconds_lt := bound
        nanoseconds_lt := Nat.mod_lt _ (by decide) }
  else none

def isZero (interval : Interval) : Bool :=
  decide (interval.seconds = 0 ∧ interval.nanoseconds = 0)

def halfSecond : Interval where
  seconds := 0
  nanoseconds := 500_000_000
  seconds_lt := by decide
  nanoseconds_lt := by decide

end Interval

end AudioBus
