import AudioBus.Binary.Arithmetic

/-!
Typed arguments of messages.
-/

namespace AudioBus

inductive ArgumentKind where
  | int32 | int64 | float | double | time | bool | string | symbol
  | int32s | int64s | floats | doubles
deriving DecidableEq, Repr, Inhabited

namespace ArgumentKind

def all : List ArgumentKind :=
  [.int32, .int64, .float, .double, .time, .bool, .string, .symbol,
    .int32s, .int64s, .floats, .doubles]

def code : ArgumentKind → List Char
  | .int32 => ['i']
  | .int64 => ['h']
  | .float => ['f']
  | .double => ['d']
  | .time => ['t']
  | .bool => ['B']
  | .string => ['s']
  | .symbol => ['S']
  | .int32s => ['v', 'i']
  | .int64s => ['v', 'h']
  | .floats => ['v', 'f']
  | .doubles => ['v', 'd']

def ofScalarCode? : Char → Option ArgumentKind
  | 'i' => some .int32
  | 'h' => some .int64
  | 'f' => some .float
  | 'd' => some .double
  | 't' => some .time
  | 'B' => some .bool
  | 's' => some .string
  | 'S' => some .symbol
  | _ => none

def ofElementCode? : Char → Option ArgumentKind
  | 'i' => some .int32s
  | 'h' => some .int64s
  | 'f' => some .floats
  | 'd' => some .doubles
  | _ => none

/-- Whether an argument of type `actual` may be given where `expected` is declared.  Doubles and
times stand for each other. -/
def accepts (expected actual : ArgumentKind) : Bool :=
  match expected, actual with
  | .double, .time => true
  | .time, .double => true
  | _, _ => decide (expected = actual)

end ArgumentKind

inductive Argument where
  | int32 (value : Int32)
  | int64 (value : Int64)
  | float (value : Binary32)
  | double (value : Binary64)
  | time (value : Seconds)
  | bool (value : Bool)
  | string (value : String)
  | symbol (value : String)
  | int32s (values : List Int32)
  | int64s (values : List Int64)
  | floats (values : List Binary32)
  | doubles (values : List Binary64)
deriving DecidableEq, Inhabited

namespace Argument

def kind : Argument → ArgumentKind
  | .int32 _ => .int32
  | .int64 _ => .int64
  | .float _ => .float
  | .double _ => .double
  | .time _ => .time
  | .bool _ => .bool
  | .string _ => .string
  | .symbol _ => .symbol
  | .int32s _ => .int32s
  | .int64s _ => .int64s
  | .floats _ => .floats
  | .doubles _ => .doubles

def asInteger? : Argument → Option Int64
  | .int32 value => some value.toInt64
  | .int64 value => some value
  | _ => none

def asSeconds? : Argument → Option Seconds
  | .double value => some value
  | .time value => some value
  | _ => none

def asSamples? : Argument → Option (List Sample)
  | .floats values => some values
  | _ => none

def sameNumbers {F : Format} : List (Binary F) → List (Binary F) → Bool
  | [], [] => true
  | x :: xs, y :: ys => x.same y && sameNumbers xs ys
  | _, _ => false

def same : Argument → Argument → Bool
  | .float x, .float y => x.same y
  | .double x, .double y => x.same y
  | .time x, .time y => x.same y
  | .floats xs, .floats ys => sameNumbers xs ys
  | .doubles xs, .doubles ys => sameNumbers xs ys
  | x, y => decide (x = y)

end Argument

end AudioBus
