import AudioBus.Address
import AudioBus.Signature

/-!
Messages: timestamped calls of a method.
-/

namespace AudioBus

/-- A call of the method at `path`, to be delivered at `timestamp`. -/
structure Message where
  timestamp : Seconds
  path : String
  arguments : List Argument
deriving DecidableEq, Inhabited

namespace Message

/-- Whether a message asks to be delivered at once: only a timestamp above zero does not. -/
def isImmediate (message : Message) : Bool :=
  !Binary.zero.less message.timestamp

def service? (message : Message) : Option String :=
  (splitPath? message.path).map Prod.fst

def signature (message : Message) : Signature :=
  Signature.ofArguments message.arguments

def sameArguments : List Argument → List Argument → Bool
  | [], [] => true
  | x :: xs, y :: ys => x.same y && sameArguments xs ys
  | _, _ => false

def same (x y : Message) : Bool :=
  x.timestamp.same y.timestamp && decide (x.path = y.path) &&
    sameArguments x.arguments y.arguments

end Message

end AudioBus
