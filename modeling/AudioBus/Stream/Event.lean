import AudioBus.Signature
import AudioBus.Stream.Id

/-!
Stream events: what a transmitter tells a receiver about its stream, as calls of the receiver's
three methods.
-/

namespace AudioBus

inductive StreamMethod where
  | sync
  | push
  | close
deriving DecidableEq, Inhabited

namespace StreamMethod

def all : List StreamMethod := [.sync, .push, .close]

def name : StreamMethod → String
  | .sync => "sync"
  | .push => "push"
  | .close => "close"

instance : ToString StreamMethod where
  toString := name

def signature : StreamMethod → Signature
  | .sync => { kinds := [.int64, .time] }
  | .push => { kinds := [.int64, .floats] }
  | .close => { kinds := [.int64] }

def arity (method : StreamMethod) : Nat :=
  method.signature.kinds.length

end StreamMethod

inductive EventError where
  | arity (method : StreamMethod) (expected found : Nat)
  | argumentType (method : StreamMethod) (position : Nat)
deriving DecidableEq

def EventError.message : EventError → String
  | .arity method expected found => s!"{method} takes {expected} arguments, got {found}"
  | .argumentType method position => s!"{method}: unexpected type for argument {position}"

inductive StreamEvent where
  | sync (id : StreamId) (time : Seconds)
  | push (id : StreamId) (samples : List Sample)
  | close (id : StreamId)
deriving DecidableEq

namespace StreamEvent

def id : StreamEvent → StreamId
  | .sync id _ => id
  | .push id _ => id
  | .close id => id

def method : StreamEvent → StreamMethod
  | .sync _ _ => .sync
  | .push _ _ => .push
  | .close _ => .close

def toArguments : StreamEvent → List Argument
  | .sync id time => [.int64 id.value, .time time]
  | .push id samples => [.int64 id.value, .floats samples]
  | .close id => [.int64 id.value]

/-- The event that a call of `method` carries.  The number of arguments is looked at first, then
their types one after another. -/
def ofArguments (method : StreamMethod) (arguments : List Argument) :
    Except EventError StreamEvent :=
  let wrongCount : Except EventError StreamEvent :=
    .error (.arity method method.arity arguments.length)
  match method, arguments with
  | .sync, [first, second] =>
      match first.asInteger?, second.asSeconds? with
      | none, _ => .error (.argumentType .sync 0)
      | some _, none => .error (.argumentType .sync 1)
      | some id, some time => .ok (.sync { value := id } time)
  | .push, [first, second] =>
      match first.asInteger?, second.asSamples? with
      | none, _ => .error (.argumentType .push 0)
      | some _, none => .error (.argumentType .push 1)
      | some id, some samples => .ok (.push { value := id } samples)
  | .close, [first] =>
      match first.asInteger? with
      | none => .error (.argumentType .close 0)
      | some id => .ok (.close { value := id })
  | _, _ => wrongCount

def same : StreamEvent → StreamEvent → Bool
  | .sync id time, .sync otherId otherTime => decide (id = otherId) && time.same otherTime
  | .push id samples, .push otherId otherSamples =>
      decide (id = otherId) && Argument.sameNumbers samples otherSamples
  | .close id, .close otherId => decide (id = otherId)
  | _, _ => false

end StreamEvent

end AudioBus
