import AudioBus.Bus.Delivery
import AudioBus.Stream.Receiver

/-!
The handlers of a host: methods of receivers, and responders, which record their calls and may
answer with a message of their own.
-/

namespace AudioBus

structure MixerKey where
  number : Nat
deriving DecidableEq

structure Responder where
  tag : String
  advance : Option Seconds
  remove : Option String
  echo : Option String
  echoAt : Seconds
deriving DecidableEq

inductive Handler where
  | receiver (mixer : MixerKey) (method : StreamMethod)
  | responder (responder : Responder)
deriving DecidableEq

structure Call where
  message : Message
  tag : String
  now : Seconds
deriving DecidableEq

structure Surroundings where
  mixers : Table MixerKey (Mixer Seconds)
  calls : List Call

namespace Responder

def nextCount? (message : Message) : Option Int64 :=
  match message.arguments with
  | [] => none
  | first :: _ =>
      match first.asInteger? with
      | none => none
      | some count => if 0 < count.toInt then some (count - 1) else none

def reply? (responder : Responder) (message : Message) : Option Message :=
  match responder.echo, nextCount? message with
  | some path, some count =>
      some { timestamp := responder.echoAt, path := path, arguments := [.int64 count] }
  | _, _ => none

def requests (responder : Responder) (message : Message) : List (Request Handler) :=
  (responder.advance.map Request.advanceClock).toList ++
    (responder.remove.map Request.unbind).toList ++
    ((responder.reply? message).map Request.send).toList

end Responder

namespace Handler

def react : Behaviour Handler Surroundings
  | .receiver key method, message, _, outside =>
      match outside.mixers.find? key with
      | none => { outside := outside, notices := [], requests := [] }
      | some mixer =>
          let (next, notices) := mixer.receive method message
          { outside := { outside with mixers := outside.mixers.insert key next }
            notices := notices
            requests := [] }
  | .responder rules, message, now, outside =>
      let call := { message := message, tag := rules.tag, now := now }
      { outside := { outside with calls := call :: outside.calls }
        notices := []
        requests := rules.requests message }

def countdown (message : Message) : Nat :=
  match message.arguments with
  | [] => 0
  | first :: _ => (first.asInteger?.map fun count => count.toInt.toNat).getD 0

end Handler

end AudioBus
