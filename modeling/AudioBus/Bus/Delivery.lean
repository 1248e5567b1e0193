import AudioBus.Bus.Basic

/-!
Delivery: polling takes what is due off the schedule and hands each message to the method bound to
its path, if the method takes its arguments.

What handlers do is a behaviour: a reaction changes what lies outside the bus, and asks the bus
for requests, which are carried out in order.  Messages sent by handlers wait for a later poll.
-/

namespace AudioBus

inductive Request (η : Type) where
  | send (message : Message)
  | bind (path : String) (signature : Signature) (handler : η)
  | unbind (path : String)
  | advanceClock (length : Seconds)

structure Reaction (η ω : Type) where
  outside : ω
  notices : List Notice
  requests : List (Request η)

/-- How handlers react to messages, given the time and what lies outside the bus. -/
abbrev Behaviour (η ω : Type) := η → Message → Seconds → ω → Reaction η ω

structure Peer (η ω : Type) where
  bus : Bus η
  outside : ω

inductive Verdict (η : Type) where
  | undecodable (cause : DecodeError)
  | unknown (message : Message)
  | refused (message : Message) (expected : Signature)
  | accepted (message : Message) (handler : η)

namespace Verdict

variable {η : Type}

def isAccepted : Verdict η → Bool
  | .accepted _ _ => true
  | _ => false

def notices : Verdict η → List Notice
  | .undecodable cause => [.frameUndecodable cause]
  | .unknown message => [.methodUnknown message.path]
  | .refused message expected =>
      [.argumentsRefused message.path expected message.signature]
  | .accepted _ _ => []

end Verdict

namespace Bus

variable {η : Type}

/-- Whether a frame's time has come.  It has not only if it is due later. -/
def isDue (now : Seconds) (entry : Pending) : Bool :=
  !now.less entry.due

def judge (bus : Bus η) (frame : List UInt8) : Verdict η :=
  match Message.decode frame with
  | .error cause => .undecodable cause
  | .ok message =>
      match bus.methods.find? message.path with
      | none => .unknown message
      | some method =>
          if method.signature.accepts message.arguments then .accepted message method.handler
          else .refused message method.signature

def perform (bus : Bus η) : Request η → Bus η
  | .send message => bus.send message
  | .bind path signature handler =>
      match bus.bind path signature handler with
      | .ok bound => bound
      | .error _ => bus
  | .unbind path => bus.unbind path
  | .advanceClock length => bus.advanceClock length

def hasDue (bus : Bus η) : Bool :=
  match bus.nextDeadline with
  | none => false
  | some due => due.atMost bus.clock

end Bus

namespace Peer

variable {η ω : Type}

def deliver (behaviour : Behaviour η ω) (peer : Peer η ω) (frame : List UInt8) :
    Peer η ω × Verdict η :=
  let verdict := peer.bus.judge frame
  match verdict with
  | .accepted message handler =>
      let reaction := behaviour handler message peer.bus.clock peer.outside
      let bus := reaction.requests.foldl Bus.perform (peer.bus.noteAll reaction.notices)
      ({ bus := bus, outside := reaction.outside }, verdict)
  | _ => ({ peer with bus := peer.bus.noteAll verdict.notices }, verdict)

def deliverAll (behaviour : Behaviour η ω) (peer : Peer η ω) :
    List Pending → Peer η ω × List (Verdict η)
  | [] => (peer, [])
  | entry :: rest =>
      let (next, verdict) := peer.deliver behaviour entry.frame
      let (last, verdicts) := next.deliverAll behaviour rest
      (last, verdict :: verdicts)

/-- Takes everything that is due off the schedule and delivers it in order. -/
def poll (behaviour : Behaviour η ω) (peer : Peer η ω) : Peer η ω × List (Verdict η) :=
  let now := peer.bus.clock
  let due := peer.bus.pending.takeWhile (Bus.isDue now)
  let later := peer.bus.pending.dropWhile (Bus.isDue now)
  { peer with bus := { peer.bus with pending := later } }.deliverAll behaviour due

def handled (verdicts : List (Verdict η)) : Nat :=
  verdicts.countP Verdict.isAccepted

/-- Polls until a poll hands nothing to a handler and nothing is due any more; nothing when that
takes more than `polls` polls.  The second result is how many messages handlers got. -/
def drain (behaviour : Behaviour η ω) (peer : Peer η ω) : Nat → Option (Peer η ω × Nat)
  | 0 => none
  | polls + 1 =>
      let (next, verdicts) := peer.poll behaviour
      if handled verdicts = 0 && !next.bus.hasDue then some (next, 0)
      else (next.drain behaviour polls).map fun (last, total) => (last, handled verdicts + total)

end Peer

end AudioBus
