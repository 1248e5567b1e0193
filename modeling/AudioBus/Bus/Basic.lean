import AudioBus.Bus.Error
import AudioBus.Bus.Status
import AudioBus.Codec.Message
import AudioBus.Notice

/-!
A bus within one process: the services provided on it, the methods bound to paths, and the
schedule of messages waiting for their time.

Messages are kept as frames.  The schedule is in the order of delivery: by due time, messages due
at one time in the order in which they were sent.
-/

namespace AudioBus

structure Method (η : Type) where
  signature : Signature
  handler : η

structure Pending where
  due : Seconds
  sequence : Nat
  frame : List UInt8
deriving DecidableEq

def Pending.isBefore (first second : Pending) : Bool :=
  decide (first.due.orderKey < second.due.orderKey) ||
    (decide (first.due.orderKey = second.due.orderKey) &&
      decide (first.sequence < second.sequence))

def schedule (entry : Pending) : List Pending → List Pending
  | [] => [entry]
  | first :: rest =>
      if entry.isBefore first then entry :: first :: rest else first :: schedule entry rest

structure Bus (η : Type) where
  peerName : String
  clock : Seconds
  isSynchronized : Bool
  services : Table String Nat
  methods : Table String (Method η)
  pending : List Pending
  sent : Nat
  journal : Array Notice

namespace Bus

variable {η : Type}

def create (peerName : String) (clock : Seconds) : Bus η where
  peerName := peerName
  clock := clock
  isSynchronized := false
  services := Table.empty
  methods := Table.empty
  pending := []
  sent := 0
  journal := #[]

def note (bus : Bus η) (notice : Notice) : Bus η :=
  { bus with journal := bus.journal.push notice }

def noteAll (bus : Bus η) (notices : List Notice) : Bus η :=
  notices.foldl note bus

def status (bus : Bus η) (service : String) : ServiceStatus :=
  if !bus.services.contains service then .unknown
  else if bus.isSynchronized then .synchronizedLocal
  else .unsynchronizedLocal

/-- Adds a provider of a service.  The count stops at the last number of 64 bits. -/
def acquire (bus : Bus η) (service : String) : Bus η :=
  match bus.services.find? service with
  | some providers =>
      let more := min (providers + 1) 0xFFFF_FFFF_FFFF_FFFF
      { bus with services := bus.services.insert service more }
  | none =>
      { bus with services := bus.services.insert service 1 }.note
        (.serviceProvided service bus.peerName)

def release (bus : Bus η) (service : String) : Bus η :=
  match bus.services.find? service with
  | none => bus
  | some providers =>
      if providers ≤ 1 then
        { bus with services := bus.services.erase service }.note (.serviceRemoved service)
      else { bus with services := bus.services.insert service (providers - 1) }

def bind (bus : Bus η) (path : String) (signature : Signature) (handler : η) :
    Except BusError (Bus η) :=
  if bus.methods.contains path then .error (.methodExists path)
  else
    .ok { bus with
      methods := bus.methods.insert path { signature := signature, handler := handler } }

def unbind (bus : Bus η) (path : String) : Bus η :=
  { bus with methods := bus.methods.erase path }

/-- When a message is due: an immediate one when it is sent, so that it is never ahead of one
that was due already. -/
def dueTime (bus : Bus η) (message : Message) : Seconds :=
  if message.isImmediate then bus.clock else message.timestamp

/-- Schedules a message.  Sending never delivers. -/
def send (bus : Bus η) (message : Message) : Bus η :=
  let entry :=
    { due := bus.dueTime message, sequence := bus.sent, frame := message.encode }
  { bus with pending := schedule entry bus.pending, sent := bus.sent + 1 }

def nextDeadline (bus : Bus η) : Option Seconds :=
  bus.pending.head?.map Pending.due

def setClock (bus : Bus η) (time : Seconds) : Bus η :=
  { bus with clock := time }

def advanceClock (bus : Bus η) (length : Seconds) : Bus η :=
  bus.setClock (bus.clock + length)

def synchronize (bus : Bus η) (isSynchronized : Bool) : Bus η :=
  { bus with isSynchronized := isSynchronized }

end Bus

end AudioBus
