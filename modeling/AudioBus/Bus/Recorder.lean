import AudioBus.Bus.Link

/-!
A link that delivers nothing: it records what is sent and which services are looked at, and plays
back a script of statuses.
-/

namespace AudioBus

structure Recorder where
  clock : Seconds
  currentStatus : ServiceStatus
  script : List (ServiceStatus × Seconds)
  allowance : Option Nat
  sent : List Message
  queries : List String
  journal : Array Notice

namespace Recorder

def create (clock : Seconds) (status : ServiceStatus) : Recorder where
  clock := clock
  currentStatus := status
  script := []
  allowance := none
  sent := []
  queries := []
  journal := #[]

def advanceScript (recorder : Recorder) : Recorder :=
  match recorder.script with
  | [] => recorder
  | (status, clock) :: rest =>
      { recorder with currentStatus := status, clock := clock, script := rest }

def look (recorder : Recorder) (service : String) : ServiceStatus × Recorder :=
  let seen := { recorder with queries := recorder.queries ++ [service] }.advanceScript
  (seen.currentStatus, seen)

/-- Looks once for every item of a script, and once more behind its end, until the clock is seen
synchronized. -/
def lookAlong (recorder : Recorder) (service : String) :
    List (ServiceStatus × Seconds) → Option Recorder
  | [] =>
      let (status, seen) := recorder.look service
      if status.isSynchronized then some seen else none
  | _ :: rest =>
      let (status, seen) := recorder.look service
      if status.isSynchronized then some seen else seen.lookAlong service rest

def record (recorder : Recorder) (message : Message) : Except BusError Recorder :=
  match recorder.allowance with
  | some 0 => .error (.invalidPath message.path)
  | some (remaining + 1) =>
      .ok { recorder with allowance := some remaining, sent := recorder.sent ++ [message] }
  | none => .ok { recorder with sent := recorder.sent ++ [message] }

instance : Link Recorder where
  now := clock
  status := look
  awaitSynchronized recorder service := recorder.lookAlong service recorder.script
  send := record
  note recorder notice := { recorder with journal := recorder.journal.push notice }

end Recorder

end AudioBus
