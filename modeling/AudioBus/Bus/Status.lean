/-!
Reachability and clock state of a service.
-/

namespace AudioBus

/-- The status of a service as the local peer sees it.  From `synchronizedLocal` on the clock is
synchronized. -/
inductive ServiceStatus where
  | unknown
  | unsynchronizedLocal
  | unsynchronizedRemote
  | synchronizedLocal
  | synchronizedRemote
deriving DecidableEq, Inhabited

namespace ServiceStatus

def all : List ServiceStatus :=
  [.unknown, .unsynchronizedLocal, .unsynchronizedRemote, .synchronizedLocal, .synchronizedRemote]

def level : ServiceStatus → Nat
  | .unknown => 0
  | .unsynchronizedLocal => 1
  | .unsynchronizedRemote => 2
  | .synchronizedLocal => 3
  | .synchronizedRemote => 4

def order (left right : ServiceStatus) : Ordering :=
  compare left.level right.level

def isSynchronized (status : ServiceStatus) : Bool :=
  decide (ServiceStatus.synchronizedLocal.level ≤ status.level)

def isKnown (status : ServiceStatus) : Bool :=
  decide (status ≠ .unknown)

end ServiceStatus

end AudioBus
