import AudioBus.Bus.Service

/-!
Links: what a sending endpoint needs of a bus, and clients, which send through one.
-/

namespace AudioBus

/-- A bus as its sending endpoints see it. -/
class Link (κ : Type) where
  now : κ → Seconds
  /-- The status of a service.  Looking may change what is seen next. -/
  status : κ → String → ServiceStatus × κ
  awaitSynchronized : κ → String → Option κ
  send : κ → Message → Except BusError κ
  note : κ → Notice → κ

instance {η : Type} : Link (Bus η) where
  now := Bus.clock
  status bus service := (bus.status service, bus)
  awaitSynchronized bus service :=
    if (bus.status service).isSynchronized then some bus else none
  send bus message := .ok (bus.send message)
  note := Bus.note

structure Client where
  address : String
  address_valid : isAddress address = true
deriving DecidableEq

namespace Client

def create (address : String) : Except BusError Client :=
  if valid : isAddress address = true then
    .ok { address := address, address_valid := valid }
  else .error (.invalidPath address)

def service (client : Client) : String :=
  firstSegment client.address

variable {κ : Type} [Link κ]

def send (client : Client) (link : κ) (timestamp : Seconds) (method : String)
    (arguments : List Argument) : Except BusError κ :=
  match joinPath client.address method with
  | .error cause => .error cause
  | .ok path =>
      Link.send link { timestamp := timestamp, path := path, arguments := arguments }

end Client

end AudioBus
