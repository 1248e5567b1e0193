import AudioBus.Host.Handler

/-!
A host: a bus in a process of one thread, and the objects on it, each under a name.

Replacing an object drops it once the new one is there; an object that cannot be created leaves
the one of its name in place.
-/

namespace AudioBus

inductive HostedObject where
  | service (service : Service)
  | client (client : Client)
  | receiver (receiver : Receiver) (mixer : MixerKey)
  | transmitter (transmitter : Transmitter)
  | mixer (key : MixerKey)

structure Host where
  peer : Peer Handler Surroundings
  objects : Table String HostedObject
  mixerCount : Nat

namespace Host

def create (peerName : String) (clock : Seconds) : Host where
  peer :=
    { bus := Bus.create peerName clock
      outside := { mixers := Table.empty, calls := [] } }
  objects := Table.empty
  mixerCount := 0

def bus (host : Host) : Bus Handler := host.peer.bus

def withBus (host : Host) (bus : Bus Handler) : Host :=
  { host with peer := { host.peer with bus := bus } }

def changeBus (host : Host) (change : Bus Handler → Bus Handler) : Host :=
  host.withBus (change host.bus)

def mixer? (host : Host) (key : MixerKey) : Option (Mixer Seconds) :=
  host.peer.outside.mixers.find? key

def setMixer (host : Host) (key : MixerKey) (mixer : Mixer Seconds) : Host :=
  let outside :=
    { host.peer.outside with mixers := host.peer.outside.mixers.insert key mixer }
  { host with peer := { host.peer with outside := outside } }

def poll (host : Host) : Host × Nat :=
  let (peer, verdicts) := host.peer.poll Handler.react
  ({ host with peer := peer }, Peer.handled verdicts)

def pollBound (host : Host) : Nat :=
  host.bus.pending.foldl
    (fun total entry =>
      match Message.decode entry.frame with
      | .ok message => total + Handler.countdown message + 1
      | .error _ => total + 1)
    1

def drain (host : Host) : Option (Host × Nat) :=
  (host.peer.drain Handler.react host.pollBound).map fun (peer, total) =>
    ({ host with peer := peer }, total)

def takeRecords (host : Host) : Host × List Call × List Notice :=
  let peer :=
    { bus := { host.bus with journal := #[] }
      outside := { host.peer.outside with calls := [] } }
  ({ host with peer := peer }, host.peer.outside.calls.reverse, host.bus.journal.toList)

def dropObject (host : Host) : HostedObject → Host
  | .service service => host.changeBus service.drop
  | .client _ => host
  | .receiver receiver _ => host.changeBus receiver.drop
  | .transmitter transmitter =>
      host.withBus { transmitter := transmitter, link := host.bus : Sender (Bus Handler) }.drop
  | .mixer _ => host

def place (host : Host) (name : String) (object : HostedObject) : Host :=
  let placed := { host with objects := host.objects.insert name object }
  match host.objects.find? name with
  | none => placed
  | some former => placed.dropObject former

def drop (host : Host) (name : String) : Host × Bool :=
  match host.objects.find? name with
  | none => (host, false)
  | some object =>
      ({ host with objects := host.objects.erase name }.dropObject object, true)

def openService (host : Host) (name service : String) : Host × Except BusError Unit :=
  match Service.provide host.bus service with
  | .error cause => (host, .error cause)
  | .ok (provided, bus) => ((host.withBus bus).place name (.service provided), .ok ())

def openClient (host : Host) (name address : String) : Host × Except BusError Unit :=
  match Client.create address with
  | .error cause => (host, .error cause)
  | .ok client => (host.place name (.client client), .ok ())

def openReceiver (host : Host) (name service endpoint : String) (config : ReceiverConfig) :
    Host × Except EndpointError Unit :=
  let key : MixerKey := { number := host.mixerCount }
  let (bus, result) := Receiver.create (Handler.receiver key) host.bus service endpoint config
  match result with
  | .error cause => (host.withBus bus, .error cause)
  | .ok (receiver, mixer) =>
      let opened := { (host.withBus bus).setMixer key mixer with mixerCount := key.number + 1 }
      (opened.place name (.receiver receiver key), .ok ())

def openTransmitter (host : Host) (name : String) (id : StreamId) (service endpoint : String)
    (config : TransmitterConfig) : Host × Except EndpointError Unit :=
  match Sender.create host.bus id service endpoint config with
  | .error cause => (host, .error cause)
  | .ok sender =>
      ((host.withBus sender.link).place name (.transmitter sender.transmitter), .ok ())

def service? (host : Host) (name : String) : Option Service :=
  match host.objects.find? name with
  | some (.service service) => some service
  | _ => none

def client? (host : Host) (name : String) : Option Client :=
  match host.objects.find? name with
  | some (.client client) => some client
  | _ => none

def receiver? (host : Host) (name : String) : Option Receiver :=
  match host.objects.find? name with
  | some (.receiver receiver _) => some receiver
  | _ => none

def mixerKey? (host : Host) (name : String) : Option MixerKey :=
  match host.objects.find? name with
  | some (.receiver _ key) => some key
  | some (.mixer key) => some key
  | _ => none

def sender? (host : Host) (name : String) : Option (Sender (Bus Handler)) :=
  match host.objects.find? name with
  | some (.transmitter transmitter) => some { transmitter := transmitter, link := host.bus }
  | _ => none

def setSender (host : Host) (name : String) (sender : Sender (Bus Handler)) : Host :=
  { host.withBus sender.link with
    objects := host.objects.insert name (.transmitter sender.transmitter) }

def implement (host : Host) (name : String) (service : Service) (method signature : String)
    (responder : Responder) : Host × Except BusError Unit :=
  match service.implement host.bus method signature (.responder responder) with
  | .error cause => (host, .error cause)
  | .ok (extended, bus) =>
      ({ host.withBus bus with objects := host.objects.insert name (.service extended) }, .ok ())

def bindResponder (host : Host) (path signature : String) (responder : Responder) :
    Host × Except BusError Unit :=
  match Signature.parse signature with
  | .error cause => (host, .error (.invalidSignature cause))
  | .ok signature =>
      match host.bus.bind path signature (.responder responder) with
      | .error cause => (host, .error cause)
      | .ok bus => (host.withBus bus, .ok ())

def sendThrough (host : Host) (client : Client) (timestamp : Seconds) (method : String)
    (arguments : List Argument) : Host × Except BusError Unit :=
  match client.send host.bus timestamp method arguments with
  | .error cause => (host, .error cause)
  | .ok bus => (host.withBus bus, .ok ())

def setStreamTime (host : Host) (key : MixerKey) (mixer : Mixer Seconds) (time : Seconds) : Host :=
  let (next, anchored) := mixer.setStreamTime time
  (host.setMixer key next).changeBus fun bus => bus.note (anchoringNotice time anchored)

end Host

end AudioBus
