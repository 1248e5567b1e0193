import AudioBus.Bus.Service
import AudioBus.Stream.Transmitter

/-!
Receivers: endpoints of a service whose three methods feed a mixer.
-/

namespace AudioBus

structure Receiver where
  service : Service
  endpoint : String
deriving DecidableEq

namespace Receiver

def address (receiver : Receiver) : String :=
  joinAddresses receiver.service.name receiver.endpoint

variable {η : Type}

def methodsOf (handler : StreamMethod → η) (endpoint : String) : List (String × String × η) :=
  StreamMethod.all.map fun method =>
    (joinAddresses endpoint method.name, method.signature.text, handler method)

/-- Creates a receiver and its mixer.  One that is refused leaves nothing bound: the service it
had begun to provide is dropped. -/
def create (handler : StreamMethod → η) (bus : Bus η) (service endpoint : String)
    (config : ReceiverConfig) : Bus η × Except EndpointError (Receiver × Mixer Seconds) :=
  match Mixer.create config with
  | .error cause => (bus, .error (.config cause))
  | .ok mixer =>
      match Service.provide bus service with
      | .error cause => (bus, .error (.bus cause))
      | .ok (provided, bus) =>
          let (service, bus, result) := provided.implementAll bus (methodsOf handler endpoint)
          match result with
          | .error cause => (service.drop bus, .error (.bus cause))
          | .ok () =>
              (bus.note (.receiving service.name endpoint config.sampleRate mixer.capacity),
                .ok ({ service := service, endpoint := endpoint }, mixer))

def drop (receiver : Receiver) (bus : Bus η) : Bus η :=
  receiver.service.drop bus

end Receiver

/-- What a receiver's method does with a call: it applies the event, or reports that the arguments
do not make one. -/
def Mixer.receive (mixer : Mixer Seconds) (method : StreamMethod) (message : Message) :
    Mixer Seconds × List Notice :=
  match StreamEvent.ofArguments method message.arguments with
  | .error cause => (mixer, [.callIgnored message.path cause])
  | .ok event =>
      let (next, applied) := mixer.apply event
      (next, .callReceived method event.id :: applied.notices next.readHead)

end AudioBus
