import AudioBus.Host.Basic

/-!
Descriptions of a bus and of the objects on it, for a reader who looks into a running process.
-/

namespace AudioBus

def truthWord (value : Bool) : String :=
  if value then "true" else "false"

def Bus.description {η : Type} (bus : Bus η) : String :=
  s!"LocalBus \x7b peer_name: {quoted bus.peerName}, " ++
    s!"synchronized: {truthWord bus.isSynchronized}, pending: {bus.pending.length}, .. \x7d"

def Service.description (service : Service) : String :=
  let methods := String.intercalate ", " (service.methods.map quoted)
  s!"Service \x7b name: {quoted service.name}, methods: [{methods}] \x7d"

def Client.description (client : Client) : String :=
  s!"Client \x7b address: {quoted client.address} \x7d"

def Transmitter.description (transmitter : Transmitter) : String :=
  s!"Transmitter \x7b id: StreamId({transmitter.id.value.toInt}), " ++
    s!"address: {quoted transmitter.client.address}, " ++
    s!"time: {transmitter.time.text DecimalLayout.description}, " ++
    s!"sample_counter: {transmitter.sampleCounter}, " ++
    s!"announced: {truthWord transmitter.announced}, .. \x7d"

def HostedObject.description? : HostedObject → Option String
  | .service held => some held.description
  | .client held => some held.description
  | .transmitter held => some held.description
  | _ => none

end AudioBus
