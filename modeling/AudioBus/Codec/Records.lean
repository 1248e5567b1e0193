import AudioBus.Bus.Status
import AudioBus.Codec.Message
import AudioBus.Stream.Config
import AudioBus.Stream.Id

/-!
Codecs of the other types that travel as bytes: signatures and their errors, service statuses,
stream identities and configurations.
-/

namespace AudioBus

namespace Codec

def signature : Codec Signature :=
  argumentKind.list.imap Signature.mk Signature.kinds

/-- The number of a kind, then the position, then the character of the kinds that have one. -/
def signatureError : Codec SignatureError where
  write
    | .unknownType position code =>
        writeVarint 0 ++ (varint64.pair char).write (position, code)
    | .missingElementType position => writeVarint 1 ++ varint64.write position
    | .invalidElementType position code =>
        writeVarint 2 ++ (varint64.pair char).write (position, code)
  read := varint32.read.bind fun number =>
    if number = 0 then
      (varint64.pair char).read.map fun fields => .unknownType fields.1 fields.2
    else if number = 1 then varint64.read.map .missingElementType
    else if number = 2 then
      (varint64.pair char).read.map fun fields => .invalidElementType fields.1 fields.2
    else Reader.fail .badValue

def serviceStatus : Codec ServiceStatus :=
  varint32.refine (fun number => ServiceStatus.all[number]?) ServiceStatus.level

def streamId : Codec StreamId :=
  int64.imap StreamId.mk StreamId.value

def sampleRate : Codec SampleRate :=
  varint32.refine SampleRate.ofNat? SampleRate.hertz

def sampleCount : Codec SampleCount :=
  varint64.refine SampleCount.ofNat? SampleCount.count

def interval : Codec Interval :=
  (varint64.pair varint32).refine (fun parts => Interval.ofParts? parts.1 parts.2)
    (fun interval => (interval.seconds, interval.nanoseconds))

def receiverConfig : Codec ReceiverConfig :=
  (sampleRate.pair sampleCount.option).imap
    (fun fields => { sampleRate := fields.1, capacity := fields.2 })
    (fun config => (config.sampleRate, config.capacity))

def transmitterConfig : Codec TransmitterConfig :=
  (sampleRate.pair (binary64.pair (binary64.pair (sampleCount.option.pair interval)))).imap
    (fun fields =>
      { sampleRate := fields.1
        transmitAhead := fields.2.1
        immediateCutoff := fields.2.2.1
        maxChunk := fields.2.2.2.1
        syncPollInterval := fields.2.2.2.2 })
    (fun config =>
      (config.sampleRate, config.transmitAhead, config.immediateCutoff, config.maxChunk,
        config.syncPollInterval))

end Codec

end AudioBus
