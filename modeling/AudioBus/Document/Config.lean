import AudioBus.Document.Basic
import AudioBus.Stream.Config

/-!
Configurations from documents.  Settings that are not given take their default values; one that
does not fit its type makes the whole document unfit.
-/

namespace AudioBus

namespace Document

def setting {α : Type} (default : α) (read : Document → Option α) : Option Document → Option α
  | none => some default
  | some document => read document

def asSampleRate? (document : Document) : Option SampleRate :=
  document.asNat?.bind SampleRate.ofNat?

def asOptionalCount? : Document → Option (Option SampleCount)
  | .null => some none
  | document => (document.asNat?.bind SampleCount.ofNat?).map some

def asNatBelow? (bound : Nat) (document : Document) : Option Nat :=
  document.asNat?.filter fun value => decide (value < bound)

def intervalOfParts? (seconds nanoseconds : Document) : Option Interval :=
  match seconds.asNatBelow? 0x1_0000_0000_0000_0000, nanoseconds.asNatBelow? 0x1_0000_0000 with
  | some seconds, some nanoseconds => Interval.ofParts? seconds nanoseconds
  | _, _ => none

def asInterval? (document : Document) : Option Interval :=
  match document with
  | .object fields =>
      if fields.all fun field => field.1 = "secs" || field.1 = "nanos" then
        match lookup "secs" fields, lookup "nanos" fields with
        | some seconds, some nanoseconds => intervalOfParts? seconds nanoseconds
        | _, _ => none
      else none
  | .list [seconds, nanoseconds] => intervalOfParts? seconds nanoseconds
  | _ => none

end Document

def ReceiverConfig.ofDocument? (document : Document) : Option ReceiverConfig :=
  match document.record? ["sample_rate", "capacity"] with
  | some [sampleRate, capacity] => do
      let sampleRate ← Document.setting default.sampleRate Document.asSampleRate? sampleRate
      let capacity ← Document.setting default.capacity Document.asOptionalCount? capacity
      return { sampleRate := sampleRate, capacity := capacity }
  | _ => none

def TransmitterConfig.ofDocument? (document : Document) : Option TransmitterConfig :=
  match document.record?
      ["sample_rate", "transmit_ahead", "immediate_cutoff", "max_chunk", "sync_poll_interval"] with
  | some [sampleRate, transmitAhead, immediateCutoff, maxChunk, syncPollInterval] => do
      let sampleRate ← Document.setting default.sampleRate Document.asSampleRate? sampleRate
      let transmitAhead ←
        Document.setting default.transmitAhead Document.asSeconds? transmitAhead
      let immediateCutoff ←
        Document.setting default.immediateCutoff Document.asSeconds? immediateCutoff
      let maxChunk ← Document.setting default.maxChunk Document.asOptionalCount? maxChunk
      let syncPollInterval ←
        Document.setting default.syncPollInterval Document.asInterval? syncPollInterval
      return {
        sampleRate := sampleRate
        transmitAhead := transmitAhead
        immediateCutoff := immediateCutoff
        maxChunk := maxChunk
        syncPollInterval := syncPollInterval }
  | _ => none

end AudioBus
