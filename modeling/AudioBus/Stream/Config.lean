import AudioBus.Binary.Text
import AudioBus.Binary.Arithmetic
import AudioBus.Quantity

/-!
Configurations of receivers and transmitters.
-/

namespace AudioBus

inductive DurationSetting where
  | transmitAhead
  | immediateCutoff
deriving DecidableEq

def DurationSetting.name : DurationSetting → String
  | .transmitAhead => "transmit_ahead"
  | .immediateCutoff => "immediate_cutoff"

inductive ConfigError where
  | capacityTooSmall (capacity : Nat)
  | invalidDuration (setting : DurationSetting) (value : Seconds)
  | zeroPollInterval
deriving DecidableEq

def ConfigError.message : ConfigError → String
  | .capacityTooSmall capacity =>
      s!"ring capacity must be at least 2 samples, got {capacity}"
  | .invalidDuration setting value =>
      s!"{setting.name} must be a finite, non-negative number of seconds, got {value}"
  | .zeroPollInterval => "sync poll interval must not be zero"

def defaultSampleRate : SampleRate where
  hertz := 44100
  hertz_pos := by decide
  hertz_lt := by decide

structure ReceiverConfig where
  sampleRate : SampleRate
  /-- Samples in the ring; two seconds of audio when not given. -/
  capacity : Option SampleCount
deriving DecidableEq

namespace ReceiverConfig

def default : ReceiverConfig where
  sampleRate := defaultSampleRate
  capacity := none

def twoSeconds (rate : SampleRate) : SampleCount where
  count := rate.hertz * 2
  count_pos := by
    have hertzPos := rate.hertz_pos
    omega
  count_lt := by
    have hertzBound := rate.hertz_lt
    omega

def effectiveCapacity (config : ReceiverConfig) : SampleCount :=
  config.capacity.getD (twoSeconds config.sampleRate)

/-- The slot next to the read head always stays free, so one sample takes two slots. -/
def validate (config : ReceiverConfig) : Except ConfigError Unit :=
  if config.effectiveCapacity.count < 2 then
    .error (.capacityTooSmall config.effectiveCapacity.count)
  else .ok ()

end ReceiverConfig

structure TransmitterConfig where
  sampleRate : SampleRate
  transmitAhead : Seconds
  immediateCutoff : Seconds
  /-- The most samples in one message; a quarter of a second of audio when not given. -/
  maxChunk : Option SampleCount
  syncPollInterval : Interval
deriving DecidableEq

namespace TransmitterConfig

def default : TransmitterConfig where
  sampleRate := defaultSampleRate
  transmitAhead := Binary.ofDecimal false 3 (-1)
  immediateCutoff := Binary.ofDecimal false 1 (-1)
  maxChunk := none
  syncPollInterval := Interval.halfSecond

def quarterSecond (rate : SampleRate) : SampleCount where
  count := max (rate.hertz / 4) 1
  count_pos := by omega
  count_lt := by
    have hertzBound := rate.hertz_lt
    omega

def effectiveMaxChunk (config : TransmitterConfig) : SampleCount :=
  config.maxChunk.getD (quarterSecond config.sampleRate)

def isUsableDuration (value : Seconds) : Bool :=
  value.isFinite && Binary.zero.atMost value

def validate (config : TransmitterConfig) : Except ConfigError Unit :=
  if !isUsableDuration config.transmitAhead then
    .error (.invalidDuration .transmitAhead config.transmitAhead)
  else if !isUsableDuration config.immediateCutoff then
    .error (.invalidDuration .immediateCutoff config.immediateCutoff)
  else if config.syncPollInterval.isZero then .error .zeroPollInterval
  else .ok ()

end TransmitterConfig

end AudioBus
