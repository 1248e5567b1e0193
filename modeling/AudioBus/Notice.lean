import AudioBus.Binary.Text
import AudioBus.Bus.Error
import AudioBus.Stream.Mixer

/-!
Notices: what the library reports about its own doing, for a log.
-/

namespace AudioBus

inductive NoticeLevel where
  | error
  | warning
  | debug
  | trace
deriving DecidableEq

inductive Notice where
  /- Services. -/
  | serviceProvided (service peer : String)
  | serviceRemoved (service : String)
  | methodImplemented (path : String)
  /- Delivery. -/
  | frameUndecodable (cause : DecodeError)
  | methodUnknown (path : String)
  | argumentsRefused (path : String) (expected found : Signature)
  /- Receivers. -/
  | receiving (service endpoint : String) (rate : SampleRate) (capacity : Nat)
  | callReceived (method : StreamMethod) (id : StreamId)
  | callIgnored (path : String) (cause : EventError)
  /- Mixers. -/
  | anchoredByConsumer (time : Seconds)
  | anchorIgnored (time : Seconds)
  | anchoredByStream (id : StreamId) (time : Seconds)
  | streamRealigned (id : StreamId) (previous index : SampleIndex)
  | streamOpened (id : StreamId) (index : SampleIndex)
  | streamUndeclared (id : StreamId)
  | samplesLost (id : StreamId) (placement : Placement) (length : Nat)
      (start readHead : SampleIndex)
  | streamClosed (id : StreamId)
  /- Transmitters. -/
  | transmitting (id : StreamId) (address : String)
  | awaitingSync (id : StreamId)
  | synchronized (id : StreamId) (time : Seconds)
  | transmissionClosed (id : StreamId) (time : Seconds)
  | closeFailed (id : StreamId) (cause : BusError)
deriving DecidableEq

def Placement.description : Placement → String
  | .mixed => "Mixed"
  | .partlyLate late => s!"PartiallyOld \x7b late: {late} \x7d"
  | .partlyEarly late early => s!"PartiallyNew \x7b late: {late}, early: {early} \x7d"
  | .whollyLate => "EntirelyOld"
  | .whollyEarly => "EntirelyNew"

namespace Notice

def level : Notice → NoticeLevel
  | .closeFailed .. => .error
  | .frameUndecodable .. => .warning
  | .methodUnknown .. => .warning
  | .argumentsRefused .. => .warning
  | .callIgnored .. => .warning
  | .callReceived .. => .trace
  | .samplesLost .. => .trace
  | _ => .debug

def text : Notice → String
  | .serviceProvided service peer => s!"service {service} is now provided by {peer}"
  | .serviceRemoved service => s!"service {service} removed"
  | .methodImplemented path => s!"implemented {path}"
  | .frameUndecodable cause =>
      s!"dropping undecodable frame: {(BusError.undecodable cause).message}"
  | .methodUnknown path => s!"no method at {path}, dropping message"
  | .argumentsRefused path expected found =>
      s!"{path} expects \"{expected}\", dropping message with \"{found}\""
  | .receiving service endpoint rate capacity =>
      s!"receiving at {service}/{endpoint}, {rate.hertz} Hz, {capacity} samples"
  | .callReceived method id => s!"{method} for stream {id}"
  | .callIgnored path cause => s!"ignoring call to {path}: {cause.message}"
  | .anchoredByConsumer time => s!"timeline anchored at {time}s by the consumer"
  | .anchorIgnored time => s!"timeline already anchored, ignoring stream time {time}s"
  | .anchoredByStream id time => s!"timeline anchored at {time}s by stream {id}"
  | .streamRealigned id previous index =>
      s!"stream {id} realigned from {previous.value} to {index.value}"
  | .streamOpened id index => s!"stream {id} opened at {index.value}"
  | .streamUndeclared id => s!"push from undeclared stream {id}, opening it at 0"
  | .samplesLost id placement length start readHead =>
      s!"stream {id}: {placement.description} writing {length} samples at {start.value}, " ++
        s!"read head at {readHead.value}"
  | .streamClosed id => s!"stream {id} closed"
  | .transmitting id address => s!"stream {id} will transmit to {address}"
  | .awaitingSync id => s!"stream {id}: waiting for clock sync"
  | .synchronized id time => s!"stream {id}: synchronized at {time}s"
  | .transmissionClosed id time => s!"stream {id} closed at {time}s"
  | .closeFailed id cause => s!"stream {id}: failed to close: {cause.message}"

end Notice

def Applied.notices (readHead : SampleIndex) : Applied → List Notice
  | .declared id time how =>
      (if how.anchored then [.anchoredByStream id time] else []) ++
        match how.previous with
        | some previous => [.streamRealigned id previous how.index]
        | none => [.streamOpened id how.index]
  | .taken id length how =>
      (if how.opened then [.streamUndeclared id] else []) ++
        (if how.placement.isLossy then
          [.samplesLost id how.placement length how.start readHead]
        else [])
  | .closed id wasOpen => if wasOpen then [.streamClosed id] else []

def anchoringNotice (time : Seconds) (anchored : Bool) : Notice :=
  if anchored then .anchoredByConsumer time else .anchorIgnored time

end AudioBus
