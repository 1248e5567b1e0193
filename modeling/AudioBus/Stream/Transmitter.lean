import AudioBus.Bus.Link

/-!
Transmitters: the sending ends of streams.

The samples of a stream lie on a timeline that starts at its stream time.  Every block is
scheduled a little ahead of the time at which it is meant to be heard.
-/

namespace AudioBus

inductive EndpointError where
  | bus (cause : BusError)
  | config (cause : ConfigError)
deriving DecidableEq

def EndpointError.message : EndpointError → String
  | .bus cause => cause.message
  | .config cause => s!"invalid configuration: {cause.message}"

structure Transmitter where
  client : Client
  id : StreamId
  config : TransmitterConfig
  time : Seconds
  sampleCounter : Nat
  lastDeadline : Seconds
  hasTime : Bool
  announced : Bool
  closed : Bool

namespace Transmitter

def streamTime (transmitter : Transmitter) : Seconds :=
  transmitter.time +
    Binary.ofNat transmitter.sampleCounter / Binary.ofNat transmitter.config.sampleRate.hertz

def setTransmitAhead (transmitter : Transmitter) (length : Seconds) : Transmitter :=
  { transmitter with config := { transmitter.config with transmitAhead := length } }

/-- When to deliver what is meant to be heard at `time`: ahead of it, or at once when that is too
close to the present or behind it. -/
def deadline (transmitter : Transmitter) (now time : Seconds) : Seconds :=
  let target := time - transmitter.config.transmitAhead
  if target.less (now + transmitter.config.immediateCutoff) then Binary.zero else target

/-- The timestamp of the next message: not before that of the latest one, while that one is still
waiting. -/
def holdBack (transmitter : Transmitter) (now timestamp : Seconds) : Seconds :=
  if now.less transmitter.lastDeadline then timestamp.larger transmitter.lastDeadline
  else timestamp

end Transmitter

def blocks (size : SampleCount) (samples : List Sample) : List (List Sample) :=
  if samples = [] then []
  else samples.take size.count :: blocks size (samples.drop size.count)
termination_by samples.length
decreasing_by
  have sizePos := size.count_pos
  have lengthPos : 0 < samples.length := List.length_pos_iff.mpr ‹_›
  rw [List.length_drop]
  omega

structure Sender (κ : Type) where
  transmitter : Transmitter
  link : κ

namespace Sender

variable {κ : Type} [Link κ]

def create (link : κ) (id : StreamId) (service endpoint : String) (config : TransmitterConfig) :
    Except EndpointError (Sender κ) :=
  match config.validate with
  | .error cause => .error (.config cause)
  | .ok () =>
      match Client.create (joinAddresses service endpoint) with
      | .error cause => .error (.bus cause)
      | .ok client =>
          .ok
            { transmitter :=
                { client := client
                  id := id
                  config := config
                  time := Binary.zero
                  sampleCounter := 0
                  lastDeadline := Binary.zero
                  hasTime := false
                  announced := false
                  closed := false }
              link := Link.note link (.transmitting id client.address) }

def now (sender : Sender κ) : Seconds := Link.now sender.link

def note (sender : Sender κ) (notice : Notice) : Sender κ :=
  { sender with link := Link.note sender.link notice }

def start (sender : Sender κ) : Sender κ :=
  { sender with
    transmitter :=
      { sender.transmitter with hasTime := true, time := sender.now, sampleCounter := 0 } }.note
    (.synchronized sender.transmitter.id sender.now)

/-- Waits until the clock is synchronized for the receiver's service, then starts the stream,
unless it has a time already.  Nothing when the wait has no end. -/
def awaitSync (sender : Sender κ) : Option (Sender κ) :=
  if sender.transmitter.hasTime then some sender
  else
    let service := sender.transmitter.client.service
    let (status, link) := Link.status sender.link service
    let looked := { sender with link := link }
    if status.isSynchronized then some looked.start
    else
      let waiting := looked.note (.awaitingSync sender.transmitter.id)
      (Link.awaitSynchronized waiting.link service).map fun link =>
        { waiting with link := link }.start

def send (sender : Sender κ) (timestamp : Seconds) (event : StreamEvent) :
    Except BusError (Sender κ) :=
  let timestamp := sender.transmitter.holdBack sender.now timestamp
  match sender.transmitter.client.send sender.link timestamp event.method.name
      event.toArguments with
  | .error cause => .error cause
  | .ok link =>
      .ok
        { transmitter := { sender.transmitter with lastDeadline := timestamp }
          link := link }

def announce (sender : Sender κ) : Except BusError (Sender κ) :=
  let time := sender.transmitter.streamTime
  let timestamp := sender.transmitter.deadline sender.now time
  (sender.send timestamp (.sync sender.transmitter.id time)).map fun sent =>
    { sent with transmitter := { sent.transmitter with announced := true, closed := false } }

/-- Restarts the stream: the next sample is meant to be heard at `time`.  The restart holds also
when it cannot be announced. -/
def setStreamTime (sender : Sender κ) (time : Seconds) :
    Option (Sender κ × Except BusError Unit) :=
  sender.awaitSync.map fun ready =>
    let restarted :=
      { ready with transmitter := { ready.transmitter with time := time, sampleCounter := 0 } }
    match restarted.announce with
    | .error cause => (restarted, .error cause)
    | .ok announced => (announced, .ok ())

def sendBlock (sender : Sender κ) (block : List Sample) : Except BusError (Sender κ) :=
  let timestamp := sender.transmitter.deadline sender.now sender.transmitter.streamTime
  (sender.send timestamp (.push sender.transmitter.id block)).map fun sent =>
    { sent with
      transmitter :=
        { sent.transmitter with
          sampleCounter := sent.transmitter.sampleCounter + block.length } }

/-- Sends blocks up to the first that is refused; those before it stay counted. -/
def sendBlocks (sender : Sender κ) : List (List Sample) → Sender κ × Except BusError Unit
  | [] => (sender, .ok ())
  | block :: rest =>
      match sender.sendBlock block with
      | .error cause => (sender, .error cause)
      | .ok sent => sent.sendBlocks rest

def ensureAnnounced (sender : Sender κ) : Except BusError (Sender κ) :=
  if sender.transmitter.announced then .ok sender else sender.announce

/-- Sends samples in blocks, announcing the stream first if needed.  The result is how many were
sent, when all were. -/
def push (sender : Sender κ) (samples : List Sample) : Option (Sender κ × Except BusError Nat) :=
  if samples = [] then some (sender, .ok 0)
  else
    sender.awaitSync.map fun ready =>
      match ready.ensureAnnounced with
      | .error cause => (ready, .error cause)
      | .ok announced =>
          let (last, result) :=
            announced.sendBlocks (blocks ready.transmitter.config.effectiveMaxChunk samples)
          (last, result.map fun _ => samples.length)

/-- Ends the stream once its last sample has been heard.  A stream that was never announced, or
is closed already, stays as it is. -/
def close (sender : Sender κ) : Except BusError (Sender κ) :=
  if !sender.transmitter.announced || sender.transmitter.closed then .ok sender
  else
    let finish := sender.transmitter.streamTime
    let timestamp := if sender.now.less finish then finish else Binary.zero
    (sender.send timestamp (.close sender.transmitter.id)).map fun sent =>
      { sent with
        transmitter := { sent.transmitter with closed := true, announced := false } }.note
        (.transmissionClosed sender.transmitter.id finish)

/-- What is left of the link when a transmitter goes: it closes its stream. -/
def drop (sender : Sender κ) : κ :=
  match sender.close with
  | .ok closed => closed.link
  | .error cause => Link.note sender.link (.closeFailed sender.transmitter.id cause)

end Sender

end AudioBus
