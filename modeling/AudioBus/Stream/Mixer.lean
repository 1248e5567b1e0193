import AudioBus.Stream.Config
import AudioBus.Stream.Event
import AudioBus.Stream.Ring
import AudioBus.Stream.Timeline
import AudioBus.Table

/-!
The mixing core of a receiver: it gathers the blocks of all streams into one ring, each where the
stream's place on the timeline puts it.

The consumer sees no further than the slowest stream: only samples that every open stream has
written past are available.
-/

namespace AudioBus

structure Consumed (τ : Type) where
  frames : Nat
  startTime : Option τ

structure Declared where
  anchored : Bool
  previous : Option SampleIndex
  index : SampleIndex
deriving DecidableEq

structure Taken where
  opened : Bool
  start : SampleIndex
  placement : Placement
deriving DecidableEq

structure Mixer (τ : Type) where
  /-- The position of the next sample of every open stream. -/
  streams : Table StreamId SampleIndex
  ring : Ring
  timeline : Timeline τ

namespace Mixer

variable {τ : Type}

def create (config : ReceiverConfig) : Except ConfigError (Mixer τ) :=
  config.validate.map fun _ =>
    { streams := Table.empty
      ring := Ring.silent config.effectiveCapacity
      timeline := Timeline.unanchored config.sampleRate }

def sampleRate (mixer : Mixer τ) : SampleRate := mixer.timeline.rate

def capacity (mixer : Mixer τ) : Nat := mixer.ring.capacity

def readHead (mixer : Mixer τ) : SampleIndex := mixer.ring.readHead

def reference (mixer : Mixer τ) : Option τ := mixer.timeline.reference

def channels : Nat := 1

def lead (readHead index : SampleIndex) : Nat :=
  index.value - readHead.value

/-- How many frames every open stream has written, one lap at most; a full lap when no stream is
open. -/
def available (mixer : Mixer τ) : Nat :=
  mixer.streams.values.foldl
    (fun least index => min least (lead mixer.readHead index)) mixer.capacity

variable [TimeScale τ]

def startTime (mixer : Mixer τ) : Option τ :=
  mixer.timeline.timeOf? mixer.readHead

/-! ### The consumer's side -/

/-- Moves up to `frames` available frames to every `stride`-th element of `out`. -/
def pull (mixer : Mixer τ) (out : Array Sample) (frames : Nat) (stride : SampleCount) :
    Mixer τ × Array Sample × Consumed τ :=
  let (ring, filled, count) := mixer.ring.read out (min frames mixer.available) stride
  ({ mixer with ring := ring }, filled, { frames := count, startTime := mixer.startTime })

def discard (mixer : Mixer τ) (frames : Nat) : Mixer τ × Consumed τ :=
  let count := min frames mixer.available
  ({ mixer with ring := mixer.ring.release count },
    { frames := count, startTime := mixer.startTime })

def gap (mixer : Mixer τ) (frames : Nat) : Mixer τ :=
  { mixer with ring := mixer.ring.release frames }

/-- Makes the next frame happen at `time`, unless the timeline is anchored already.  The second
result says whether it was not. -/
def setStreamTime (mixer : Mixer τ) (time : τ) : Mixer τ × Bool :=
  let (timeline, anchored) := mixer.timeline.anchor time mixer.readHead
  ({ mixer with timeline := timeline }, anchored)

/-! ### The streams' side -/

/-- Declares a stream whose first sample happens at `time`.  The first declaration anchors the
timeline at the read head; declaring an open stream realigns it. -/
def declare (mixer : Mixer τ) (id : StreamId) (time : τ) : Mixer τ × Declared :=
  let (timeline, anchored) := mixer.timeline.anchor time mixer.readHead
  let index :=
    if anchored then mixer.readHead else (timeline.indexOf? time).getD mixer.readHead
  let declared :=
    { anchored := anchored
      previous := mixer.streams.find? id
      index := index }
  ({ mixer with streams := mixer.streams.insert id index, timeline := timeline }, declared)

omit [TimeScale τ] in
/-- Mixes the next block of a stream.  A stream that was not declared starts at the first
position. -/
def push (mixer : Mixer τ) (id : StreamId) (block : List Sample) : Mixer τ × Taken :=
  let known := mixer.streams.find? id
  let start := known.getD SampleIndex.zero
  let (ring, behind, placement) := mixer.ring.mix start block
  ({ mixer with streams := mixer.streams.insert id behind, ring := ring },
    { opened := known.isNone, start := start, placement := placement })

omit [TimeScale τ] in
def close (mixer : Mixer τ) (id : StreamId) : Mixer τ × Bool :=
  ({ mixer with streams := mixer.streams.erase id }, mixer.streams.contains id)

end Mixer

inductive Applied where
  | declared (id : StreamId) (time : Seconds) (how : Declared)
  | taken (id : StreamId) (length : Nat) (how : Taken)
  | closed (id : StreamId) (wasOpen : Bool)
deriving DecidableEq

def Mixer.apply (mixer : Mixer Seconds) : StreamEvent → Mixer Seconds × Applied
  | .sync id time =>
      let (next, how) := mixer.declare id time
      (next, .declared id time how)
  | .push id samples =>
      let (next, how) := mixer.push id samples
      (next, .taken id samples.length how)
  | .close id =>
      let (next, wasOpen) := mixer.close id
      (next, .closed id wasOpen)

end AudioBus
