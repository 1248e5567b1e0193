import AudioBus.Proofs.Mixer.Run

/-!
A mixer plays an unbounded mixdown.

The mixdown has no ring: it keeps every accepted sample at its own position of the timeline, and
every stream as the position of its declaration with the samples pushed since.  What the mixer's
consumer gets at a position is the sum of the samples there.
-/

namespace AudioBus

structure Track where
  /-- Where the stream was placed when it was last opened or declared. -/
  base : Nat
  pushed : Nat

namespace Track

def next (track : Track) : Nat := track.base + track.pushed

def index (track : Track) : SampleIndex := SampleIndex.clamp track.next

def undeclared : Track where
  base := 0
  pushed := 0

theorem index_undeclared : undeclared.index = SampleIndex.zero :=
  rfl

theorem index_declared (base : SampleIndex) : ({ base := base.value, pushed := 0 } : Track).index =
    base :=
  base.advance_zero

theorem index_pushed (track : Track) (samples : Nat) :
    ({ track with pushed := track.pushed + samples } : Track).index =
      track.index.advance samples := by
  simp only [index, next, SampleIndex.advance, SampleIndex.clamp, SampleIndex.mk.injEq]
  omega

end Track

structure Mixdown (τ : Type) where
  capacity : Nat
  tracks : Table StreamId Track
  /-- The accepted samples with their positions, in the order of the pushes. -/
  landed : List (Sample × Nat)
  readHead : SampleIndex
  timeline : Timeline τ

namespace Mixdown

variable {τ : Type}

def start (config : ReceiverConfig) : Mixdown τ where
  capacity := config.effectiveCapacity.count
  tracks := Table.empty
  landed := []
  readHead := SampleIndex.zero
  timeline := Timeline.unanchored config.sampleRate

def available (mixdown : Mixdown τ) : Nat :=
  mixdown.tracks.values.foldl
    (fun least track => min least (min track.next lastIndex - mixdown.readHead.value))
    mixdown.capacity

def consume (mixdown : Mixdown τ) (frames : Nat) : Mixdown τ :=
  { mixdown with readHead := mixdown.readHead.advance frames }

/-- The samples of a block belong at consecutive positions; those within reach are accepted. -/
def push (mixdown : Mixdown τ) (id : StreamId) (block : List Sample) : Mixdown τ :=
  let track := (mixdown.tracks.find? id).getD Track.undeclared
  let accepted := (block.zipIdx track.next).filter fun placed =>
    Ring.inReach mixdown.readHead.value mixdown.capacity placed.2
  { mixdown with
    tracks := mixdown.tracks.insert id { track with pushed := track.pushed + block.length }
    landed := mixdown.landed ++ accepted }

variable [TimeScale τ]

def declare (mixdown : Mixdown τ) (id : StreamId) (time : τ) : Mixdown τ :=
  let (timeline, anchored) := mixdown.timeline.anchor time mixdown.readHead
  let base :=
    if anchored then mixdown.readHead else (timeline.indexOf? time).getD mixdown.readHead
  { mixdown with
    tracks := mixdown.tracks.insert id { base := base.value, pushed := 0 }
    timeline := timeline }

def perform (mixdown : Mixdown τ) : MixerCall τ → Mixdown τ
  | .declare id time => mixdown.declare id time
  | .push id block => mixdown.push id block
  | .close id => { mixdown with tracks := mixdown.tracks.erase id }
  | .pull out frames stride =>
      mixdown.consume (min (min frames mixdown.available)
        (min (Ring.stridedLength out.size stride.count) mixdown.capacity))
  | .discard frames => mixdown.consume (min frames mixdown.available)
  | .gap frames => mixdown.consume frames
  | .setStreamTime time =>
      { mixdown with timeline := (mixdown.timeline.anchor time mixdown.readHead).1 }

def run (mixdown : Mixdown τ) (calls : List (MixerCall τ)) : Mixdown τ :=
  calls.foldl perform mixdown

end Mixdown

namespace Mixer

variable {τ : Type}

/-- The simulation between a mixer and a mixdown. -/
structure Plays (mixer : Mixer τ) (mixdown : Mixdown τ) : Prop where
  streams : mixer.streams = mixdown.tracks.mapValues Track.index
  readHead : mixer.readHead = mixdown.readHead
  capacity : mixer.capacity = mixdown.capacity
  timeline : mixer.timeline = mixdown.timeline
  carries : mixer.ring.Carries mixdown.landed

theorem create_plays {config : ReceiverConfig} {mixer : Mixer τ}
    (created : Mixer.create config = .ok mixer) : mixer.Plays (Mixdown.start config) := by
  unfold create ReceiverConfig.validate at created
  split at created
  · cases created
  · cases created
    exact
      { streams := (Table.mapValues_empty _).symm
        readHead := rfl
        capacity := Array.size_replicate
        timeline := rfl
        carries := Ring.silent_carries _ }

namespace Plays

variable {mixer : Mixer τ} {mixdown : Mixdown τ} (plays : mixer.Plays mixdown)

include plays

theorem available : mixer.available = mixdown.available := by
  rw [Mixer.available, Mixdown.available, plays.streams, plays.readHead, plays.capacity,
    Table.mapValues_values, List.foldl_map]
  rfl

theorem find? (id : StreamId) :
    mixer.streams.find? id = (mixdown.tracks.find? id).map Track.index := by
  rw [plays.streams, Table.find?_mapValues]

theorem release (frames : Nat) :
    ({ mixer with ring := mixer.ring.release frames } : Mixer τ).Plays
      (mixdown.consume frames) where
  streams := plays.streams
  readHead := congrArg (fun readHead => readHead.advance frames) plays.readHead
  capacity := (Ring.release_capacity _ _).trans plays.capacity
  timeline := plays.timeline
  carries := plays.carries.release frames

theorem push (id : StreamId) (block : List Sample) :
    (mixer.push id block).1.Plays (mixdown.push id block) := by
  have start : (mixer.streams.find? id).getD SampleIndex.zero =
      ((mixdown.tracks.find? id).getD Track.undeclared).index := by
    rw [plays.find?]
    cases mixdown.tracks.find? id with
    | none => exact Track.index_undeclared.symm
    | some track => rfl
  constructor
  · rw [push_streams, start, ← Track.index_pushed, plays.streams]
    exact (Table.mapValues_insert _ _ _ _).symm
  · exact (Ring.mix_readHead _ _ _).trans plays.readHead
  · exact (Ring.mix_capacity _ _ _).trans plays.capacity
  · exact plays.timeline
  · have mixed := plays.carries.mix ((mixer.streams.find? id).getD SampleIndex.zero) block
    rw [start, Track.index, Ring.landing_clamp] at mixed
    unfold Ring.landing at mixed
    have sameCapacity : mixer.ring.capacity = mixdown.capacity := plays.capacity
    have sameReadHead : mixer.ring.readHead = mixdown.readHead := plays.readHead
    rw [sameCapacity, sameReadHead] at mixed
    change (mixer.ring.mix ((mixer.streams.find? id).getD SampleIndex.zero) block).1.Carries _
    rw [start]
    exact mixed

variable [TimeScale τ]

theorem declare (id : StreamId) (time : τ) :
    (mixer.declare id time).1.Plays (mixdown.declare id time) := by
  constructor
  · unfold Mixer.declare Mixdown.declare
    simp only [plays.timeline, plays.readHead, plays.streams]
    rw [Table.mapValues_insert, Track.index_declared]
  · exact plays.readHead
  · exact plays.capacity
  · unfold Mixer.declare Mixdown.declare
    simp only [plays.timeline, plays.readHead]
  · exact plays.carries

theorem perform (call : MixerCall τ) : (mixer.perform call).Plays (mixdown.perform call) := by
  cases call with
  | declare id time => exact plays.declare id time
  | push id block => exact plays.push id block
  | close id =>
      exact
        { streams := by
            rw [Mixdown.perform, Table.mapValues_erase, ← plays.streams]
            rfl
          readHead := plays.readHead
          capacity := plays.capacity
          timeline := plays.timeline
          carries := plays.carries }
  | pull out frames stride =>
      rw [Mixer.perform, Mixdown.perform, pull_mixer, ← plays.available, ← plays.capacity]
      exact plays.release _
  | discard frames =>
      rw [Mixdown.perform, ← plays.available]
      exact plays.release _
  | gap frames => exact plays.release frames
  | setStreamTime time =>
      exact
        { streams := plays.streams
          readHead := plays.readHead
          capacity := plays.capacity
          timeline := by
            simp only [Mixer.perform, Mixer.setStreamTime, Mixdown.perform, plays.timeline,
              plays.readHead]
          carries := plays.carries }

theorem run (calls : List (MixerCall τ)) : (mixer.run calls).Plays (mixdown.run calls) := by
  induction calls generalizing mixer mixdown with
  | nil => exact plays
  | cons call rest inductionHypothesis => exact inductionHypothesis (plays.perform call)

theorem pull_out (out : Array Sample) (frames : Nat) (stride : SampleCount) {offset : Nat}
    (pulled : offset < (mixer.pull out frames stride).2.2.frames) :
    (mixer.pull out frames stride).2.1[offset * stride.count]? =
      some (Ring.mixAt mixdown.landed (mixer.readHead.value + offset)) :=
  plays.carries.read_out out (min frames mixer.available) stride pulled

end Plays

variable [TimeScale τ]

/-- A run of a mixer plays the mixdown of the same calls: write heads are the positions behind the
samples pushed, every frame pulled is the sum of the samples accepted for its position, and until
the read head stops at the end of the timeline the calls of the consumer take every position
exactly once, in order. -/
theorem run_plays_mixdown {config : ReceiverConfig} {mixer : Mixer τ}
    (created : Mixer.create config = .ok mixer) (calls : List (MixerCall τ)) :
    let reached := mixer.run calls
    let ideal := (Mixdown.start config).run calls
    reached.readHead = ideal.readHead ∧
      reached.available = ideal.available ∧
      (∀ id, (reached.streams.find? id).map SampleIndex.value =
        (ideal.tracks.find? id).map fun track => min (track.base + track.pushed) lastIndex) ∧
      (∀ out frames stride offset, offset < (reached.pull out frames stride).2.2.frames →
        (reached.pull out frames stride).2.1[offset * stride.count]? =
          some (Ring.mixAt ideal.landed (ideal.readHead.value + offset))) ∧
      (reached.readHead.value < lastIndex →
        mixer.positionsTaken calls = List.range reached.readHead.value) := by
  intro reached ideal
  have initial := create_plays created
  have plays : reached.Plays ideal := initial.run calls
  refine ⟨plays.readHead, plays.available, ?_, ?_, ?_⟩
  · intro id
    rw [plays.find?, Option.map_map]
    rfl
  · intro out frames stride offset pulled
    rw [plays.pull_out out frames stride pulled, plays.readHead]
  · intro notAtEnd
    have atStart : mixer.readHead.value = 0 := congrArg SampleIndex.value initial.readHead
    rw [positionsTaken_eq mixer calls notAtEnd, atStart, Nat.sub_zero, List.range_eq_range']

/-- The second block of the stream goes over the end of the slots. -/
def lapCalls : List (MixerCall Seconds) :=
  [.push { value := 7 } [Binary.ofNat 1, Binary.ofNat 2, Binary.ofNat 3], .gap 2,
    .push { value := 7 } [Binary.ofNat 4, Binary.ofNat 5], .close { value := 7 }]

theorem lapCalls_play_mixdown :
    Mixer.create fourSlotConfig = .ok fourSlotMixer ∧
      ((fourSlotMixer.run lapCalls).pull (Array.replicate 3 silence) 3 SampleCount.one).2.1[2]? =
        some (Binary.ofNat 5) ∧
      fourSlotMixer.positionsTaken lapCalls = [0, 1] := by
  have created : Mixer.create fourSlotConfig = .ok fourSlotMixer := rfl
  have played := run_plays_mixdown created lapCalls
  refine ⟨created, ?_, ?_⟩
  · have pulled := played.2.2.2.1 (Array.replicate 3 silence) 3 SampleCount.one 2
      (by decide +kernel)
    refine pulled.trans ?_
    decide +kernel
  · exact played.2.2.2.2 (by decide +kernel)

end Mixer

end AudioBus
