import AudioBus.Proofs.Mixer.Run
import Mathlib.Data.List.Basic

/-!
A mixer that plays a single stream is a queue: its consumer gets the samples of the stream in
order, each once, as long as no block of it is too early for the ring.
-/

namespace AudioBus

def Placement.isEarly : Placement → Bool
  | .partlyEarly _ _ | .whollyEarly => true
  | .mixed | .partlyLate _ | .whollyLate => false

namespace Ring

theorem mixAt_zipIdx {samples : List Sample} (first : Nat) {offset : Nat}
    (within : offset < samples.length) :
    mixAt (samples.zipIdx first) (first + offset) = silence + samples[offset] := by
  rw [mixAt, soundsAt_zipIdx, List.getElem?_eq_getElem within]
  rfl

theorem mix_of_not_early {ring : Ring} {writeHead : SampleIndex} {block : List Sample}
    (notBehind : ring.readHead.value ≤ writeHead.value)
    (notEarly : (ring.mix writeHead block).2.2.isEarly = false) :
    ring.landing writeHead.value block = block.zipIdx writeHead.value ∧
      (writeHead.advance block.length).value = writeHead.value + block.length := by
  rcases ring.block_cases writeHead block with behind | beyond | ⟨reaches, notBeyond⟩
  · omega
  · rw [mix_of_beyond beyond] at notEarly
    contradiction
  · have noneLate : ring.readHead.value - writeHead.value = 0 := by omega
    have placed := (mix_of_within reaches notBeyond).2.2.2
    rw [noneLate, Nat.add_zero, List.drop_zero] at placed
    have room : block.length ≤ ring.limit.value - 1 - writeHead.value := by
      by_cases early : 0 < block.length - (ring.limit.value - 1 - writeHead.value)
      · rw [placed, if_pos early] at notEarly
        contradiction
      · omega
    constructor
    · have start : max ring.readHead.value writeHead.value = writeHead.value := by omega
      rw [landing_eq, noneLate, start, List.drop_zero, List.take_of_length_le room]
    · have limitBound := ring.limit.value_le
      have writeHeadBound := writeHead.value_le
      rw [SampleIndex.advance_value]
      omega

end Ring

namespace Mixer

variable {τ : Type}

section

variable [TimeScale τ]

def framesPulled (mixer : Mixer τ) (out : Array Sample) (frames : Nat) (stride : SampleCount) :
    List Sample :=
  (List.range (mixer.pull out frames stride).2.2.frames).filterMap fun offset =>
    (mixer.pull out frames stride).2.1[offset * stride.count]?

def framesDropped (mixer : Mixer τ) (frames : Nat) : List Sample :=
  (List.range (mixer.discard frames).2.frames).map fun offset =>
    mixer.ring.slotAt (mixer.readHead.value + offset)

theorem framesPulled_eq {mixer : Mixer τ} {landed : List (Sample × Nat)}
    (carries : mixer.ring.Carries landed) (out : Array Sample) (frames : Nat)
    (stride : SampleCount) :
    mixer.framesPulled out frames stride =
      (List.range (mixer.pull out frames stride).2.2.frames).map fun offset =>
        Ring.mixAt landed (mixer.readHead.value + offset) := by
  apply List.filterMap_eq_map_iff_forall_eq_some.mpr
  intro offset inRange
  exact carries.read_out out (min frames mixer.available) stride (List.mem_range.mp inRange)

end

def heard (samples : List Sample) : List Sample :=
  samples.map (silence + ·)

theorem heard_slice {samples : List Sample} {start count : Nat}
    (within : start + count ≤ samples.length) {frame : Nat → Sample}
    (frameEq : ∀ offset, (inside : offset < count) →
      frame offset = silence + samples[start + offset]) :
    (List.range count).map frame = heard ((samples.drop start).take count) := by
  apply List.ext_getElem
  · simp only [heard, List.length_map, List.length_range, List.length_take, List.length_drop]
    omega
  · intro offset insideRange insideSlice
    have inside : offset < count := by
      rw [List.length_map, List.length_range] at insideRange
      exact insideRange
    simp only [heard, List.getElem_map, List.getElem_range, List.getElem_take, List.getElem_drop]
    exact frameEq offset inside

structure Idle (mixer : Mixer τ) : Prop where
  noStream : mixer.streams.entries = []
  unanchored : mixer.timeline.reference = none
  carries : mixer.ring.Carries []

/-- The stream `id` alone is open.  It began at position `base` and has pushed `samples` since; the
read head is among them. -/
structure Solo (mixer : Mixer τ) (id : StreamId) (base : Nat) (samples : List Sample) : Prop where
  stream : ∃ index : SampleIndex, mixer.streams.entries = [(id, index)] ∧
    index.value = base + samples.length
  carries : mixer.ring.Carries (samples.zipIdx base)
  notBefore : base ≤ mixer.readHead.value
  notBeyond : mixer.readHead.value ≤ base + samples.length

namespace Idle

variable {mixer : Mixer τ}

theorem create {config : ReceiverConfig} {mixer : Mixer τ}
    (created : Mixer.create config = .ok mixer) : mixer.Idle := by
  unfold Mixer.create ReceiverConfig.validate at created
  split at created
  · cases created
  · cases created
    exact ⟨rfl, rfl, Ring.silent_carries _⟩

theorem release (idle : mixer.Idle) (count : Nat) :
    { mixer with ring := mixer.ring.release count }.Idle :=
  ⟨idle.noStream, idle.unanchored, idle.carries.release count⟩

variable [TimeScale τ]

theorem pull (idle : mixer.Idle) (out : Array Sample) (frames : Nat) (stride : SampleCount) :
    (mixer.pull out frames stride).1.Idle := by
  rw [pull_mixer]
  exact idle.release _

theorem discard (idle : mixer.Idle) (frames : Nat) : (mixer.discard frames).1.Idle :=
  idle.release _

theorem declare (idle : mixer.Idle) (id : StreamId) (time : τ) :
    (mixer.declare id time).1.Solo id mixer.readHead.value [] := by
  have absent : id ∉ mixer.streams.keys := by
    unfold Table.keys
    rw [idle.noStream]
    exact List.not_mem_nil
  have anchored : (mixer.timeline.anchor time mixer.readHead).2 = true := by
    unfold Timeline.anchor
    rw [idle.unanchored]
  constructor
  case stream =>
    refine ⟨mixer.readHead, ?_, rfl⟩
    change (mixer.streams.insert id (if (mixer.timeline.anchor time mixer.readHead).2 then
      mixer.readHead else _)).entries = _
    rw [anchored, if_pos rfl, Table.insert_entries_of_absent absent, idle.noStream]
    rfl
  case carries => exact idle.carries
  case notBefore => exact Nat.le_refl _
  case notBeyond => exact Nat.le_refl _

end Idle

namespace Solo

variable {mixer : Mixer τ} {id : StreamId} {base : Nat} {samples : List Sample}

theorem available (solo : mixer.Solo id base samples) :
    mixer.available = min mixer.capacity (base + samples.length - mixer.readHead.value) := by
  obtain ⟨index, entriesEq, indexEq⟩ := solo.stream
  unfold Mixer.available Table.values
  rw [entriesEq, ← indexEq]
  rfl

theorem available_le (solo : mixer.Solo id base samples) :
    mixer.readHead.value + mixer.available ≤ base + samples.length := by
  have notBeyond := solo.notBeyond
  rw [solo.available]
  omega

theorem find? (solo : mixer.Solo id base samples) :
    ∃ index, mixer.streams.find? id = some index ∧ index.value = base + samples.length := by
  obtain ⟨index, entriesEq, indexEq⟩ := solo.stream
  refine ⟨index, ?_, indexEq⟩
  unfold Table.find?
  rw [entriesEq, Table.findIn, if_pos rfl]

theorem push (solo : mixer.Solo id base samples) {block : List Sample}
    (notEarly : (mixer.push id block).2.placement.isEarly = false) :
    (mixer.push id block).1.Solo id base (samples ++ block) := by
  obtain ⟨index, found, indexEq⟩ := solo.find?
  have notBehind : mixer.ring.readHead.value ≤ index.value := by
    rw [indexEq]
    exact solo.notBeyond
  rw [push_placement, found] at notEarly
  obtain ⟨landed, advanced⟩ := Ring.mix_of_not_early notBehind notEarly
  constructor
  case stream =>
    obtain ⟨_, entriesEq, _⟩ := solo.stream
    have present : id ∈ mixer.streams.keys := by
      unfold Table.keys
      rw [entriesEq]
      exact List.mem_singleton_self id
    refine ⟨index.advance block.length, ?_, ?_⟩
    · rw [push_streams, found, Table.insert_entries_of_present present, entriesEq, Table.replaceIn,
        if_pos rfl]
      rfl
    · rw [advanced, indexEq, List.length_append, Nat.add_assoc]
  case carries =>
    have mixed := solo.carries.mix index block
    rw [landed, indexEq, ← List.zipIdx_append] at mixed
    change (mixer.ring.mix ((mixer.streams.find? id).getD SampleIndex.zero) block).1.Carries _
    rw [found]
    exact mixed
  case notBefore =>
    change base ≤ (mixer.ring.mix _ block).1.readHead.value
    rw [Ring.mix_readHead]
    exact solo.notBefore
  case notBeyond =>
    have notBeyond := solo.notBeyond
    change (mixer.ring.mix _ block).1.readHead.value ≤ _
    rw [Ring.mix_readHead, List.length_append]
    change mixer.readHead.value ≤ _
    omega

theorem release (solo : mixer.Solo id base samples) {count : Nat}
    (within : count ≤ mixer.available) :
    { mixer with ring := mixer.ring.release count }.Solo id base samples ∧
      (mixer.ring.release count).readHead.value = mixer.readHead.value + count := by
  obtain ⟨index, entriesEq, indexEq⟩ := solo.stream
  have notBefore := solo.notBefore
  have reached := solo.available_le
  have indexBound := index.value_le
  have moved : (mixer.ring.release count).readHead.value = mixer.readHead.value + count := by
    rw [Ring.release_readHead, SampleIndex.advance_value]
    change min (mixer.readHead.value + count) lastIndex = _
    omega
  refine ⟨?_, moved⟩
  constructor
  case stream => exact ⟨index, entriesEq, indexEq⟩
  case carries => exact solo.carries.release count
  case notBefore =>
    change base ≤ (mixer.ring.release count).readHead.value
    omega
  case notBeyond =>
    change (mixer.ring.release count).readHead.value ≤ _
    omega

theorem mixAt (solo : mixer.Solo id base samples) {offset : Nat}
    (within : offset < mixer.available) :
    ∃ inside : mixer.readHead.value - base + offset < samples.length,
      Ring.mixAt (samples.zipIdx base) (mixer.readHead.value + offset) =
        silence + samples[mixer.readHead.value - base + offset] := by
  have notBefore := solo.notBefore
  have reached := solo.available_le
  have inside : mixer.readHead.value - base + offset < samples.length := by omega
  have position :
      mixer.readHead.value + offset = base + (mixer.readHead.value - base + offset) := by
    omega
  refine ⟨inside, ?_⟩
  rw [position]
  exact Ring.mixAt_zipIdx base inside

variable [TimeScale τ]

theorem pull (solo : mixer.Solo id base samples) (out : Array Sample) (frames : Nat)
    (stride : SampleCount) :
    (mixer.pull out frames stride).1.Solo id base samples ∧
      ∃ count, (mixer.pull out frames stride).1.readHead.value = mixer.readHead.value + count ∧
        mixer.framesPulled out frames stride =
          heard ((samples.drop (mixer.readHead.value - base)).take count) := by
  have count := mixer.pull_frames out frames stride
  have within : (mixer.pull out frames stride).2.2.frames ≤ mixer.available := by omega
  have notBefore := solo.notBefore
  have reached := solo.available_le
  obtain ⟨released, moved⟩ := solo.release within
  rw [← pull_mixer] at released
  refine ⟨released, (mixer.pull out frames stride).2.2.frames, ?_, ?_⟩
  · rw [pull_mixer]
    exact moved
  · rw [framesPulled_eq solo.carries]
    apply heard_slice (by omega)
    intro offset inside
    exact (solo.mixAt (Nat.lt_of_lt_of_le inside within)).2

theorem discard (solo : mixer.Solo id base samples) (frames : Nat) :
    (mixer.discard frames).1.Solo id base samples ∧
      ∃ count, (mixer.discard frames).1.readHead.value = mixer.readHead.value + count ∧
        mixer.framesDropped frames =
          heard ((samples.drop (mixer.readHead.value - base)).take count) := by
  have within : (mixer.discard frames).2.frames ≤ mixer.available := Nat.min_le_right _ _
  have notBefore := solo.notBefore
  have reached := solo.available_le
  have aLap : mixer.available ≤ mixer.ring.capacity := by
    rw [solo.available]
    exact Nat.min_le_left _ _
  obtain ⟨released, moved⟩ := solo.release within
  refine ⟨released, (mixer.discard frames).2.frames, moved, ?_⟩
  apply heard_slice (by omega)
  intro offset inside
  have inLap : offset < mixer.available := Nat.lt_of_lt_of_le inside within
  have shown := solo.carries.shown (mixer.readHead.value + offset) (Nat.le_add_right _ _)
    (Nat.add_lt_add_left (Nat.lt_of_lt_of_le inLap aLap) _)
  rw [shown]
  exact (solo.mixAt inLap).2

end Solo

end Mixer

end AudioBus
