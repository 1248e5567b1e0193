import AudioBus.Proofs.Mixer.Lead
import AudioBus.Proofs.Mixer.Mixdown
import AudioBus.Proofs.Mixer.Solo
import AudioBus.Proofs.Ring.Cutting

/-!
Consuming in portions.  What a ring carries decides its slots, and a reached mixer carries what its
mixdown does.  So it makes no difference whether frames are pulled, discarded or skipped at once or
in two portions, not even beyond a lap or at the end of the timeline.
-/

namespace AudioBus

namespace Ring

variable {ring other : Ring} {landed : List (Sample × Nat)}

theorem Carries.unique (carries : ring.Carries landed) (otherCarries : other.Carries landed)
    (readHead : ring.readHead = other.readHead) (capacity : ring.capacity = other.capacity) :
    ring = other := by
  refine eq_of_slots (Array.ext_getElem? fun slot => ?_) readHead
  apply slots_getElem?_congr capacity
  intro position above below _
  rw [carries.shown position (readHead ▸ above) (readHead ▸ capacity ▸ below),
    otherCarries.shown position above below]

theorem Carries.release_release (carries : ring.Carries landed) {first second total : Nat}
    (asFar : (ring.readHead.advance first).advance second = ring.readHead.advance total) :
    (ring.release first).release second = ring.release total := by
  apply ((carries.release first).release second).unique (carries.release total) asFar
  rw [release_capacity, release_capacity, release_capacity]

theorem Carries.mixAt_advance (carries : ring.Carries landed) (frames offset : Nat) :
    mixAt landed ((ring.readHead.advance frames).value + offset) =
      mixAt landed (ring.readHead.value + (frames + offset)) := by
  rw [SampleIndex.advance_value, ← Nat.add_assoc]
  by_cases within : ring.readHead.value + frames ≤ lastIndex
  · rw [Nat.min_eq_left within]
  · have limitBound := ring.limit.value_le
    rw [carries.silent_beyond (by omega), carries.silent_beyond (by omega)]

end Ring

namespace Mixer

variable {τ : Type}

theorem le_available_release {mixer : Mixer τ} {first second : Nat}
    (within : first + second ≤ mixer.available) :
    second ≤ { mixer with ring := mixer.ring.release first }.available := by
  rw [le_available_iff] at within ⊢
  obtain ⟨inLap, written⟩ := within
  constructor
  · change second ≤ (mixer.ring.release first).capacity
    rw [Ring.release_capacity]
    exact Nat.le_trans (Nat.le_add_left second first) inLap
  · intro index isOpen
    have ahead := written index isOpen
    change _ ≤ index.value - mixer.readHead.value at ahead
    change _ ≤ index.value - (mixer.readHead.advance first).value
    rw [SampleIndex.advance_value]
    omega

section

variable [TimeScale τ]

theorem pull_frames_of_room {mixer : Mixer τ} {out : Array Sample} {frames : Nat}
    {stride : SampleCount} (within : frames ≤ mixer.available)
    (room : frames ≤ Ring.stridedLength out.size stride.count) :
    (mixer.pull out frames stride).2.2.frames = frames := by
  have inLap := ((mixer.le_available_iff frames).mp within).1
  rw [pull_frames]
  omega

theorem discard_frames {mixer : Mixer τ} {frames : Nat} (within : frames ≤ mixer.available) :
    (mixer.discard frames).2.frames = frames :=
  Nat.min_eq_left within

theorem discard_mixer (mixer : Mixer τ) (frames : Nat) :
    (mixer.discard frames).1 =
      { mixer with ring := mixer.ring.release (mixer.discard frames).2.frames } :=
  rfl

theorem framesDropped_eq {mixer : Mixer τ} {landed : List (Sample × Nat)}
    (carries : mixer.ring.Carries landed) (frames : Nat) :
    mixer.framesDropped frames =
      (List.range (mixer.discard frames).2.frames).map fun offset =>
        Ring.mixAt landed (mixer.readHead.value + offset) := by
  have dropped : (mixer.discard frames).2.frames ≤ mixer.available := Nat.min_le_right _ _
  have inLap := ((mixer.le_available_iff _).mp dropped).1
  apply List.map_congr_left
  intro offset inRange
  have inside := List.mem_range.mp inRange
  exact carries.shown _ (Nat.le_add_right _ _)
    (Nat.add_lt_add_left (Nat.lt_of_lt_of_le inside inLap) _)

end

theorem frames_append {ring : Ring} {landed : List (Sample × Nat)} (carries : ring.Carries landed)
    (first second : Nat) :
    ((List.range first).map fun offset => Ring.mixAt landed (ring.readHead.value + offset)) ++
        ((List.range second).map fun offset =>
          Ring.mixAt landed ((ring.readHead.advance first).value + offset)) =
      (List.range (first + second)).map fun offset =>
        Ring.mixAt landed (ring.readHead.value + offset) := by
  rw [List.range_add, List.map_append, List.map_map]
  congr 1
  apply List.map_congr_left
  intro offset _
  exact carries.mixAt_advance first offset

theorem gap_gap {mixer : Mixer τ} {landed : List (Sample × Nat)}
    (carries : mixer.ring.Carries landed) (first second : Nat) :
    (mixer.gap first).gap second = mixer.gap (min (first + second) lastIndex) := by
  have asFar : (mixer.ring.readHead.advance first).advance second =
      mixer.ring.readHead.advance (min (first + second) lastIndex) := by
    simp only [SampleIndex.advance, SampleIndex.clamp, SampleIndex.mk.injEq]
    omega
  exact congrArg (fun ring : Ring => { mixer with ring := ring }) (carries.release_release asFar)

variable [TimeScale τ]

/-- What comes of a call of the consumer: the frames, the report, and the mixer left. -/
structure Portion (τ : Type) where
  frames : List Sample
  consumed : Consumed τ
  left : Mixer τ

/-- Whether two portions, of so many frames, make up a whole. -/
structure Portion.MakeUp (first second whole : Portion τ) (count others : Nat) : Prop where
  frames : first.frames ++ second.frames = whole.frames
  left : second.left = whole.left
  startTime : first.consumed.startTime = whole.consumed.startTime
  firstFrames : first.consumed.frames = count
  secondFrames : second.consumed.frames = others
  wholeFrames : whole.consumed.frames = count + others

def pulled (mixer : Mixer τ) (out : Array Sample) (frames : Nat) (stride : SampleCount) :
    Portion τ where
  frames := mixer.framesPulled out frames stride
  consumed := (mixer.pull out frames stride).2.2
  left := (mixer.pull out frames stride).1

def discarded (mixer : Mixer τ) (frames : Nat) : Portion τ where
  frames := mixer.framesDropped frames
  consumed := (mixer.discard frames).2
  left := (mixer.discard frames).1

/-- Whether a portion takes so many frames of a mixer that carries `landed`: those to be heard from
the read head on, and no more. -/
structure Portion.Takes (portion : Portion τ) (mixer : Mixer τ) (landed : List (Sample × Nat))
    (count : Nat) : Prop where
  frames : portion.frames = (List.range count).map fun offset =>
    Ring.mixAt landed (mixer.readHead.value + offset)
  left : portion.left = { mixer with ring := mixer.ring.release count }
  startTime : portion.consumed.startTime = mixer.startTime
  count : portion.consumed.frames = count

theorem pulled_takes {mixer : Mixer τ} {landed : List (Sample × Nat)}
    (carries : mixer.ring.Carries landed) {frames : Nat} (within : frames ≤ mixer.available)
    {out : Array Sample} {stride : SampleCount}
    (room : frames ≤ Ring.stridedLength out.size stride.count) :
    (mixer.pulled out frames stride).Takes mixer landed frames := by
  have moved := pull_frames_of_room within room
  constructor
  case frames =>
    refine (framesPulled_eq carries out frames stride).trans ?_
    rw [moved]
  case left =>
    refine (mixer.pull_mixer out frames stride).trans ?_
    rw [moved]
  case startTime => rfl
  case count => exact moved

theorem discarded_takes {mixer : Mixer τ} {landed : List (Sample × Nat)}
    (carries : mixer.ring.Carries landed) {frames : Nat} (within : frames ≤ mixer.available) :
    (mixer.discarded frames).Takes mixer landed frames := by
  have dropped := discard_frames within
  constructor
  case frames =>
    refine (framesDropped_eq carries frames).trans ?_
    rw [dropped]
  case left =>
    refine (mixer.discard_mixer frames).trans ?_
    rw [dropped]
  case startTime => rfl
  case count => exact dropped

theorem Portion.Takes.rest {portion : Portion τ} {mixer : Mixer τ}
    {landed : List (Sample × Nat)} {count others : Nat}
    (takes : portion.Takes mixer landed count) (carries : mixer.ring.Carries landed)
    (within : count + others ≤ mixer.available) :
    portion.left.ring.Carries landed ∧ others ≤ portion.left.available := by
  rw [takes.left]
  exact ⟨carries.release count, le_available_release within⟩

theorem Portion.Takes.make_up {first second whole : Portion τ} {mixer : Mixer τ}
    {landed : List (Sample × Nat)} {count others : Nat} (carries : mixer.ring.Carries landed)
    (takes : first.Takes mixer landed count) (takesRest : second.Takes first.left landed others)
    (takesAll : whole.Takes mixer landed (count + others)) :
    first.MakeUp second whole count others := by
  constructor
  case frames =>
    rw [takes.frames, takesRest.frames, takesAll.frames, takes.left]
    exact frames_append carries count others
  case left =>
    rw [takesRest.left, takesAll.left, takes.left]
    have together := carries.release_release
      (SampleIndex.advance_advance mixer.ring.readHead count others)
    exact congrArg (fun ring : Ring => { mixer with ring := ring }) together
  case startTime => exact takes.startTime.trans takesAll.startTime.symm
  case firstFrames => exact takes.count
  case secondFrames => exact takesRest.count
  case wholeFrames => exact takesAll.count

/-- Whatever was done before, it makes no difference whether what is available is pulled or
discarded at once or in two portions, into outputs that are large enough: the frames are the same
one after another, the first portion starts when the whole does, and the same mixer is left.  Two
gaps are a gap over both, up to the last position, however far they go. -/
theorem portions_make_whole {config : ReceiverConfig} {mixer : Mixer τ}
    (created : Mixer.create config = .ok mixer) (calls : List (MixerCall τ)) :
    let reached := mixer.run calls
    (∀ first second, first + second ≤ reached.available →
      (∀ out next whole stride nextStride wholeStride,
        first ≤ Ring.stridedLength (Array.size out) (SampleCount.count stride) →
        second ≤ Ring.stridedLength (Array.size next) (SampleCount.count nextStride) →
        first + second ≤ Ring.stridedLength (Array.size whole) (SampleCount.count wholeStride) →
        (reached.pulled out first stride).MakeUp
          ((reached.pulled out first stride).left.pulled next second nextStride)
          (reached.pulled whole (first + second) wholeStride) first second) ∧
      (reached.discarded first).MakeUp ((reached.discarded first).left.discarded second)
        (reached.discarded (first + second)) first second) ∧
    ∀ first second,
      (reached.gap first).gap second = reached.gap (min (first + second) lastIndex) := by
  intro reached
  have carries := ((create_plays created).run calls).carries
  refine ⟨?_, gap_gap carries⟩
  intro first second within
  have firstWithin := Nat.le_trans (Nat.le_add_right first second) within
  constructor
  case left =>
    intro out next whole stride nextStride wholeStride room nextRoom wholeRoom
    have takes := pulled_takes carries firstWithin room
    obtain ⟨leftCarries, leftWithin⟩ := takes.rest carries within
    exact takes.make_up carries (pulled_takes leftCarries leftWithin nextRoom)
      (pulled_takes carries within wholeRoom)
  case right =>
    have takes := discarded_takes carries firstWithin
    obtain ⟨leftCarries, leftWithin⟩ := takes.rest carries within
    exact takes.make_up carries (discarded_takes leftCarries leftWithin)
      (discarded_takes carries within)

/-- What is available goes over the end of the slots. -/
def wrappedCalls : List (MixerCall Seconds) :=
  [.push { value := 7 } [Binary.ofNat 1, Binary.ofNat 2, Binary.ofNat 3], .discard 2,
    .push { value := 7 } [Binary.ofNat 4, Binary.ofNat 5]]

def everySixth : SampleCount where
  count := 6
  count_pos := by decide
  count_lt := by decide

theorem wrappedCalls_portions :
    let reached := fourSlotMixer.run wrappedCalls
    let first := reached.pulled (Array.replicate 7 silence) 2 everySixth
    let second := first.left.pulled (Array.replicate 1 silence) 1 SampleCount.one
    let whole := reached.pulled (Array.replicate 3 silence) 3 SampleCount.one
    Mixer.create fourSlotConfig = .ok fourSlotMixer ∧ 2 + 1 ≤ reached.available ∧
      first.MakeUp second whole 2 1 ∧ whole.frames = [3, 4, 5].map Binary.ofNat ∧
      (reached.gap 6).gap lastIndex = reached.gap lastIndex := by
  intro reached first second whole
  have created : Mixer.create fourSlotConfig = .ok fourSlotMixer := rfl
  have within : 2 + 1 ≤ reached.available := by decide +kernel
  obtain ⟨portions, gaps⟩ := portions_make_whole created wrappedCalls
  have makeUp := (portions 2 1 within).1 (Array.replicate 7 silence) (Array.replicate 1 silence)
    (Array.replicate 3 silence) everySixth SampleCount.one SampleCount.one (by decide) (by decide)
    (by decide)
  refine ⟨created, within, makeUp, ?_, gaps 6 lastIndex⟩
  decide +kernel

end Mixer

end AudioBus
