import AudioBus.Proofs.Ring.Contents
import AudioBus.Proofs.Table
import AudioBus.Stream.Mixer

/-!
Runs of a mixer: any calls of its streams and of its consumer, one after another.
-/

namespace AudioBus

inductive MixerCall (τ : Type) where
  | declare (id : StreamId) (time : τ)
  | push (id : StreamId) (block : List Sample)
  | close (id : StreamId)
  | pull (out : Array Sample) (frames : Nat) (stride : SampleCount)
  | discard (frames : Nat)
  | gap (frames : Nat)
  | setStreamTime (time : τ)

namespace Mixer

variable {τ : Type} [TimeScale τ]

def perform (mixer : Mixer τ) : MixerCall τ → Mixer τ
  | .declare id time => (mixer.declare id time).1
  | .push id block => (mixer.push id block).1
  | .close id => (mixer.close id).1
  | .pull out frames stride => (mixer.pull out frames stride).1
  | .discard frames => (mixer.discard frames).1
  | .gap frames => mixer.gap frames
  | .setStreamTime time => (mixer.setStreamTime time).1

def run (mixer : Mixer τ) (calls : List (MixerCall τ)) : Mixer τ :=
  calls.foldl perform mixer

def framesTaken (mixer : Mixer τ) : MixerCall τ → Nat
  | .pull out frames stride => (mixer.pull out frames stride).2.2.frames
  | .discard frames => (mixer.discard frames).2.frames
  | .gap frames => frames
  | _ => 0

/-- The positions of the frames that a run pulls, discards or skips, in order. -/
def positionsTaken (mixer : Mixer τ) : List (MixerCall τ) → List Nat
  | [] => []
  | call :: rest =>
      List.range' mixer.readHead.value (mixer.framesTaken call) ++
        (mixer.perform call).positionsTaken rest

theorem run_cons (mixer : Mixer τ) (call : MixerCall τ) (rest : List (MixerCall τ)) :
    mixer.run (call :: rest) = (mixer.perform call).run rest :=
  rfl

omit [TimeScale τ] in
theorem push_start (mixer : Mixer τ) (id : StreamId) (block : List Sample) :
    (mixer.push id block).2.start = (mixer.streams.find? id).getD SampleIndex.zero :=
  rfl

omit [TimeScale τ] in
theorem push_placement (mixer : Mixer τ) (id : StreamId) (block : List Sample) :
    (mixer.push id block).2.placement =
      (mixer.ring.mix ((mixer.streams.find? id).getD SampleIndex.zero) block).2.2 :=
  rfl

omit [TimeScale τ] in
theorem push_streams (mixer : Mixer τ) (id : StreamId) (block : List Sample) :
    (mixer.push id block).1.streams =
      mixer.streams.insert id
        (((mixer.streams.find? id).getD SampleIndex.zero).advance block.length) := by
  rw [← Ring.mix_writeHead mixer.ring]
  rfl

theorem pull_mixer (mixer : Mixer τ) (out : Array Sample) (frames : Nat) (stride : SampleCount) :
    (mixer.pull out frames stride).1 =
      { mixer with ring := mixer.ring.release (mixer.pull out frames stride).2.2.frames } := by
  change { mixer with ring := (mixer.ring.read out (min frames mixer.available) stride).1 } = _
  rw [Ring.read_ring]
  rfl

theorem pull_frames (mixer : Mixer τ) (out : Array Sample) (frames : Nat)
    (stride : SampleCount) :
    (mixer.pull out frames stride).2.2.frames =
      min (min frames mixer.available)
        (min (Ring.stridedLength out.size stride.count) mixer.capacity) :=
  rfl

theorem perform_readHead (mixer : Mixer τ) (call : MixerCall τ) :
    (mixer.perform call).readHead = mixer.readHead.advance (mixer.framesTaken call) := by
  cases call with
  | declare id time => exact (SampleIndex.advance_zero _).symm
  | push id block =>
      change (mixer.ring.mix _ block).1.readHead = _
      rw [Ring.mix_readHead]
      exact (SampleIndex.advance_zero _).symm
  | close id => exact (SampleIndex.advance_zero _).symm
  | pull out frames stride => rfl
  | discard frames => rfl
  | gap frames => rfl
  | setStreamTime time => exact (SampleIndex.advance_zero _).symm

theorem readHead_le_perform (mixer : Mixer τ) (call : MixerCall τ) :
    mixer.readHead.value ≤ (mixer.perform call).readHead.value := by
  have bound := mixer.readHead.value_le
  rw [perform_readHead, SampleIndex.advance_value]
  omega

theorem readHead_le_run (mixer : Mixer τ) (calls : List (MixerCall τ)) :
    mixer.readHead.value ≤ (mixer.run calls).readHead.value := by
  induction calls generalizing mixer with
  | nil => exact Nat.le_refl _
  | cons call rest inductionHypothesis =>
      exact Nat.le_trans (mixer.readHead_le_perform call) (inductionHypothesis _)

theorem positionsTaken_eq (mixer : Mixer τ) (calls : List (MixerCall τ))
    (notAtEnd : (mixer.run calls).readHead.value < lastIndex) :
    mixer.positionsTaken calls =
      List.range' mixer.readHead.value
        ((mixer.run calls).readHead.value - mixer.readHead.value) := by
  induction calls generalizing mixer with
  | nil =>
      change [] = List.range' _ (mixer.readHead.value - mixer.readHead.value)
      rw [Nat.sub_self]
      rfl
  | cons call rest inductionHypothesis =>
      rw [run_cons] at notAtEnd ⊢
      have onward := (mixer.perform call).readHead_le_run rest
      have moved : (mixer.perform call).readHead.value =
          mixer.readHead.value + mixer.framesTaken call := by
        have advanced := congrArg SampleIndex.value (mixer.perform_readHead call)
        rw [SampleIndex.advance_value] at advanced
        omega
      have length : ((mixer.perform call).run rest).readHead.value - mixer.readHead.value =
          mixer.framesTaken call +
            (((mixer.perform call).run rest).readHead.value -
              (mixer.perform call).readHead.value) := by
        omega
      rw [positionsTaken, inductionHypothesis _ notAtEnd, length, moved, List.range'_append_1]

def fourSlotConfig : ReceiverConfig where
  sampleRate := defaultSampleRate
  capacity := some { count := 4, count_pos := by decide, count_lt := by decide }

def fourSlotMixer : Mixer Seconds where
  streams := Table.empty
  ring := Ring.silent fourSlotConfig.effectiveCapacity
  timeline := Timeline.unanchored fourSlotConfig.sampleRate

end Mixer

end AudioBus
