import AudioBus.Proofs.Mixer.Portions

/-!
The three ways of consuming agree.  Pulling moves samples out one by one, discarding and skipping
silence slots; of as many available frames all of them leave the same mixer.  So runs that differ
only in how they consume go through the same states.
-/

namespace AudioBus.Mixer

variable {τ : Type} [TimeScale τ]

/-- A pull is a discard of the frames that its output has room for. -/
theorem pull_eq_discard (mixer : Mixer τ) (out : Array Sample) (frames : Nat)
    (stride : SampleCount) :
    ((mixer.pull out frames stride).1, (mixer.pull out frames stride).2.2) =
      mixer.discard (min frames (Ring.stridedLength out.size stride.count)) := by
  have inLap := ((mixer.le_available_iff mixer.available).mp (Nat.le_refl _)).1
  have sameFrames : (mixer.pull out frames stride).2.2.frames =
      min (min frames (Ring.stridedLength out.size stride.count)) mixer.available := by
    rw [pull_frames]
    omega
  have sameMixer : (mixer.pull out frames stride).1 =
      (mixer.discard (min frames (Ring.stridedLength out.size stride.count))).1 := by
    rw [pull_mixer, sameFrames]
    rfl
  have sameReport : (mixer.pull out frames stride).2.2 =
      (mixer.discard (min frames (Ring.stridedLength out.size stride.count))).2 :=
    congrArg (fun count : Nat => Consumed.mk count mixer.startTime) sameFrames
  exact Prod.ext sameMixer sameReport

theorem discard_min (mixer : Mixer τ) (frames : Nat) :
    mixer.discard (min frames mixer.available) = mixer.discard frames := by
  unfold discard
  rw [Nat.min_assoc, Nat.min_self]

theorem gap_eq_discard {mixer : Mixer τ} {frames : Nat} (within : frames ≤ mixer.available) :
    mixer.gap frames = (mixer.discard frames).1 := by
  rw [discard_mixer, discard_frames within]
  rfl

/-- How many frames a call consumes, if it is one of the consumer's and takes available frames
only. -/
def consumes? (mixer : Mixer τ) : MixerCall τ → Option Nat
  | .pull out frames stride =>
      some (min (min frames (Ring.stridedLength out.size stride.count)) mixer.available)
  | .discard frames => some (min frames mixer.available)
  | .gap frames => if frames ≤ mixer.available then some frames else none
  | _ => none

/-- Whether two runs are the same call by call, but for the ways of consuming. -/
inductive Alike : Mixer τ → List (MixerCall τ) → List (MixerCall τ) → Prop where
  | nil (mixer : Mixer τ) : Alike mixer [] []
  | same {mixer : Mixer τ} (call : MixerCall τ) {calls others : List (MixerCall τ)}
      (rest : Alike (mixer.perform call) calls others) :
      Alike mixer (call :: calls) (call :: others)
  | consuming {mixer : Mixer τ} {call other : MixerCall τ} {frames : Nat}
      {calls others : List (MixerCall τ)} (consumed : mixer.consumes? call = some frames)
      (otherConsumed : mixer.consumes? other = some frames)
      (rest : Alike (mixer.perform call) calls others) :
      Alike mixer (call :: calls) (other :: others)

theorem perform_of_consumes {mixer : Mixer τ} {call : MixerCall τ} {frames : Nat}
    (consumed : mixer.consumes? call = some frames) :
    mixer.perform call = (mixer.discard frames).1 ∧ mixer.framesTaken call = frames := by
  cases call with
  | pull out asked stride =>
      cases consumed
      have discarded := mixer.pull_eq_discard out asked stride
      rw [discard_min]
      exact ⟨congrArg Prod.fst discarded, congrArg (fun result => result.2.frames) discarded⟩
  | discard asked =>
      cases consumed
      rw [discard_min]
      exact ⟨rfl, rfl⟩
  | gap asked =>
      rw [consumes?] at consumed
      split at consumed
      case isTrue within =>
        cases consumed
        exact ⟨gap_eq_discard within, rfl⟩
      case isFalse => cases consumed
  | declare id time => cases consumed
  | push id block => cases consumed
  | close id => cases consumed
  | setStreamTime time => cases consumed

/-- Runs that differ only in how they consume take the same positions and leave the same mixer. -/
theorem Alike.run {mixer : Mixer τ} {calls others : List (MixerCall τ)}
    (alike : mixer.Alike calls others) :
    mixer.run calls = mixer.run others ∧
      mixer.positionsTaken calls = mixer.positionsTaken others := by
  induction alike with
  | nil mixer => exact ⟨rfl, rfl⟩
  | same call rest inductionHypothesis =>
      obtain ⟨left, taken⟩ := inductionHypothesis
      rw [run_cons, run_cons, positionsTaken, positionsTaken, left, taken]
      exact ⟨rfl, rfl⟩
  | consuming consumed otherConsumed rest inductionHypothesis =>
      obtain ⟨left, taken⟩ := inductionHypothesis
      obtain ⟨performed, frames⟩ := perform_of_consumes consumed
      obtain ⟨otherPerformed, otherFrames⟩ := perform_of_consumes otherConsumed
      have sameStep := performed.trans otherPerformed.symm
      have sameFrames := frames.trans otherFrames.symm
      rw [run_cons, run_cons, positionsTaken, positionsTaken, left, taken, sameStep, sameFrames]
      exact ⟨rfl, rfl⟩

/-- In every state a pull leaves the mixer, and gives the report, of a discard of as many frames as
its output has room for, and to skip available frames is to discard them.  So the ways of
consuming may be mixed freely: runs that differ in nothing else take the same positions and leave
the same mixer. -/
theorem ways_of_consuming_agree (mixer : Mixer τ) :
    (∀ out frames stride,
      ((mixer.pull out frames stride).1, (mixer.pull out frames stride).2.2) =
        mixer.discard (min frames (Ring.stridedLength out.size stride.count))) ∧
    (∀ frames, frames ≤ mixer.available → mixer.gap frames = (mixer.discard frames).1) ∧
    ∀ calls others, mixer.Alike calls others →
      mixer.run calls = mixer.run others ∧
        mixer.positionsTaken calls = mixer.positionsTaken others :=
  ⟨mixer.pull_eq_discard, fun _ within => gap_eq_discard within, fun _ _ alike => alike.run⟩

def wrapped : Mixer Seconds := fourSlotMixer.run wrappedCalls

def pullingCalls : List (MixerCall Seconds) :=
  [.pull (Array.replicate 7 silence) 5 everySixth, .push { value := 7 } [Binary.ofNat 6], .gap 2]

def discardingCalls : List (MixerCall Seconds) :=
  [.discard 2, .push { value := 7 } [Binary.ofNat 6],
    .pull (Array.replicate 2 silence) 9 SampleCount.one]

theorem wrapped_consumptions_agree :
    3 ≤ wrapped.available ∧ wrapped.gap 3 = (wrapped.discard 3).1 ∧
      wrapped.Alike pullingCalls discardingCalls ∧
      wrapped.run pullingCalls = wrapped.run discardingCalls ∧
      wrapped.positionsTaken discardingCalls = [2, 3, 4, 5] := by
  have within : 3 ≤ wrapped.available := by decide +kernel
  have pulled : wrapped.consumes? (.pull (Array.replicate 7 silence) 5 everySixth) = some 2 := by
    decide +kernel
  have discarded : wrapped.consumes? (.discard 2) = some 2 := by decide +kernel
  have alike : wrapped.Alike pullingCalls discardingCalls :=
    .consuming pulled discarded
      (.same _ (.consuming (by decide +kernel : _ = some 2) (by decide +kernel) (.nil _)))
  obtain ⟨_, gaps, runs⟩ := ways_of_consuming_agree wrapped
  exact ⟨within, gaps 3 within, alike, (runs _ _ alike).1, by decide +kernel⟩

end AudioBus.Mixer
