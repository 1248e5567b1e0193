import AudioBus.Proofs.Mixer.Run
import AudioBus.Proofs.Stream.Timeline

/-!
Positions as coordinates, in exact time.  A mixer's timeline is written once, so whenever streams
are declared, those declared at one time are placed at one position, and those declared some
samples apart are placed as many positions apart.
-/

namespace AudioBus.Mixer

section

variable {τ : Type} [TimeScale τ]

theorem perform_timeline {mixer : Mixer τ} (anchored : mixer.timeline.isAnchored = true)
    (call : MixerCall τ) : (mixer.perform call).timeline = mixer.timeline := by
  have unmoved (time : τ) : (mixer.timeline.anchor time mixer.readHead).1 = mixer.timeline := by
    rw [Timeline.anchor_of_anchored anchored]
  cases call with
  | declare id time => exact unmoved time
  | setStreamTime time => exact unmoved time
  | push id block => rfl
  | close id => rfl
  | pull out frames stride => rfl
  | discard frames => rfl
  | gap frames => rfl

theorem run_timeline {mixer : Mixer τ} (anchored : mixer.timeline.isAnchored = true)
    (calls : List (MixerCall τ)) : (mixer.run calls).timeline = mixer.timeline := by
  induction calls generalizing mixer with
  | nil => rfl
  | cons call rest inductionHypothesis =>
      have kept := mixer.perform_timeline anchored call
      rw [run_cons, inductionHypothesis (kept ▸ anchored), kept]

theorem declare_find? (mixer : Mixer τ) (id : StreamId) (time : τ) :
    (mixer.declare id time).1.streams.find? id = some (mixer.declare id time).2.index :=
  Table.find?_insert_self mixer.streams id (mixer.declare id time).2.index

theorem declare_of_indexOf? {mixer : Mixer τ} {time : τ} {index : SampleIndex}
    (placed : mixer.timeline.indexOf? time = some index) (id : StreamId) :
    (mixer.declare id time).2.anchored = false ∧ (mixer.declare id time).2.index = index := by
  have unmoved := Timeline.anchor_of_anchored (Timeline.isAnchored_of_map placed) time
    mixer.readHead
  constructor
  · exact congrArg Prod.snd unmoved
  · change (if (mixer.timeline.anchor time mixer.readHead).2 then mixer.readHead
      else ((mixer.timeline.anchor time mixer.readHead).1.indexOf? time).getD mixer.readHead) =
        index
    rw [unmoved, if_neg Bool.false_ne_true, placed]
    rfl

end

/-- Whether a mixer has its timeline anchored with `index` at `time`, and for good: whatever is
called, streams declared at `time` are kept at `index`, and streams declared some samples apart,
one of them within reach of the timeline, as many positions apart, up to the ends of the
timeline. -/
structure Aligned (mixer : Mixer ℚ) (time : ℚ) (index : SampleIndex) : Prop where
  kept : ∀ calls, (mixer.run calls).timeline = mixer.timeline
  together : ∀ calls id,
    let declared := (mixer.run calls).declare id time
    declared.1.streams.find? id = some index ∧
      declared.2.anchored = false ∧ declared.2.index = index
  apart : ∀ calls id moment position, mixer.timeline.positionOf? moment = some position →
    0 ≤ position → position ≤ lastIndex → ∀ others other (samples : ℤ),
    let first := (mixer.run calls).declare id moment
    let second := (first.1.run others).declare other (moment + samples / mixer.sampleRate.hertz)
    first.1.streams.find? id = some first.2.index ∧
      second.1.streams.find? other = some second.2.index ∧
      (second.2.index.value : ℤ) = max 0 (min (first.2.index.value + samples) lastIndex)

theorem aligned_of_charts {mixer : Mixer ℚ} {time : ℚ} {index : SampleIndex}
    (charts : mixer.timeline.Charts time index) : mixer.Aligned time index := by
  have anchored := Timeline.isAnchored_of_map charts.anchored
  have placed : mixer.timeline.indexOf? time = some index := by
    obtain ⟨moment, happens, isIndex⟩ := charts.inverse index
    rw [charts.anchored, Option.some.injEq] at happens
    rwa [happens]
  constructor
  case kept => exact run_timeline anchored
  case together =>
    intro calls id declared
    rw [← run_timeline anchored calls] at placed
    obtain ⟨unanchored, indexEq⟩ := declare_of_indexOf? placed id
    exact ⟨(declare_find? _ id time).trans (congrArg some indexEq), unanchored, indexEq⟩
  case apart =>
    intro calls id moment position isPosition notBelow notAbove others other samples first second
    obtain ⟨here, there, hereEq, thereEq, distance⟩ :=
      Timeline.indexOf?_apart isPosition notBelow notAbove samples
    have reached : (mixer.run calls).timeline = mixer.timeline := run_timeline anchored calls
    have declared : first.1.timeline = mixer.timeline :=
      (perform_timeline (reached ▸ anchored) (.declare id moment)).trans reached
    have onward : (first.1.run others).timeline = mixer.timeline :=
      (run_timeline (declared ▸ anchored) others).trans declared
    have firstIndex : first.2.index = here := (declare_of_indexOf? (reached ▸ hereEq) id).2
    have secondIndex : second.2.index = there := (declare_of_indexOf? (onward ▸ thereEq) other).2
    refine ⟨declare_find? _ id moment, declare_find? _ other _, ?_⟩
    rw [firstIndex, secondIndex]
    exact distance

/-- In exact time an anchored timeline is a chart that no later anchor changes.  In a mixer the
stream, or the consumer, that anchors the timeline does so at the read head, where the stream is
kept, and all streams declared from then on are aligned with it. -/
theorem timeline_is_consistent (rate : SampleRate) (time : ℚ) (index : SampleIndex)
    (later : List (ℚ × SampleIndex)) :
    let first := (Timeline.unanchored rate).anchor time index
    let final := first.1.anchorAll later
    (first.2 = true ∧ final.2 = List.replicate later.length false ∧
      final.1.Charts time index) ∧
    ∀ mixer : Mixer ℚ, mixer.timeline = Timeline.unanchored rate →
      (∀ id, (mixer.declare id time).1.streams.find? id = some mixer.readHead ∧
        (mixer.declare id time).2.anchored = true ∧
        (mixer.declare id time).2.index = mixer.readHead ∧
        (mixer.declare id time).1.Aligned time mixer.readHead) ∧
      (mixer.setStreamTime time).2 = true ∧
        (mixer.setStreamTime time).1.Aligned time mixer.readHead := by
  intro first final
  have charts (position : SampleIndex) := Timeline.anchor_charts rate time position
  have finalEq : final = (first.1, List.replicate later.length false) :=
    Timeline.anchorAll_of_anchored (Timeline.isAnchored_of_map (charts index).anchored) later
  refine ⟨⟨rfl, congrArg Prod.snd finalEq, ?_⟩, ?_⟩
  · rw [finalEq]
    exact charts index
  · intro mixer unanchored
    have charted : (mixer.timeline.anchor time mixer.readHead).1.Charts time mixer.readHead := by
      rw [unanchored]
      exact charts mixer.readHead
    have holds : (mixer.timeline.anchor time mixer.readHead).2 = true := by
      rw [unanchored]
      rfl
    refine ⟨fun id => ?_, holds, aligned_of_charts charted⟩
    have atReadHead : (mixer.declare id time).2.index = mixer.readHead := if_pos holds
    exact ⟨(mixer.declare_find? id time).trans (congrArg some atReadHead), holds, atReadHead,
      aligned_of_charts charted⟩

def skipping : Mixer ℚ where
  streams := Table.empty
  ring := (Ring.silent fourSlotConfig.effectiveCapacity).release 3
  timeline := Timeline.unanchored defaultSampleRate

/-- One stream anchors the timeline at the read head.  Later another is declared half a sample
before it, and a third one five samples before that, which is before the first position. -/
theorem skipping_is_consistent :
    let anchoring := skipping.declare { value := 7 } (5 / 2)
    let beside := (anchoring.1.run [.gap 9]).declare { value := 8 } (5 / 2)
    let halfBefore := (anchoring.1.run [.gap 9]).declare { value := 8 } (5 / 2 - 1 / 88200)
    let farBefore := (halfBefore.1.run []).declare { value := 9 }
      (5 / 2 - 1 / 88200 + (-5 : ℤ) / (44100 : ℕ))
    skipping.timeline = Timeline.unanchored defaultSampleRate ∧
      anchoring.1.timeline.positionOf? (5 / 2 - 1 / 88200) = some 3 ∧
      anchoring.1.streams.find? { value := 7 } = some skipping.readHead ∧
      skipping.readHead.value = 3 ∧
      beside.1.streams.find? { value := 8 } = some skipping.readHead ∧
      (halfBefore.1.streams.find? { value := 8 }).map SampleIndex.value = some 3 ∧
      (farBefore.1.streams.find? { value := 9 }).map SampleIndex.value = some 0 := by
  intro anchoring beside halfBefore farBefore
  have position : anchoring.1.timeline.positionOf? (5 / 2 - 1 / 88200) = some 3 := by
    decide +kernel
  have half : halfBefore.2.index.value = 3 := by decide +kernel
  obtain ⟨_, mixers⟩ := timeline_is_consistent defaultSampleRate (5 / 2) SampleIndex.zero []
  obtain ⟨kept, -, -, aligned⟩ := (mixers skipping rfl).1 { value := 7 }
  obtain ⟨keptBeside, -, -⟩ := aligned.together [.gap 9] { value := 8 }
  obtain ⟨keptHalfBefore, keptFarBefore, distance⟩ := aligned.apart [.gap 9] { value := 8 } _ _
    position (by decide) (by decide) [] { value := 9 } (-5)
  change (farBefore.2.index.value : ℤ) = max 0 (min ((halfBefore.2.index.value : ℤ) + -5) lastIndex)
    at distance
  rw [half] at distance
  have far : farBefore.2.index.value = 0 := Int.ofNat.inj distance
  exact ⟨rfl, position, kept, rfl, keptBeside,
    (congrArg (Option.map SampleIndex.value) keptHalfBefore).trans (congrArg some half),
    (congrArg (Option.map SampleIndex.value) keptFarBefore).trans (congrArg some far)⟩

end AudioBus.Mixer
