import AudioBus.Stream.Timeline
import Mathlib.Algebra.Order.Round
import Mathlib.Data.Rat.Floor
import Mathlib.Tactic.FieldSimp
import Mathlib.Tactic.Linarith
import Mathlib.Tactic.Ring

/-!
Timelines in exact time.  An anchored timeline is a chart: every position has a time, the position
nearest to that time is the position itself, and no time between the first and the last position
is further than half a sample from the position nearest to it.
-/

namespace AudioBus

/-- The integer nearest to a number; halves go away from zero. -/
def nearestInteger (x : ℚ) : ℤ :=
  if 0 ≤ x then ⌊x + 1 / 2⌋ else ⌈x - 1 / 2⌉

def SampleIndex.ofInteger (number : ℤ) : SampleIndex :=
  clamp number.toNat

instance : TimeScale ℚ where
  nearestIndex x := SampleIndex.ofInteger (nearestInteger x)

theorem nearestInteger_toNat (x : ℚ) : (nearestInteger x).toNat = (round x).toNat := by
  unfold nearestInteger
  rw [round_eq]
  split
  case isTrue => rfl
  case isFalse negative =>
    have ceilLe : ⌈x - 1 / 2⌉ ≤ 0 := Int.ceil_le.mpr (by push_cast; linarith)
    have floorLt : ⌊x + 1 / 2⌋ < 1 := Int.floor_lt.mpr (by push_cast; linarith)
    omega

theorem nearestInteger_eq_round {x : ℚ} (notBelow : 0 ≤ nearestInteger x) :
    nearestInteger x = round x := by
  have sameNat := nearestInteger_toNat x
  have roundNotBelow : 0 ≤ round x := by
    rw [round_eq]
    unfold nearestInteger at notBelow
    split at notBelow
    case isTrue => exact notBelow
    case isFalse =>
      have above := Int.lt_of_lt_of_le (by decide : (-1 : ℤ) < 0) notBelow
      have aboveHalf : ((-1 : ℤ) : ℚ) < x - 1 / 2 := Int.lt_ceil.mp above
      push_cast at aboveHalf
      exact Int.floor_nonneg.mpr (by linarith)
  omega

theorem round_mono {x y : ℚ} (le : x ≤ y) : round x ≤ round y := by
  rw [round_eq, round_eq]
  exact Int.floor_le_floor (by linarith)

namespace SampleIndex

theorem ofInteger_value (number : ℤ) :
    ((ofInteger number).value : ℤ) = max 0 (min number lastIndex) := by
  change ((min number.toNat lastIndex : ℕ) : ℤ) = _
  omega

theorem ofInteger_natCast (index : SampleIndex) : ofInteger (index.value : ℤ) = index := by
  have bound := index.value_le
  cases index
  simp only [ofInteger, clamp, Int.toNat_natCast, mk.injEq]
  omega

theorem nearestIndex_eq (x : ℚ) : TimeScale.nearestIndex x = ofInteger (round x) := by
  change ofInteger (nearestInteger x) = _
  unfold ofInteger
  rw [nearestInteger_toNat]

def last : SampleIndex := clamp lastIndex

end SampleIndex

namespace Timeline

section

variable {τ : Type} [TimeScale τ]

/-- Anchors a timeline again and again.  The second result says which of the anchors held. -/
def anchorAll (timeline : Timeline τ) : List (τ × SampleIndex) → Timeline τ × List Bool
  | [] => (timeline, [])
  | (time, index) :: later =>
      let (anchored, held) := timeline.anchor time index
      let (final, others) := anchored.anchorAll later
      (final, held :: others)

omit [TimeScale τ] in
theorem isAnchored_of_map {β : Type} {timeline : Timeline τ} {change : τ → β} {result : β}
    (mapped : timeline.reference.map change = some result) : timeline.isAnchored = true := by
  obtain ⟨reference, isReference, _⟩ := Option.map_eq_some_iff.mp mapped
  unfold isAnchored
  rw [isReference]
  rfl

theorem anchor_of_anchored {timeline : Timeline τ} (anchored : timeline.isAnchored = true)
    (time : τ) (index : SampleIndex) : timeline.anchor time index = (timeline, false) := by
  obtain ⟨reference, isReference⟩ := Option.isSome_iff_exists.mp anchored
  unfold anchor
  rw [isReference]

theorem anchorAll_of_anchored {timeline : Timeline τ} (anchored : timeline.isAnchored = true)
    (later : List (τ × SampleIndex)) :
    timeline.anchorAll later = (timeline, List.replicate later.length false) := by
  induction later with
  | nil => rfl
  | cons next later inductionHypothesis =>
      rw [anchorAll, anchor_of_anchored anchored]
      simp only [inductionHypothesis]
      rfl

end

variable {timeline : Timeline ℚ} {reference : ℚ}

theorem frequency_pos (timeline : Timeline ℚ) : (0 : ℚ) < timeline.rate.hertz :=
  Nat.cast_pos.mpr timeline.rate.hertz_pos

theorem timeOf?_eq (isReference : timeline.reference = some reference) (index : SampleIndex) :
    timeline.timeOf? index = some (reference + index.value / timeline.rate.hertz) := by
  unfold timeOf?
  rw [isReference]
  rfl

theorem indexOf?_eq (isReference : timeline.reference = some reference) (time : ℚ) :
    timeline.indexOf? time =
      some (SampleIndex.ofInteger (round ((time - reference) * timeline.rate.hertz))) := by
  unfold indexOf?
  rw [isReference, Option.map_some, SampleIndex.nearestIndex_eq]
  rfl

/-- Whether a timeline is a chart of times and positions on which `index` happens at `time`. -/
structure Charts (timeline : Timeline ℚ) (time : ℚ) (index : SampleIndex) : Prop where
  anchored : timeline.timeOf? index = some time
  inverse : ∀ position, ∃ moment,
    timeline.timeOf? position = some moment ∧ timeline.indexOf? moment = some position
  monotone : ∀ earlier later, earlier ≤ later → ∃ first second,
    timeline.indexOf? earlier = some first ∧ timeline.indexOf? later = some second ∧
      first.value ≤ second.value
  nearest : ∀ moment first last, timeline.timeOf? SampleIndex.zero = some first →
    timeline.timeOf? SampleIndex.last = some last → first ≤ moment → moment ≤ last →
    ∃ position shown, timeline.indexOf? moment = some position ∧
      timeline.timeOf? position = some shown ∧
      |shown - moment| ≤ 1 / (2 * timeline.rate.hertz)

theorem inverse_of_reference (isReference : timeline.reference = some reference)
    (position : SampleIndex) :
    ∃ moment, timeline.timeOf? position = some moment ∧
      timeline.indexOf? moment = some position := by
  have notZero := ne_of_gt timeline.frequency_pos
  refine ⟨_, timeOf?_eq isReference position, ?_⟩
  have counted : (reference + position.value / timeline.rate.hertz - reference) *
      timeline.rate.hertz = ((position.value : ℤ) : ℚ) := by
    field_simp
    push_cast
    ring
  rw [indexOf?_eq isReference, counted, round_intCast, SampleIndex.ofInteger_natCast]

theorem monotone_of_reference (isReference : timeline.reference = some reference)
    {earlier later : ℚ} (le : earlier ≤ later) :
    ∃ first second, timeline.indexOf? earlier = some first ∧
      timeline.indexOf? later = some second ∧ first.value ≤ second.value := by
  refine ⟨_, _, indexOf?_eq isReference earlier, indexOf?_eq isReference later, ?_⟩
  have counted : (earlier - reference) * timeline.rate.hertz ≤
      (later - reference) * timeline.rate.hertz :=
    mul_le_mul_of_nonneg_right (by linarith) (le_of_lt timeline.frequency_pos)
  have rounded := round_mono counted
  have firstValue := SampleIndex.ofInteger_value
    (round ((earlier - reference) * timeline.rate.hertz))
  have secondValue := SampleIndex.ofInteger_value
    (round ((later - reference) * timeline.rate.hertz))
  omega

theorem nearest_of_reference (isReference : timeline.reference = some reference)
    {moment : ℚ} (notBefore : reference ≤ moment)
    (notBehind : moment ≤ reference + lastIndex / timeline.rate.hertz) :
    ∃ position shown, timeline.indexOf? moment = some position ∧
      timeline.timeOf? position = some shown ∧
      |shown - moment| ≤ 1 / (2 * timeline.rate.hertz) := by
  have ratePos := timeline.frequency_pos
  refine ⟨_, _, indexOf?_eq isReference moment, timeOf?_eq isReference _, ?_⟩
  have low : ((0 : ℤ) : ℚ) ≤ (moment - reference) * timeline.rate.hertz :=
    mul_nonneg (by linarith) (le_of_lt ratePos)
  have high : (moment - reference) * timeline.rate.hertz ≤ ((lastIndex : ℤ) : ℚ) := by
    have within : moment - reference ≤ lastIndex / timeline.rate.hertz := by linarith
    exact (le_div_iff₀ ratePos).mp within
  have notBelow := round_mono low
  have notAbove := round_mono high
  rw [round_intCast] at notBelow notAbove
  -- the nearest integer is a position, so nothing is clamped
  have unclamped := SampleIndex.ofInteger_value
    (round ((moment - reference) * timeline.rate.hertz))
  rw [min_eq_left notAbove, max_eq_right notBelow] at unclamped
  have positionEq : ((SampleIndex.ofInteger
      (round ((moment - reference) * timeline.rate.hertz))).value : ℚ) =
      round ((moment - reference) * timeline.rate.hertz) := by
    exact_mod_cast unclamped
  have offBy : reference + round ((moment - reference) * timeline.rate.hertz) /
        timeline.rate.hertz - moment =
      -((moment - reference) * timeline.rate.hertz -
        round ((moment - reference) * timeline.rate.hertz)) / timeline.rate.hertz := by
    field_simp
    ring
  rw [positionEq, offBy, abs_div, abs_neg, abs_of_pos ratePos, div_le_iff₀ ratePos]
  calc |(moment - reference) * timeline.rate.hertz -
        round ((moment - reference) * timeline.rate.hertz)| ≤ 1 / 2 := abs_sub_round _
    _ = 1 / (2 * timeline.rate.hertz) * timeline.rate.hertz := by field_simp

theorem anchor_charts (rate : SampleRate) (time : ℚ) (index : SampleIndex) :
    ((unanchored rate).anchor time index).1.Charts time index := by
  have isReference : ((unanchored rate).anchor time index).1.reference =
      some (time - index.value / rate.hertz) := rfl
  constructor
  case anchored =>
    rw [timeOf?_eq isReference]
    exact congrArg some (sub_add_cancel time _)
  case inverse => exact inverse_of_reference isReference
  case monotone => exact fun _ _ le => monotone_of_reference isReference le
  case nearest =>
    intro moment first last firstEq lastEq notBefore notBehind
    rw [timeOf?_eq isReference, Option.some.injEq] at firstEq lastEq
    have firstIsReference : first = time - index.value / rate.hertz := by
      rw [← firstEq, SampleIndex.zero, Nat.cast_zero, zero_div, add_zero]
    apply nearest_of_reference isReference
    · rwa [firstIsReference] at notBefore
    · rwa [← lastEq] at notBehind

/-- The position nearest to a time on a timeline without ends. -/
def positionOf? (timeline : Timeline ℚ) (time : ℚ) : Option ℤ :=
  timeline.reference.map fun reference => nearestInteger ((time - reference) * timeline.frequency)

/-- From a time that a timeline reaches, a whole number of samples leads as many positions on, up
to the ends of the timeline. -/
theorem indexOf?_apart {time : ℚ} {position : ℤ}
    (isPosition : timeline.positionOf? time = some position) (notBelow : 0 ≤ position)
    (notAbove : position ≤ lastIndex) (samples : ℤ) :
    ∃ first second, timeline.indexOf? time = some first ∧
      timeline.indexOf? (time + samples / timeline.rate.hertz) = some second ∧
      (second.value : ℤ) = max 0 (min (first.value + samples) lastIndex) := by
  obtain ⟨reference, isReference, nearest⟩ := Option.map_eq_some_iff.mp isPosition
  have rounded : round ((time - reference) * timeline.rate.hertz) = position :=
    (nearestInteger_eq_round (nearest ▸ notBelow)).symm.trans nearest
  have notZero := ne_of_gt timeline.frequency_pos
  have shifted : (time + samples / timeline.rate.hertz - reference) * timeline.rate.hertz =
      (time - reference) * timeline.rate.hertz + samples := by
    field_simp
    ring
  refine ⟨_, _, indexOf?_eq isReference time, indexOf?_eq isReference _, ?_⟩
  rw [shifted, round_add_intCast, rounded, SampleIndex.ofInteger_value,
    SampleIndex.ofInteger_value, min_eq_left notAbove, max_eq_right notBelow]

end Timeline

end AudioBus
