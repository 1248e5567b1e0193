import AudioBus.Binary.Arithmetic
import AudioBus.Proofs.Binary.Order

/-!
Rounding keeps the order of what is rounded, and keeps what is a number of the format already.
-/

namespace AudioBus

theorem roundHalfEven_eq (numerator denominator : Nat) :
    roundHalfEven numerator denominator =
      if 2 * (numerator % denominator) < denominator then numerator / denominator
      else if denominator < 2 * (numerator % denominator) then numerator / denominator + 1
      else numerator / denominator + numerator / denominator % 2 :=
  rfl

theorem div_le_roundHalfEven (numerator denominator : Nat) :
    numerator / denominator ≤ roundHalfEven numerator denominator := by
  rw [roundHalfEven_eq]
  split
  · exact Nat.le_refl _
  · split <;> omega

theorem roundHalfEven_le_div_add_one (numerator denominator : Nat) :
    roundHalfEven numerator denominator ≤ numerator / denominator + 1 := by
  rw [roundHalfEven_eq]
  split
  · exact Nat.le_succ _
  · split <;> omega

theorem roundHalfEven_mono {first second : Nat} (denominator : Nat) (le : first ≤ second) :
    roundHalfEven first denominator ≤ roundHalfEven second denominator := by
  have quotientLe : first / denominator ≤ second / denominator := Nat.div_le_div_right le
  rcases Nat.lt_or_eq_of_le quotientLe with quotientLt | quotientEq
  · have below := roundHalfEven_le_div_add_one first denominator
    have above := div_le_roundHalfEven second denominator
    omega
  · have firstSplit := Nat.div_add_mod first denominator
    have secondSplit := Nat.div_add_mod second denominator
    rw [quotientEq] at firstSplit
    have remainderLe : first % denominator ≤ second % denominator := by omega
    rw [roundHalfEven_eq, roundHalfEven_eq, quotientEq]
    by_cases up : denominator < 2 * (second % denominator)
    · rw [if_neg (Nat.not_lt_of_gt up), if_pos up]
      split
      · exact Nat.le_succ _
      · split <;> omega
    · rw [if_neg up]
      split <;> split <;> (try split) <;> omega

theorem roundHalfEven_mul (count : Nat) {denominator : Nat} (positive : 0 < denominator) :
    roundHalfEven (count * denominator) denominator = count := by
  rw [roundHalfEven_eq, Nat.mul_mod_left, Nat.mul_div_cancel count positive]
  exact if_pos positive

namespace Format

variable (F : Format)

/-- The binade of a ratio: how often the smallest step is doubled for it. -/
def binadeOf (numerator denominator : Nat) : Nat :=
  (numerator / denominator).log2 - F.fractionBits

/-- The step of a ratio within its binade. -/
def stepOf (numerator denominator : Nat) : Nat :=
  roundHalfEven numerator (denominator * Nat.pow 2 (F.binadeOf numerator denominator))

theorem nearestPattern_eq (numerator denominator : Nat) :
    F.nearestPattern numerator denominator =
      min (F.binadeOf numerator denominator * F.binadeSize + F.stepOf numerator denominator)
        F.infinity :=
  rfl

theorem binadeOf_mono {first second : Nat} (denominator : Nat) (le : first ≤ second) :
    F.binadeOf first denominator ≤ F.binadeOf second denominator := by
  have quotientLe : first / denominator ≤ second / denominator := Nat.div_le_div_right le
  have logLe : (first / denominator).log2 ≤ (second / denominator).log2 := by
    by_cases zero : first / denominator = 0
    · rw [zero, Nat.log2_zero]
      exact Nat.zero_le _
    · have positive : second / denominator ≠ 0 :=
        Nat.ne_of_gt (Nat.lt_of_lt_of_le (Nat.pos_of_ne_zero zero) quotientLe)
      rw [Nat.le_log2 positive]
      exact Nat.le_trans (Nat.log2_self_le zero) quotientLe
  exact Nat.sub_le_sub_right logLe _

theorem stepOf_le (numerator denominator : Nat) :
    F.stepOf numerator denominator ≤ 2 * F.binadeSize := by
  have logLe : (numerator / denominator).log2 + 1 ≤
      F.binadeOf numerator denominator + (F.fractionBits + 1) := by
    unfold binadeOf
    omega
  have ratioLt : numerator / denominator <
      2 ^ F.binadeOf numerator denominator * 2 ^ (F.fractionBits + 1) := by
    rw [← Nat.pow_add]
    exact Nat.lt_of_lt_of_le Nat.lt_log2_self (Nat.pow_le_pow_right (by decide) logLe)
  have quotientLt := Nat.div_lt_of_lt_mul ratioLt
  rw [Nat.div_div_eq_div_mul, Nat.pow_succ] at quotientLt
  have rounded := roundHalfEven_le_div_add_one numerator
    (denominator * 2 ^ F.binadeOf numerator denominator)
  change roundHalfEven numerator (denominator * 2 ^ F.binadeOf numerator denominator) ≤
    2 * 2 ^ F.fractionBits
  omega

theorem le_stepOf {numerator denominator : Nat}
    (normal : 0 < F.binadeOf numerator denominator) :
    F.binadeSize ≤ F.stepOf numerator denominator := by
  have logEq : F.fractionBits + F.binadeOf numerator denominator =
      (numerator / denominator).log2 := by
    unfold binadeOf at normal ⊢
    omega
  have ratioPos : numerator / denominator ≠ 0 := by
    intro zero
    unfold binadeOf at normal
    rw [zero, Nat.log2_zero, Nat.zero_sub] at normal
    exact Nat.lt_irrefl 0 normal
  have ratioLe : 2 ^ F.fractionBits * 2 ^ F.binadeOf numerator denominator ≤
      numerator / denominator := by
    rw [← Nat.pow_add, logEq]
    exact Nat.log2_self_le ratioPos
  have quotientLe := (Nat.le_div_iff_mul_le (Nat.two_pow_pos _)).mpr ratioLe
  rw [Nat.div_div_eq_div_mul] at quotientLe
  exact Nat.le_trans quotientLe (div_le_roundHalfEven _ _)

theorem nearestPattern_mono {first second : Nat} (denominator : Nat) (le : first ≤ second) :
    F.nearestPattern first denominator ≤ F.nearestPattern second denominator := by
  have patternLe :
      F.binadeOf first denominator * F.binadeSize + F.stepOf first denominator ≤
        F.binadeOf second denominator * F.binadeSize + F.stepOf second denominator := by
    rcases Nat.lt_or_eq_of_le (F.binadeOf_mono denominator le) with binadeLt | binadeEq
    · have firstBound := F.stepOf_le first denominator
      have secondBound := F.le_stepOf (Nat.zero_lt_of_lt binadeLt)
      have room := Nat.mul_le_mul_right F.binadeSize (Nat.succ_le_of_lt binadeLt)
      rw [Nat.succ_mul] at room
      omega
    · unfold stepOf
      rw [binadeEq]
      exact Nat.add_le_add_left (roundHalfEven_mono _ le) _
  rw [nearestPattern_eq, nearestPattern_eq]
  omega

theorem log2_unitsOf {exponent rest : Nat} (restLt : rest < F.binadeSize) :
    ((F.binadeSize + rest) * Nat.pow 2 exponent).log2 = F.fractionBits + exponent := by
  change ((F.binadeSize + rest) * 2 ^ exponent).log2 = F.fractionBits + exponent
  have sizeEq : F.binadeSize = 2 ^ F.fractionBits := rfl
  have sizePos := F.binadeSize_pos
  have scalePos : 0 < 2 ^ exponent := Nat.two_pow_pos exponent
  have nonzero : (F.binadeSize + rest) * 2 ^ exponent ≠ 0 :=
    Nat.ne_of_gt (Nat.mul_pos (by omega) scalePos)
  rw [Nat.log2_eq_iff nonzero]
  constructor
  · rw [Nat.pow_add, ← sizeEq]
    exact Nat.mul_le_mul_right _ (Nat.le_add_right _ _)
  · rw [Nat.add_right_comm, Nat.pow_add, Nat.pow_succ, ← sizeEq]
    exact Nat.mul_lt_mul_of_pos_right (by omega) scalePos

theorem nearestPattern_unitsOf {pattern : Nat} (finite : pattern ≤ F.infinity) :
    F.nearestPattern (F.unitsOf pattern) 1 = pattern := by
  have sizeEq : F.binadeSize = 2 ^ F.fractionBits := rfl
  have patternSplit := Nat.div_add_mod pattern F.binadeSize
  have restLt := Nat.mod_lt pattern F.binadeSize_pos
  rw [nearestPattern_eq]
  by_cases subnormal : pattern / F.binadeSize = 0
  · have unitsEq : F.unitsOf pattern = pattern := if_pos subnormal
    have patternLt : pattern < 2 ^ F.fractionBits := by
      rw [subnormal, Nat.mul_zero, Nat.zero_add] at patternSplit
      omega
    have binadeEq : F.binadeOf pattern 1 = 0 := by
      unfold binadeOf
      rw [Nat.div_one]
      by_cases zero : pattern = 0
      · rw [zero, Nat.log2_zero, Nat.zero_sub]
      · have logLt := (Nat.log2_lt zero).mpr patternLt
        omega
    have stepEq : F.stepOf pattern 1 = pattern := by
      have isExact := roundHalfEven_mul pattern Nat.one_pos
      rw [Nat.mul_one] at isExact
      unfold stepOf
      rw [binadeEq]
      exact isExact
    rw [unitsEq, binadeEq, stepEq, Nat.zero_mul, Nat.zero_add]
    exact Nat.min_eq_left finite
  · obtain ⟨exponent, exponentEq⟩ := Nat.exists_eq_succ_of_ne_zero subnormal
    have unitsEq : F.unitsOf pattern =
        (F.binadeSize + pattern % F.binadeSize) * Nat.pow 2 exponent := by
      unfold unitsOf
      simp only [exponentEq]
      rfl
    have binadeEq :
        F.binadeOf ((F.binadeSize + pattern % F.binadeSize) * Nat.pow 2 exponent) 1 = exponent := by
      unfold binadeOf
      rw [Nat.div_one, F.log2_unitsOf restLt]
      omega
    have stepEq : F.stepOf ((F.binadeSize + pattern % F.binadeSize) * Nat.pow 2 exponent) 1 =
        F.binadeSize + pattern % F.binadeSize := by
      unfold stepOf
      rw [binadeEq, Nat.one_mul]
      exact roundHalfEven_mul _ (Nat.two_pow_pos exponent)
    rw [unitsEq, binadeEq, stepEq]
    rw [exponentEq, Nat.mul_succ, Nat.mul_comm] at patternSplit
    omega

theorem nearestPattern_zero : F.nearestPattern 0 1 = 0 := by
  have unitsEq : F.unitsOf 0 = 0 := if_pos (Nat.zero_div F.binadeSize)
  have zeroExact := F.nearestPattern_unitsOf (Nat.zero_le F.infinity)
  rwa [unitsEq] at zeroExact

/-- The rank of the number nearest to a whole number of units. -/
def roundedRank (units : Int) : Int :=
  if units < 0 then -(F.nearestPattern units.natAbs 1 : Int) else F.nearestPattern units.natAbs 1

theorem roundedRank_mono {first second : Int} (le : first ≤ second) :
    F.roundedRank first ≤ F.roundedRank second := by
  unfold roundedRank
  by_cases secondNegative : second < 0
  · have firstNegative : first < 0 := by omega
    have magnitudeLe : second.natAbs ≤ first.natAbs := by omega
    have patternLe := F.nearestPattern_mono 1 magnitudeLe
    rw [if_pos firstNegative, if_pos secondNegative]
    omega
  · rw [if_neg secondNegative]
    by_cases firstNegative : first < 0
    · rw [if_pos firstNegative]
      omega
    · have magnitudeLe : first.natAbs ≤ second.natAbs := by omega
      have patternLe := F.nearestPattern_mono 1 magnitudeLe
      rw [if_neg firstNegative]
      omega

end Format

namespace Binary

variable {F : Format}

theorem isNaN_nearest (negative : Bool) (numerator denominator : Nat) :
    (nearest (F := F) negative numerator denominator).isNaN = false := by
  have bounded : F.nearestPattern numerator denominator ≤ F.infinity := Nat.min_le_right _ _
  exact decide_eq_false (Nat.not_lt_of_le bounded)

theorem rank_addFinite (x y : Binary F) :
    (addFinite x y).rank = F.roundedRank (x.signedUnits + y.signedUnits) := by
  unfold addFinite Format.roundedRank nearest rank
  simp only
  by_cases below : x.signedUnits + y.signedUnits < 0
  · rw [decide_eq_true below, Bool.true_or, if_pos rfl, if_pos below]
  · rw [decide_eq_false below, Bool.false_or, if_neg below]
    by_cases zero : x.signedUnits + y.signedUnits = 0
    · rw [zero, Int.natAbs_zero, F.nearestPattern_zero]
      split <;> rfl
    · rw [decide_eq_false zero, Bool.false_and, Bool.false_and]
      exact if_neg Bool.false_ne_true

theorem roundedRank_signedUnits {x : Binary F} (finite : x.magnitude ≤ F.infinity) :
    F.roundedRank x.signedUnits = x.rank := by
  have isExact := F.nearestPattern_unitsOf finite
  unfold Format.roundedRank signedUnits rank units
  cases x.negative with
  | false =>
      simp only [Bool.false_eq_true, if_false]
      rw [if_neg (Int.not_lt.mpr (Int.natCast_nonneg _)), Int.natAbs_natCast, isExact]
  | true =>
      simp only [if_true]
      rw [Int.natAbs_neg, Int.natAbs_natCast, isExact]
      split
      · rfl
      · have unitsZero : F.unitsOf x.magnitude = 0 := by omega
        rw [unitsZero, F.nearestPattern_zero] at isExact
        omega

theorem add_eq (x y : Binary F) :
    x + y =
      if x.isNaN || y.isNaN then nan
      else if x.isInfinite then
        if y.isInfinite && x.negative != y.negative then nan else infinite x.negative
      else if y.isInfinite then infinite y.negative
      else addFinite x y :=
  rfl

theorem signedUnits_nonneg {x : Binary F} (nonneg : zero.atMost x = true) :
    0 ≤ x.signedUnits := by
  have rankLe : (0 : Int) ≤ x.rank := (atMost_iff.mp nonneg).2.2
  unfold rank at rankLe
  unfold signedUnits units
  cases negative : x.negative with
  | false => exact Int.natCast_nonneg _
  | true =>
      rw [negative, if_pos rfl] at rankLe
      have magnitudeEq : x.magnitude = 0 := by omega
      have unitsEq : F.unitsOf 0 = 0 := if_pos (Nat.zero_div F.binadeSize)
      rw [magnitudeEq, unitsEq]
      decide

theorem magnitude_le_infinity {x : Binary F} (number : x.isNaN = false) :
    x.magnitude ≤ F.infinity :=
  Nat.le_of_not_lt (of_decide_eq_false number)

theorem number_of_finite {x : Binary F} (finite : x.isFinite = true) :
    x.isNaN = false ∧ x.isInfinite = false := by
  have magnitudeLt : x.magnitude < F.infinity := of_decide_eq_true finite
  exact ⟨decide_eq_false (Nat.not_lt_of_gt magnitudeLt), decide_eq_false (Nat.ne_of_lt magnitudeLt)⟩

theorem rank_add_of_finite {x y : Binary F} (number : x.isNaN = false)
    (finite : y.isFinite = true) :
    (x + y).isNaN = false ∧
      (x + y).rank =
        if x.isInfinite then x.rank else F.roundedRank (x.signedUnits + y.signedUnits) := by
  obtain ⟨yNumber, yBounded⟩ := number_of_finite finite
  rw [add_eq, number, yNumber, yBounded]
  simp only [Bool.or_self, Bool.false_and, Bool.false_eq_true, if_false]
  by_cases infinite : x.isInfinite = true
  · have magnitudeEq : x.magnitude = F.infinity := of_decide_eq_true infinite
    rw [if_pos infinite, if_pos infinite]
    constructor
    · exact decide_eq_false (Nat.lt_irrefl _)
    · unfold rank
      rw [magnitudeEq]
      rfl
  · rw [if_neg infinite, if_neg infinite]
    exact ⟨isNaN_nearest _ _ _, rank_addFinite x y⟩

theorem rank_le_rank_add {x y : Binary F} (number : x.isNaN = false)
    (finite : y.isFinite = true) (nonneg : zero.atMost y = true) :
    (x + y).isNaN = false ∧ x.rank ≤ (x + y).rank := by
  obtain ⟨sumNumber, sumRank⟩ := rank_add_of_finite number finite
  refine ⟨sumNumber, ?_⟩
  rw [sumRank]
  split
  · exact Int.le_refl _
  · have yUnits := signedUnits_nonneg nonneg
    rw [← roundedRank_signedUnits (magnitude_le_infinity number)]
    exact F.roundedRank_mono (by omega)

end Binary

end AudioBus
