import AudioBus.Proofs.Binary.Rounding

/-!
Arithmetic keeps the order of numbers: differences, quotients and sums move with their operands.
-/

namespace AudioBus

namespace Format

variable (F : Format)

theorem nearestPattern_of_zero (denominator : Nat) : F.nearestPattern 0 denominator = 0 := by
  have binadeEq : F.binadeOf 0 denominator = 0 := by
    unfold binadeOf
    rw [Nat.zero_div, Nat.log2_zero, Nat.zero_sub]
  have stepEq : F.stepOf 0 denominator = 0 := by
    unfold stepOf
    rw [roundHalfEven_eq, Nat.zero_mod, Nat.zero_div, Nat.zero_mod]
    simp
  rw [nearestPattern_eq, binadeEq, stepEq, Nat.zero_mul]
  exact Nat.zero_min _

theorem unitsOf_mono {first second : Nat} (le : first ≤ second) (finite : second ≤ F.infinity) :
    F.unitsOf first ≤ F.unitsOf second := by
  apply Nat.not_lt.mp
  intro unitsLt
  have patternLe := F.nearestPattern_mono 1 (Nat.le_of_lt unitsLt)
  rw [F.nearestPattern_unitsOf finite, F.nearestPattern_unitsOf (Nat.le_trans le finite)]
    at patternLe
  rw [Nat.le_antisymm le patternLe] at unitsLt
  exact Nat.lt_irrefl _ unitsLt

end Format

namespace Binary

variable {F : Format} {x y z : Binary F}

theorem rank_larger (xNumber : x.isNaN = false) (yNumber : y.isNaN = false) :
    (x.larger y).isNaN = false ∧ (x.larger y).rank = max x.rank y.rank := by
  unfold larger
  rw [xNumber, if_neg Bool.false_ne_true]
  by_cases below : x.less y = true
  · have rankLt := (less_iff.mp below).2.2
    rw [if_pos below]
    exact ⟨yNumber, by omega⟩
  · have rankLe := rank_le_of_not_less xNumber yNumber (Bool.not_eq_true _ |>.mp below)
    rw [if_neg below]
    exact ⟨xNumber, by omega⟩

theorem signedUnits_neg (x : Binary F) : x.neg.signedUnits = -x.signedUnits := by
  unfold signedUnits neg units
  cases x.negative with
  | false => rfl
  | true => exact (Int.neg_neg _).symm

theorem sub_eq (x y : Binary F) : x - y = if y.isNaN then nan else x + y.neg :=
  rfl

theorem rank_sub_le (number : x.isNaN = false) (finite : y.isFinite = true)
    (nonneg : zero.atMost y = true) : (x - y).isNaN = false ∧ (x - y).rank ≤ x.rank := by
  have negFinite : y.neg.isFinite = true := finite
  obtain ⟨differenceNumber, differenceRank⟩ := rank_add_of_finite number negFinite
  rw [sub_eq, (number_of_finite finite).1, if_neg Bool.false_ne_true]
  refine ⟨differenceNumber, ?_⟩
  rw [differenceRank]
  split
  · exact Int.le_refl _
  · have yUnits := signedUnits_nonneg nonneg
    rw [signedUnits_neg, ← roundedRank_signedUnits (magnitude_le_infinity number)]
    exact F.roundedRank_mono (by omega)

/-- Whether `x` is a number without a minus sign. -/
def IsLength (x : Binary F) : Prop :=
  x.negative = false ∧ x.isNaN = false

theorem IsLength.signedUnits_eq (isLength : x.IsLength) : x.signedUnits = x.units := by
  unfold signedUnits
  rw [isLength.1]
  rfl

theorem isLength_ofNat (count : Nat) : (ofNat count : Binary F).IsLength :=
  ⟨rfl, isNaN_nearest _ _ _⟩

theorem magnitude_ofNat_mono {first second : Nat} (le : first ≤ second) :
    (ofNat first : Binary F).magnitude ≤ (ofNat second : Binary F).magnitude :=
  F.nearestPattern_mono 1 (Nat.mul_le_mul_right F.one le)

theorem div_of_finite (xLength : x.IsLength) (yLength : y.IsLength)
    (finite : y.isInfinite = false) (nonzero : y.magnitude ≠ 0) :
    x / y =
      if x.isInfinite then infinite false else nearest false (x.units * F.one) y.units := by
  change div x y = _
  unfold div
  rw [xLength.1, xLength.2, yLength.1, yLength.2, finite]
  simp only [nonzero, Bool.or_self, Bool.false_eq_true, if_false, bne_self_eq_false]

theorem isLength_div (xLength : x.IsLength) (yLength : y.IsLength)
    (finite : y.isInfinite = false) (nonzero : y.magnitude ≠ 0) : (x / y).IsLength := by
  rw [div_of_finite xLength yLength finite nonzero]
  split
  · exact ⟨rfl, decide_eq_false (Nat.lt_irrefl _)⟩
  · exact ⟨rfl, isNaN_nearest _ _ _⟩

theorem magnitude_div_mono (xLength : x.IsLength) (zLength : z.IsLength) (yLength : y.IsLength)
    (finite : y.isInfinite = false) (nonzero : y.magnitude ≠ 0)
    (le : x.magnitude ≤ z.magnitude) : (x / y).magnitude ≤ (z / y).magnitude := by
  have quotientLength := isLength_div xLength yLength finite nonzero
  rw [div_of_finite zLength yLength finite nonzero]
  by_cases zInfinite : z.isInfinite = true
  · rw [if_pos zInfinite]
    exact magnitude_le_infinity quotientLength.2
  · have zLe := magnitude_le_infinity zLength.2
    have zNe : z.magnitude ≠ F.infinity := of_decide_eq_false (Bool.not_eq_true _ |>.mp zInfinite)
    have xFinite : ¬ x.isInfinite = true := by
      intro infinite
      have xEq : x.magnitude = F.infinity := of_decide_eq_true infinite
      omega
    rw [if_neg zInfinite, div_of_finite xLength yLength finite nonzero, if_neg xFinite]
    exact F.nearestPattern_mono _ (Nat.mul_le_mul_right _ (F.unitsOf_mono le zLe))

theorem add_infinite (finite : x.isFinite = true) (yLength : y.IsLength)
    (infinite : y.isInfinite = true) : x + y = Binary.infinite false := by
  obtain ⟨xNumber, xBounded⟩ := number_of_finite finite
  rw [add_eq, xNumber, xBounded, yLength.1, yLength.2, infinite]
  rfl

theorem isNaN_add (finite : x.isFinite = true) (yLength : y.IsLength) :
    (x + y).isNaN = false := by
  by_cases infinite : y.isInfinite = true
  · rw [add_infinite finite yLength infinite]
    exact decide_eq_false (Nat.lt_irrefl _)
  · have yLe := magnitude_le_infinity yLength.2
    have yNe : y.magnitude ≠ F.infinity := of_decide_eq_false (Bool.not_eq_true _ |>.mp infinite)
    have yFinite : y.isFinite = true := decide_eq_true (by omega)
    exact (rank_add_of_finite (number_of_finite finite).1 yFinite).1

theorem rank_add_mono (finite : x.isFinite = true) (yLength : y.IsLength) (zLength : z.IsLength)
    (le : y.magnitude ≤ z.magnitude) : (x + y).rank ≤ (x + z).rank := by
  have sumNumber := isNaN_add finite yLength
  by_cases infinite : z.isInfinite = true
  · have sumLe := magnitude_le_infinity sumNumber
    rw [add_infinite finite zLength infinite]
    change (x + y).rank ≤ (F.infinity : Int)
    unfold rank
    split <;> omega
  · have zLe := magnitude_le_infinity zLength.2
    have zNe : z.magnitude ≠ F.infinity := of_decide_eq_false (Bool.not_eq_true _ |>.mp infinite)
    have zFinite : z.isFinite = true := decide_eq_true (by omega)
    have yFinite : y.isFinite = true := decide_eq_true (by omega)
    obtain ⟨xNumber, xBounded⟩ := number_of_finite finite
    rw [(rank_add_of_finite xNumber yFinite).2, (rank_add_of_finite xNumber zFinite).2, xBounded,
      if_neg Bool.false_ne_true, if_neg Bool.false_ne_true, yLength.signedUnits_eq,
      zLength.signedUnits_eq]
    have unitsLe : y.units ≤ z.units := F.unitsOf_mono le zLe
    exact F.roundedRank_mono (by omega)

theorem rank_add_zero (finite : x.isFinite = true) (yLength : y.IsLength)
    (isZero : y.magnitude = 0) : (x + y).rank = x.rank := by
  have infinityPos : 0 < F.infinity := Nat.zero_lt_of_lt (of_decide_eq_true finite)
  have yFinite : y.isFinite = true := decide_eq_true (by omega)
  have noUnits : y.units = 0 := by
    unfold units
    rw [isZero]
    exact if_pos (Nat.zero_div F.binadeSize)
  obtain ⟨xNumber, xBounded⟩ := number_of_finite finite
  rw [(rank_add_of_finite xNumber yFinite).2, xBounded, if_neg Bool.false_ne_true,
    yLength.signedUnits_eq, noUnits, Int.natCast_zero, Int.add_zero]
  exact roundedRank_signedUnits (magnitude_le_infinity xNumber)

end Binary

end AudioBus
