import AudioBus.Binary.Basic

/-!
Comparisons as comparisons of ranks, and the order of all patterns beside them.
-/

namespace AudioBus.Binary

variable {F : Format} {x y : Binary F}

theorem less_iff :
    x.less y = true ↔ x.isNaN = false ∧ y.isNaN = false ∧ x.rank < y.rank := by
  unfold less
  rw [Bool.and_eq_true, Bool.and_eq_true, Bool.not_eq_true', Bool.not_eq_true',
    decide_eq_true_iff, and_assoc]

theorem atMost_iff :
    x.atMost y = true ↔ x.isNaN = false ∧ y.isNaN = false ∧ x.rank ≤ y.rank := by
  unfold atMost
  rw [Bool.and_eq_true, Bool.and_eq_true, Bool.not_eq_true', Bool.not_eq_true',
    decide_eq_true_iff, and_assoc]

theorem rank_le_of_not_less (xNumber : x.isNaN = false) (yNumber : y.isNaN = false)
    (notLess : x.less y = false) : y.rank ≤ x.rank := by
  apply Int.not_lt.mp
  intro below
  have isLess := less_iff.mpr ⟨xNumber, yNumber, below⟩
  rw [notLess] at isLess
  contradiction

theorem rank_le_rank_larger (x : Binary F) (number : y.isNaN = false) :
    (x.larger y).isNaN = false ∧ y.rank ≤ (x.larger y).rank := by
  unfold larger
  by_cases notNumber : x.isNaN = true
  · rw [if_pos notNumber]
    exact ⟨number, Int.le_refl _⟩
  · have xNumber : x.isNaN = false := Bool.not_eq_true _ |>.mp notNumber
    rw [if_neg notNumber]
    by_cases below : x.less y = true
    · rw [if_pos below]
      exact ⟨number, Int.le_refl _⟩
    · rw [if_neg below]
      exact ⟨xNumber, rank_le_of_not_less xNumber number (Bool.not_eq_true _ |>.mp below)⟩

theorem orderKey_le_rank (x : Binary F) : x.orderKey ≤ x.rank := by
  unfold orderKey rank
  split <;> omega

theorem orderKey_of_pos (positive : zero.less x = true) : x.orderKey = x.rank := by
  have rankPos : (0 : Int) < x.rank := (less_iff.mp positive).2.2
  unfold rank at rankPos
  unfold orderKey rank
  split
  · rename_i negative
    rw [if_pos negative] at rankPos
    omega
  · rfl

theorem orderKey_lt_of_less (isLess : x.less y = true) : x.orderKey < y.orderKey := by
  have rankLt := (less_iff.mp isLess).2.2
  unfold rank at rankLt
  unfold orderKey
  cases xSign : x.negative <;> cases ySign : y.negative <;>
    simp only [xSign, ySign, if_true, Bool.false_eq_true, if_false] at rankLt ⊢ <;> omega

end AudioBus.Binary
