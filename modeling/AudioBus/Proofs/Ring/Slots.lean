import AudioBus.Stream.Ring

/-!
The slots of a ring by position.

Positions of one lap have slots of their own, so what mixing, reading and releasing do to a slot
can be said of the one position of the lap that the slot stands for.
-/

namespace AudioBus.Ring

theorem eq_of_same_slot {window size position other : Nat} (above : window ≤ position)
    (below : position < window + size) (otherAbove : window ≤ other)
    (otherBelow : other < window + size) (same : position % size = other % size) :
    position = other := by
  rcases Nat.lt_trichotomy position other with before | equal | after
  · have multiple := Nat.sub_mod_eq_zero_of_mod_eq same.symm
    rw [Nat.mod_eq_of_lt (by omega)] at multiple
    omega
  · exact equal
  · have multiple := Nat.sub_mod_eq_zero_of_mod_eq same
    rw [Nat.mod_eq_of_lt (by omega)] at multiple
    omega

theorem slot_ne_of_lap {window size position other : Nat} (above : window ≤ position)
    (below : position < window + size) (otherAbove : window ≤ other)
    (otherBelow : other < window + size) (different : position ≠ other) :
    position % size ≠ other % size :=
  fun same => different (eq_of_same_slot above below otherAbove otherBelow same)

theorem exists_in_lap {window size : Nat} (sizePos : 0 < size) {position : Nat}
    (above : window ≤ position) :
    ∃ shown, window ≤ shown ∧ shown < window + size ∧ shown ≤ position ∧
      shown % size = position % size := by
  have remainder := Nat.mod_lt (position - window) sizePos
  have shorter := Nat.mod_le (position - window) size
  refine ⟨window + (position - window) % size, by omega, by omega, by omega, ?_⟩
  rw [Nat.add_mod_mod, Nat.add_sub_cancel' above]

theorem getD_modify (slots : Array Sample) (change : Sample → Sample) {slot : Nat}
    (inside : slot < slots.size) (other : Nat) :
    (slots.modify slot change).getD other silence =
      if slot = other then change (slots.getD other silence) else slots.getD other silence := by
  simp only [Array.getD_eq_getD_getElem?, Array.getElem?_modify]
  by_cases same : slot = other
  · subst other
    rw [if_pos rfl, if_pos rfl, Array.getElem?_eq_getElem inside]
    rfl
  · rw [if_neg same, if_neg same]

theorem getD_setIfInBounds (slots : Array Sample) (sample : Sample) {slot : Nat}
    (inside : slot < slots.size) (other : Nat) :
    (slots.setIfInBounds slot sample).getD other silence =
      if slot = other then sample else slots.getD other silence := by
  simp only [Array.getD_eq_getD_getElem?, Array.getElem?_setIfInBounds]
  by_cases same : slot = other
  · rw [if_pos same, if_pos same, if_pos inside]
    rfl
  · rw [if_neg same, if_neg same]

/-- The samples that belong at one position, in the order in which they came. -/
def soundsAt (landed : List (Sample × Nat)) (position : Nat) : List Sample :=
  (landed.filter fun placed => decide (placed.2 = position)).map Prod.fst

/-- What is to be heard at a position: the sum of its samples from left to right. -/
def mixAt (landed : List (Sample × Nat)) (position : Nat) : Sample :=
  (soundsAt landed position).foldl (· + ·) silence

theorem soundsAt_cons (sample : Sample) (position other : Nat) (rest : List (Sample × Nat)) :
    soundsAt ((sample, position) :: rest) other =
      if position = other then sample :: soundsAt rest other else soundsAt rest other := by
  unfold soundsAt
  by_cases same : position = other
  · rw [if_pos same, List.filter_cons_of_pos (by simpa using same), List.map_cons]
  · rw [if_neg same, List.filter_cons_of_neg (by simpa using same)]

theorem soundsAt_append (first second : List (Sample × Nat)) (position : Nat) :
    soundsAt (first ++ second) position = soundsAt first position ++ soundsAt second position := by
  rw [soundsAt, List.filter_append, List.map_append]
  rfl

theorem soundsAt_eq_nil {landed : List (Sample × Nat)} {position : Nat}
    (elsewhere : ∀ placed ∈ landed, placed.2 ≠ position) : soundsAt landed position = [] := by
  rw [soundsAt, List.map_eq_nil_iff, List.filter_eq_nil_iff]
  intro placed member
  simpa using elsewhere placed member

theorem mixAt_append (first second : List (Sample × Nat)) (position : Nat) :
    mixAt (first ++ second) position =
      (soundsAt second position).foldl (· + ·) (mixAt first position) := by
  rw [mixAt, soundsAt_append, List.foldl_append]
  rfl

theorem mixAt_eq_silence {landed : List (Sample × Nat)} {position : Nat}
    (elsewhere : ∀ placed ∈ landed, placed.2 ≠ position) : mixAt landed position = silence := by
  rw [mixAt, soundsAt_eq_nil elsewhere]
  rfl

theorem soundsAt_before {first position : Nat} (samples : List Sample) (before : position < first) :
    soundsAt (samples.zipIdx first) position = [] := by
  apply soundsAt_eq_nil
  intro placed isPlaced
  have after := (List.mem_zipIdx isPlaced).1
  omega

theorem soundsAt_zipIdx (samples : List Sample) (first offset : Nat) :
    soundsAt (samples.zipIdx first) (first + offset) = samples[offset]?.toList := by
  induction samples generalizing first offset with
  | nil => rfl
  | cons sample rest inductionHypothesis =>
      rw [List.zipIdx_cons, soundsAt_cons]
      cases offset with
      | zero =>
          rw [if_pos (Nat.add_zero first).symm, soundsAt_before rest (by omega)]
          rfl
      | succ offset =>
          have later := inductionHypothesis (first + 1) offset
          rw [Nat.add_assoc, Nat.add_comm 1 offset] at later
          rw [if_neg (by omega), later, List.getElem?_cons_succ]

theorem deposit_getD {window position : Nat} (slots : Array Sample) (start : Nat)
    (block : List Sample) (above : window ≤ start)
    (below : start + block.length ≤ window + slots.size) (positionAbove : window ≤ position)
    (positionBelow : position < window + slots.size) :
    (deposit slots start block).getD (position % slots.size) silence =
      (soundsAt (block.zipIdx start) position).foldl (· + ·)
        (slots.getD (position % slots.size) silence) := by
  induction block generalizing slots start with
  | nil => rfl
  | cons sample rest inductionHypothesis =>
      rw [List.length_cons] at below
      have sizePos : 0 < slots.size := by omega
      have inside : start % slots.size < slots.size := Nat.mod_lt _ sizePos
      have step := inductionHypothesis (slots.modify (start % slots.size) (· + sample)) (start + 1)
        (by omega) (by rw [Array.size_modify]; omega) (by rw [Array.size_modify]; omega)
      rw [Array.size_modify, getD_modify slots _ inside] at step
      rw [deposit, step, List.zipIdx_cons, soundsAt_cons]
      by_cases here : start = position
      · rw [if_pos here, if_pos (by rw [here]), List.foldl_cons]
      · have elsewhere := slot_ne_of_lap above (by omega) positionAbove positionBelow here
        rw [if_neg here, if_neg elsewhere]

theorem hush_getD {window position : Nat} (slots : Array Sample) (start count : Nat)
    (above : window ≤ start) (below : start + count ≤ window + slots.size)
    (positionAbove : window ≤ position) (positionBelow : position < window + slots.size) :
    (hush slots start count).getD (position % slots.size) silence =
      if start ≤ position ∧ position < start + count then silence
      else slots.getD (position % slots.size) silence := by
  induction count generalizing slots start with
  | zero =>
      rw [hush, if_neg (by omega)]
  | succ count inductionHypothesis =>
      have inside : start % slots.size < slots.size := Nat.mod_lt _ (by omega)
      have step := inductionHypothesis (slots.setIfInBounds (start % slots.size) silence)
        (start + 1) (by omega) (by rw [Array.size_setIfInBounds]; omega)
        (by rw [Array.size_setIfInBounds]; omega)
      rw [Array.size_setIfInBounds, getD_setIfInBounds slots _ inside] at step
      rw [hush, step]
      by_cases here : start = position
      · subst position
        rw [if_neg (by omega), if_pos rfl, if_pos (by omega)]
      · have elsewhere := slot_ne_of_lap above (by omega) positionAbove positionBelow here
        rw [if_neg elsewhere]
        by_cases hushed : start + 1 ≤ position ∧ position < start + 1 + count
        · rw [if_pos hushed, if_pos (by omega)]
        · rw [if_neg hushed, if_neg (by omega)]

theorem moveOut_slots (slots out : Array Sample) (position target stride count : Nat) :
    (moveOut slots out position target stride count).1 = hush slots position count := by
  induction count generalizing slots out position target with
  | zero => rfl
  | succ count inductionHypothesis =>
      rw [moveOut, hush, inductionHypothesis]

theorem moveOut_out_size (slots out : Array Sample) (position target stride count : Nat) :
    (moveOut slots out position target stride count).2.size = out.size := by
  induction count generalizing slots out position target with
  | zero => rfl
  | succ count inductionHypothesis =>
      rw [moveOut, inductionHypothesis, Array.size_setIfInBounds]

theorem moveOut_out_of_ne (slots out : Array Sample) (position target stride count : Nat)
    {element : Nat} (elsewhere : ∀ offset, offset < count → target + offset * stride ≠ element) :
    (moveOut slots out position target stride count).2[element]? = out[element]? := by
  induction count generalizing slots out position target with
  | zero => rfl
  | succ count inductionHypothesis =>
      have notFirst : target ≠ element := by
        have first := elsewhere 0 (Nat.succ_pos count)
        rwa [Nat.zero_mul, Nat.add_zero] at first
      rw [moveOut, inductionHypothesis, Array.getElem?_setIfInBounds_ne notFirst]
      intro offset moved
      have later := elsewhere (offset + 1) (Nat.succ_lt_succ moved)
      rw [Nat.succ_mul] at later
      omega

theorem moveOut_out (window : Nat) (slots out : Array Sample) (position target : Nat)
    {stride count : Nat} (stridePos : 0 < stride) (above : window ≤ position)
    (below : position + count ≤ window + slots.size) (offset : Nat) (moved : offset < count)
    (inside : target + offset * stride < out.size) :
    (moveOut slots out position target stride count).2[target + offset * stride]? =
      some (slots.getD ((position + offset) % slots.size) silence) := by
  induction count generalizing slots out position target offset with
  | zero => omega
  | succ count inductionHypothesis =>
      rw [moveOut]
      cases offset with
      | zero =>
          simp only [Nat.zero_mul, Nat.add_zero] at inside ⊢
          have onlyOnce : ∀ later, later < count → target + stride + later * stride ≠ target := by
            omega
          rw [moveOut_out_of_ne _ _ _ _ _ _ onlyOnce,
            Array.getElem?_setIfInBounds_self_of_lt inside]
      | succ offset =>
          have slotInside : position % slots.size < slots.size := Nat.mod_lt _ (by omega)
          have elsewhere : position % slots.size ≠ (position + 1 + offset) % slots.size :=
            slot_ne_of_lap above (by omega) (by omega : window ≤ _) (by omega) (by omega)
          have same : target + (offset + 1) * stride = target + stride + offset * stride := by
            rw [Nat.succ_mul]
            omega
          have step := inductionHypothesis (slots.setIfInBounds (position % slots.size) silence)
            (out.setIfInBounds target (slots.getD (position % slots.size) silence))
            (position + 1) (target + stride) (by omega)
            (by rw [Array.size_setIfInBounds]; omega) offset (by omega)
            (by rw [Array.size_setIfInBounds]; omega)
          rw [Array.size_setIfInBounds, getD_setIfInBounds slots _ slotInside,
            if_neg elsewhere] at step
          rw [same, step, Nat.add_assoc position 1 offset, Nat.add_comm 1 offset]

end AudioBus.Ring
