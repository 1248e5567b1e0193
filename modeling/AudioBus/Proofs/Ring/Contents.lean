import AudioBus.Proofs.Ring.Slots

/-!
What a ring holds: at every position of its lap, the sum of the samples that landed there.

Samples land from the read head up to the last but one position of the lap, which the end of the
timeline bounds.  The slot next to the read head therefore stays silent, and so do the slots that
the read head leaves behind: nothing of one lap is heard in the next.
-/

namespace AudioBus.Ring

/-- Whether a sample at a position is mixed by a ring with this read head. -/
def inReach (readHead capacity position : Nat) : Bool :=
  decide (readHead ≤ position ∧ position < min (readHead + capacity) lastIndex - 1)

/-- The samples of a block that a ring mixes, with their positions. -/
def landing (ring : Ring) (first : Nat) (block : List Sample) : List (Sample × Nat) :=
  (block.zipIdx first).filter fun placed => inReach ring.readHead.value ring.capacity placed.2

theorem limit_value (ring : Ring) :
    ring.limit.value = min (ring.readHead.value + ring.capacity) lastIndex :=
  rfl

theorem capacity_pos (ring : Ring) : 0 < ring.capacity :=
  ring.slots_pos

theorem filter_zipIdx (block : List Sample) (first lower upper : Nat) :
    (block.zipIdx first).filter (fun placed => decide (lower ≤ placed.2 ∧ placed.2 < upper)) =
      ((block.drop (lower - first)).take (upper - max lower first)).zipIdx (max lower first) := by
  induction block generalizing first with
  | nil => simp
  | cons sample rest inductionHypothesis =>
      rw [List.zipIdx_cons]
      by_cases late : first < lower
      · have shorter : lower - first = lower - (first + 1) + 1 := by omega
        have sameStart : max lower first = max lower (first + 1) := by omega
        rw [List.filter_cons_of_neg (by simp; omega), inductionHypothesis, shorter,
          List.drop_succ_cons, sameStart]
      · have noDrop : lower - first = 0 := by omega
        have noDropAfter : lower - (first + 1) = 0 := by omega
        have start : max lower first = first := by omega
        have startAfter : max lower (first + 1) = first + 1 := by omega
        rw [noDrop, List.drop_zero, start]
        by_cases early : upper ≤ first
        · have noneLeft : upper - first = 0 := by omega
          have noneLeftAfter : upper - (first + 1) = 0 := by omega
          rw [List.filter_cons_of_neg (by simp; omega), inductionHypothesis, startAfter, noneLeft,
            noneLeftAfter]
          rfl
        · have oneMore : upper - first = upper - (first + 1) + 1 := by omega
          rw [List.filter_cons_of_pos (by simp; omega), inductionHypothesis, noDropAfter,
            startAfter, List.drop_zero, oneMore, List.take_succ_cons, List.zipIdx_cons]

theorem landing_eq (ring : Ring) (first : Nat) (block : List Sample) :
    ring.landing first block =
      ((block.drop (ring.readHead.value - first)).take
        (ring.limit.value - 1 - max ring.readHead.value first)).zipIdx
        (max ring.readHead.value first) :=
  filter_zipIdx block first ring.readHead.value (ring.limit.value - 1)

theorem mem_landing {ring : Ring} {first : Nat} {block : List Sample} {placed : Sample × Nat}
    (member : placed ∈ ring.landing first block) :
    ring.readHead.value ≤ placed.2 ∧ placed.2 + 1 < ring.limit.value := by
  have reached := (List.mem_filter.mp member).2
  rw [inReach, decide_eq_true_eq, ← limit_value] at reached
  omega

theorem landing_eq_nil {ring : Ring} {first : Nat} {block : List Sample}
    (outOfReach : first + block.length < ring.readHead.value ∨ ring.limit.value < first) :
    ring.landing first block = [] := by
  rw [landing_eq]
  rcases outOfReach with behind | beyond
  · rw [List.drop_eq_nil_of_le (by omega)]
    simp
  · have noRoom : ring.limit.value - 1 - max ring.readHead.value first = 0 := by omega
    rw [noRoom]
    rfl

theorem landing_clamp (ring : Ring) (first : Nat) (block : List Sample) :
    ring.landing (SampleIndex.clamp first).value block = ring.landing first block := by
  change ring.landing (min first lastIndex) block = _
  by_cases within : first ≤ lastIndex
  · rw [Nat.min_eq_left within]
  · have limitBound := ring.limit.value_le
    have noRoom : ring.limit.value - 1 - max ring.readHead.value first = 0 := by omega
    have noRoomClamped :
        ring.limit.value - 1 - max ring.readHead.value (min first lastIndex) = 0 := by omega
    rw [landing_eq, landing_eq, noRoom, noRoomClamped]
    rfl

theorem mix_of_behind {ring : Ring} {writeHead : SampleIndex} {block : List Sample}
    (behind : writeHead.value + block.length < ring.readHead.value) :
    ring.mix writeHead block = (ring, writeHead.advance block.length, .whollyLate) := by
  have before : (writeHead.advance block.length).value < ring.readHead.value := by
    rw [SampleIndex.advance_value]
    omega
  exact if_pos before

theorem mix_of_beyond {ring : Ring} {writeHead : SampleIndex} {block : List Sample}
    (beyond : ring.limit.value < writeHead.value) :
    ring.mix writeHead block = (ring, writeHead.advance block.length, .whollyEarly) := by
  have notBefore : ¬(writeHead.advance block.length).value < ring.readHead.value := by
    have limitEq := ring.limit_value
    have readHeadBound := ring.readHead.value_le
    rw [SampleIndex.advance_value]
    omega
  exact (if_neg notBefore).trans (if_pos beyond)

theorem mix_of_within {ring : Ring} {writeHead : SampleIndex} {block : List Sample}
    (notBehind : ring.readHead.value ≤ writeHead.value + block.length)
    (notBeyond : writeHead.value ≤ ring.limit.value) :
    let late := ring.readHead.value - writeHead.value
    let start := writeHead.value + late
    let room := ring.limit.value - 1 - start
    let early := (block.drop late).length - room
    (ring.mix writeHead block).1.slots =
        deposit ring.slots start ((block.drop late).take room) ∧
      (ring.mix writeHead block).1.readHead = ring.readHead ∧
      (ring.mix writeHead block).2.1 = writeHead.advance block.length ∧
      (ring.mix writeHead block).2.2 =
        if 0 < early then .partlyEarly late early
        else if 0 < late then .partlyLate late
        else .mixed := by
  have notBefore : ¬(writeHead.advance block.length).value < ring.readHead.value := by
    have readHeadBound := ring.readHead.value_le
    rw [SampleIndex.advance_value]
    omega
  simp only [mix, if_neg notBefore, if_neg (Nat.not_lt.mpr notBeyond), and_self]

theorem block_cases (ring : Ring) (writeHead : SampleIndex) (block : List Sample) :
    writeHead.value + block.length < ring.readHead.value ∨
      ring.limit.value < writeHead.value ∨
      (ring.readHead.value ≤ writeHead.value + block.length ∧
        writeHead.value ≤ ring.limit.value) := by
  omega

theorem mix_readHead (ring : Ring) (writeHead : SampleIndex) (block : List Sample) :
    (ring.mix writeHead block).1.readHead = ring.readHead := by
  rcases ring.block_cases writeHead block with behind | beyond | ⟨notBehind, notBeyond⟩
  · rw [mix_of_behind behind]
  · rw [mix_of_beyond beyond]
  · exact (mix_of_within notBehind notBeyond).2.1

theorem mix_capacity (ring : Ring) (writeHead : SampleIndex) (block : List Sample) :
    (ring.mix writeHead block).1.capacity = ring.capacity := by
  rcases ring.block_cases writeHead block with behind | beyond | ⟨notBehind, notBeyond⟩
  · rw [mix_of_behind behind]
  · rw [mix_of_beyond beyond]
  · rw [capacity, (mix_of_within notBehind notBeyond).1]
    exact deposit_size _ _ _

theorem mix_writeHead (ring : Ring) (writeHead : SampleIndex) (block : List Sample) :
    (ring.mix writeHead block).2.1 = writeHead.advance block.length := by
  rcases ring.block_cases writeHead block with behind | beyond | ⟨notBehind, notBeyond⟩
  · rw [mix_of_behind behind]
  · rw [mix_of_beyond beyond]
  · exact (mix_of_within notBehind notBeyond).2.2.1

theorem mix_slotAt (ring : Ring) (writeHead : SampleIndex) (block : List Sample) {position : Nat}
    (above : ring.readHead.value ≤ position)
    (below : position < ring.readHead.value + ring.capacity) :
    (ring.mix writeHead block).1.slotAt position =
      (soundsAt (ring.landing writeHead.value block) position).foldl (· + ·)
        (ring.slotAt position) := by
  rcases ring.block_cases writeHead block with behind | beyond | ⟨notBehind, notBeyond⟩
  · rw [mix_of_behind behind, landing_eq_nil (Or.inl behind)]
    rfl
  · rw [mix_of_beyond beyond, landing_eq_nil (Or.inr beyond)]
    rfl
  · have readHeadBound := ring.readHead.value_le
    have limitEq := ring.limit_value
    have capacityPos := ring.capacity_pos
    have start : writeHead.value + (ring.readHead.value - writeHead.value) =
        max ring.readHead.value writeHead.value := by omega
    have room : max ring.readHead.value writeHead.value +
        ((block.drop (ring.readHead.value - writeHead.value)).take
          (ring.limit.value - 1 - max ring.readHead.value writeHead.value)).length ≤
        ring.readHead.value + ring.slots.size := by
      have taken := List.length_take_le
        (ring.limit.value - 1 - max ring.readHead.value writeHead.value)
        (block.drop (ring.readHead.value - writeHead.value))
      change _ ≤ ring.readHead.value + ring.capacity
      omega
    have deposited := (mix_of_within notBehind notBeyond).1
    rw [start] at deposited
    rw [slotAt, mix_capacity, deposited, landing_eq]
    exact deposit_getD ring.slots _ _ (by omega) room above below

theorem release_capacity (ring : Ring) (frames : Nat) :
    (ring.release frames).capacity = ring.capacity :=
  hush_size _ _ _

theorem release_readHead (ring : Ring) (frames : Nat) :
    (ring.release frames).readHead = ring.readHead.advance frames :=
  rfl

theorem release_slotAt (ring : Ring) (frames : Nat) {position : Nat}
    (above : ring.readHead.value ≤ position)
    (below : position < ring.readHead.value + ring.capacity) :
    (ring.release frames).slotAt position =
      if position < ring.readHead.value + frames then silence else ring.slotAt position := by
  have hushed := hush_getD ring.slots ring.readHead.value (min frames ring.capacity)
    (Nat.le_refl _) (Nat.add_le_add_left (Nat.min_le_right _ _) _) above below
  rw [slotAt, release_capacity]
  change (hush ring.slots ring.readHead.value (min frames ring.capacity)).getD
    (position % ring.slots.size) silence = _
  rw [hushed]
  by_cases left : position < ring.readHead.value + frames
  · rw [if_pos left, if_pos (by omega)]
  · rw [if_neg left, if_neg (by omega)]
    rfl

theorem read_count (ring : Ring) (out : Array Sample) (frames : Nat) (stride : SampleCount) :
    (ring.read out frames stride).2.2 =
      min frames (min (stridedLength out.size stride.count) ring.capacity) :=
  rfl

theorem read_le_capacity (ring : Ring) (out : Array Sample) (frames : Nat) (stride : SampleCount) :
    (ring.read out frames stride).2.2 ≤ ring.capacity := by
  rw [read_count]
  omega

theorem read_ring (ring : Ring) (out : Array Sample) (frames : Nat) (stride : SampleCount) :
    (ring.read out frames stride).1 = ring.release (ring.read out frames stride).2.2 := by
  have inLap := ring.read_le_capacity out frames stride
  simp only [read, release, Ring.mk.injEq, moveOut_slots, and_true]
  rw [read_count] at inLap
  rw [Nat.min_eq_left inLap]

theorem read_capacity (ring : Ring) (out : Array Sample) (frames : Nat) (stride : SampleCount) :
    (ring.read out frames stride).1.capacity = ring.capacity := by
  rw [read_ring, release_capacity]

theorem read_slotAt (ring : Ring) (out : Array Sample) (frames : Nat) (stride : SampleCount)
    {position : Nat} (above : ring.readHead.value ≤ position)
    (below : position < ring.readHead.value + ring.capacity) :
    (ring.read out frames stride).1.slotAt position =
      if position < ring.readHead.value + (ring.read out frames stride).2.2 then silence
      else ring.slotAt position := by
  rw [read_ring]
  exact ring.release_slotAt _ above below

theorem stridedLength_spec {length stride offset : Nat} (stridePos : 0 < stride)
    (reached : offset < stridedLength length stride) : offset * stride < length := by
  have atLeast : (offset + 1) * stride ≤ length + stride - 1 :=
    (Nat.le_div_iff_mul_le stridePos).mp reached
  rw [Nat.succ_mul] at atLeast
  omega

theorem read_out (ring : Ring) (out : Array Sample) (frames : Nat) (stride : SampleCount)
    {offset : Nat} (moved : offset < (ring.read out frames stride).2.2) :
    (ring.read out frames stride).2.1[offset * stride.count]? =
      some (ring.slotAt (ring.readHead.value + offset)) := by
  have count := read_count ring out frames stride
  have reached : offset < stridedLength out.size stride.count := by omega
  have element := moveOut_out ring.readHead.value ring.slots out ring.readHead.value 0
    stride.count_pos (Nat.le_refl _) (by change _ ≤ _ + ring.capacity; omega) offset moved
    (by rw [Nat.zero_add]; exact stridedLength_spec stride.count_pos reached)
  rw [Nat.zero_add] at element
  exact element

/-- A ring carries samples when every slot of its lap holds the sum of those at its position, and
none lies at the end of the lap or beyond. -/
structure Carries (ring : Ring) (landed : List (Sample × Nat)) : Prop where
  reached : ∀ placed ∈ landed, placed.2 + 1 < ring.limit.value
  shown : ∀ position, ring.readHead.value ≤ position →
    position < ring.readHead.value + ring.capacity → ring.slotAt position = mixAt landed position

theorem silent_slotAt (capacity : SampleCount) (position : Nat) :
    (silent capacity).slotAt position = silence := by
  simp only [slotAt, silent, Array.getD_eq_getD_getElem?, Array.getElem?_replicate]
  split <;> rfl

theorem silent_carries (capacity : SampleCount) : (silent capacity).Carries [] where
  reached := by
    intro placed member
    cases member
  shown := by
    intro position _ _
    exact silent_slotAt capacity position

theorem Carries.mix {ring : Ring} {landed : List (Sample × Nat)} (carries : ring.Carries landed)
    (writeHead : SampleIndex) (block : List Sample) :
    (ring.mix writeHead block).1.Carries (landed ++ ring.landing writeHead.value block) where
  reached := by
    intro placed member
    rw [limit_value, mix_readHead, mix_capacity, ← limit_value]
    rcases List.mem_append.mp member with earlier | added
    · exact carries.reached placed earlier
    · exact (mem_landing added).2
  shown := by
    intro position above below
    rw [mix_readHead] at above below
    rw [mix_capacity] at below
    rw [mix_slotAt ring writeHead block above below, carries.shown position above below,
      mixAt_append]

theorem Carries.silent_beyond {ring : Ring} {landed : List (Sample × Nat)}
    (carries : ring.Carries landed) {position : Nat} (beyond : ring.limit.value ≤ position + 1) :
    mixAt landed position = silence := by
  apply mixAt_eq_silence
  intro placed member here
  have reached := carries.reached placed member
  omega

theorem Carries.release {ring : Ring} {landed : List (Sample × Nat)}
    (carries : ring.Carries landed) (frames : Nat) : (ring.release frames).Carries landed where
  reached := by
    intro placed member
    have reached := carries.reached placed member
    rw [limit_value] at reached ⊢
    rw [release_readHead, release_capacity, SampleIndex.advance_value]
    omega
  shown := by
    intro position above below
    rw [release_readHead, SampleIndex.advance_value] at above below
    rw [release_capacity] at below
    have limitEq := ring.limit_value
    have readHeadBound := ring.readHead.value_le
    -- the slot of a position ahead belonged, until now, to a position of the lap left
    obtain ⟨former, formerAbove, formerBelow, formerLe, sameSlot⟩ :=
      exists_in_lap ring.capacity_pos (by omega : ring.readHead.value ≤ position)
    have slot : (ring.release frames).slotAt position = (ring.release frames).slotAt former := by
      rw [slotAt, slotAt, release_capacity, sameSlot]
    rw [slot, release_slotAt ring frames formerAbove formerBelow]
    by_cases left : former < ring.readHead.value + frames
    · rw [if_pos left]
      refine (carries.silent_beyond ?_).symm
      have within : position < ring.readHead.value + ring.capacity → former = position :=
        fun inLap => eq_of_same_slot formerAbove formerBelow (by omega) inLap sameSlot
      omega
    · rw [if_neg left, carries.shown former formerAbove formerBelow]
      have same : former = position :=
        eq_of_same_slot (Nat.not_lt.mp left) (by omega) (by omega) (by omega) sameSlot
      rw [same]

theorem Carries.read_out {ring : Ring} {landed : List (Sample × Nat)}
    (carries : ring.Carries landed) (out : Array Sample) (frames : Nat) (stride : SampleCount)
    {offset : Nat} (moved : offset < (ring.read out frames stride).2.2) :
    (ring.read out frames stride).2.1[offset * stride.count]? =
      some (mixAt landed (ring.readHead.value + offset)) := by
  have count := read_count ring out frames stride
  rw [Ring.read_out ring out frames stride moved, carries.shown _ (by omega) (by omega)]

end AudioBus.Ring
