import AudioBus.Proofs.Ring.History
import AudioBus.Proofs.Ring.Runs

/-!
What becomes of every sample of a block.

A sample in reach is added to the slot of its position, and no other sample of the block is.  The
others are late or early, and the placement of the block counts them.
-/

namespace AudioBus.Ring

theorem inReach_iff (ring : Ring) (position : Nat) :
    inReach ring.readHead.value ring.capacity position = true ↔
      ring.readHead.value ≤ position ∧ position < ring.limit.value - 1 := by
  rw [inReach, decide_eq_true_eq, ← limit_value]

theorem lt_lap_of_inReach {ring : Ring} {position : Nat}
    (reached : inReach ring.readHead.value ring.capacity position = true) :
    ring.readHead.value ≤ position ∧ position < ring.readHead.value + ring.capacity := by
  have limitEq := ring.limit_value
  rw [inReach_iff] at reached
  omega

theorem soundsAt_landing (ring : Ring) (first : Nat) (block : List Sample) {offset : Nat}
    (reached : inReach ring.readHead.value ring.capacity (first + offset) = true) :
    soundsAt (ring.landing first block) (first + offset) = block[offset]?.toList := by
  rw [← soundsAt_zipIdx block first offset]
  unfold soundsAt landing
  rw [List.filter_filter]
  congr 1
  apply List.filter_congr
  intro placed _
  by_cases here : placed.2 = first + offset
  · rw [here, reached, Bool.and_true]
  · rw [decide_eq_false here, Bool.false_and]

theorem mix_slot_of_reached (ring : Ring) (writeHead : SampleIndex) (block : List Sample)
    {offset : Nat} (inBlock : offset < block.length)
    (reached : inReach ring.readHead.value ring.capacity (writeHead.value + offset) = true) :
    (ring.mix writeHead block).1.slots[(writeHead.value + offset) % ring.capacity]? =
      ring.slots[(writeHead.value + offset) % ring.capacity]?.map (· + block[offset]) := by
  obtain ⟨above, below⟩ := lt_lap_of_inReach reached
  have shown := (ring.mix writeHead block).1.slots_getElem? (writeHead.value + offset)
  rw [mix_capacity, mix_slotAt ring writeHead block above below, soundsAt_landing _ _ _ reached,
    List.getElem?_eq_getElem inBlock] at shown
  rw [shown, ring.slots_getElem?]
  rfl

theorem mix_slot_of_unreached (ring : Ring) (writeHead : SampleIndex) (block : List Sample)
    {slot : Nat}
    (elsewhere : ∀ offset, offset < block.length →
      inReach ring.readHead.value ring.capacity (writeHead.value + offset) = true →
      (writeHead.value + offset) % ring.capacity ≠ slot) :
    (ring.mix writeHead block).1.slots[slot]? = ring.slots[slot]? := by
  apply slots_getElem?_congr (ring.mix_capacity writeHead block)
  intro position above below slotEq
  have nothing : soundsAt (ring.landing writeHead.value block) position = [] := by
    apply soundsAt_eq_nil
    rintro placed isLanded rfl
    obtain ⟨isPlaced, reached⟩ := List.mem_filter.mp isLanded
    obtain ⟨after, before, _⟩ := List.mem_zipIdx isPlaced
    have offsetEq : writeHead.value + (placed.2 - writeHead.value) = placed.2 := by omega
    apply elsewhere (placed.2 - writeHead.value) (by omega)
    · rw [offsetEq]
      exact reached
    · rw [offsetEq]
      exact slotEq
  rw [mix_slotAt ring writeHead block above below, nothing]
  rfl

theorem countP_between (first length lower upper : Nat) :
    ((List.range length).countP fun offset =>
        decide (lower ≤ first + offset ∧ first + offset < upper)) =
      min (first + length) upper - max first lower := by
  induction length with
  | zero =>
      rw [List.range_zero, List.countP_nil]
      omega
  | succ length inductionHypothesis =>
      rw [List.range_succ, List.countP_append, inductionHypothesis, List.countP_singleton]
      by_cases between : lower ≤ first + length ∧ first + length < upper
      · rw [if_pos (decide_eq_true between)]
        omega
      · rw [if_neg (mt of_decide_eq_true between)]
        omega

/-- How many samples of a block are neither behind the read head nor before the last position of
the lap. -/
def earlyIn (ring : Ring) (first : Nat) (block : List Sample) : Nat :=
  (List.range block.length).countP fun offset =>
    decide (ring.readHead.value ≤ first + offset ∧ ring.limit.value - 1 ≤ first + offset)

/-- How many samples of a block are in reach. -/
def reachedIn (ring : Ring) (first : Nat) (block : List Sample) : Nat :=
  (List.range block.length).countP fun offset =>
    inReach ring.readHead.value ring.capacity (first + offset)

theorem earlyIn_eq (ring : Ring) (first : Nat) (block : List Sample) :
    ring.earlyIn first block =
      first + block.length - max first (max ring.readHead.value (ring.limit.value - 1)) := by
  have counted := countP_between first block.length
    (max ring.readHead.value (ring.limit.value - 1)) (first + block.length)
  rw [Nat.min_self] at counted
  rw [← counted]
  apply List.countP_congr
  intro offset inBlock
  rw [List.mem_range] at inBlock
  rw [decide_eq_true_eq, decide_eq_true_eq]
  omega

theorem reachedIn_eq (ring : Ring) (first : Nat) (block : List Sample) :
    ring.reachedIn first block =
      min (first + block.length) (ring.limit.value - 1) - max first ring.readHead.value :=
  countP_between first block.length ring.readHead.value (ring.limit.value - 1)

theorem late_add_early_add_reached (ring : Ring) {first : Nat} {block : List Sample}
    (notBehind : ring.readHead.value ≤ first + block.length) :
    ring.readHead.value - first + ring.earlyIn first block + ring.reachedIn first block =
      block.length := by
  rw [earlyIn_eq, reachedIn_eq]
  omega

theorem mix_placement (ring : Ring) (writeHead : SampleIndex) (block : List Sample) :
    (ring.mix writeHead block).2.2 =
      if writeHead.value + block.length < ring.readHead.value then .whollyLate
      else if ring.limit.value < writeHead.value then .whollyEarly
      else if 0 < ring.earlyIn writeHead.value block then
        .partlyEarly (ring.readHead.value - writeHead.value) (ring.earlyIn writeHead.value block)
      else if 0 < ring.readHead.value - writeHead.value then
        .partlyLate (ring.readHead.value - writeHead.value)
      else .mixed := by
  rcases ring.block_cases writeHead block with behind | beyond | ⟨notBehind, notBeyond⟩
  · rw [mix_of_behind behind, if_pos behind]
  · have limitEq := ring.limit_value
    have readHeadBound := ring.readHead.value_le
    rw [mix_of_beyond beyond, if_neg (by omega), if_pos beyond]
  · have early : (block.drop (ring.readHead.value - writeHead.value)).length -
        (ring.limit.value - 1 - (writeHead.value + (ring.readHead.value - writeHead.value))) =
          ring.earlyIn writeHead.value block := by
      rw [List.length_drop, earlyIn_eq]
      omega
    rw [(mix_of_within notBehind notBeyond).2.2.2, early, if_neg (Nat.not_lt.mpr notBehind),
      if_neg (Nat.not_lt.mpr notBeyond)]

/-- A block is mixed sample by sample: each one in reach is added to the slot of its position, no
two to one slot, and all other slots keep what they held.  The read head stays, and the write head
moves behind the block, up to the last position.  The placement says whether the block was wholly
behind the read head or beyond the lap, and else how many samples were late and how many early; all
others were mixed.  Done run by run in words, mixing leaves no bounds, ends, and does the same. -/
theorem mix_is_exact (ring : Ring) (writeHead : SampleIndex) (block : List Sample) :
    let first := writeHead.value
    let limit := min (ring.readHead.value + ring.capacity) lastIndex
    let reached := fun offset => inReach ring.readHead.value ring.capacity (first + offset) = true
    let late := ring.readHead.value - first
    let early := (List.range block.length).countP fun offset =>
      decide (ring.readHead.value ≤ first + offset ∧ limit - 1 ≤ first + offset)
    let accepted := (List.range block.length).countP fun offset =>
      inReach ring.readHead.value ring.capacity (first + offset)
    let mixed := (ring.mix writeHead block).1
    let behind := (ring.mix writeHead block).2.1
    let placement := (ring.mix writeHead block).2.2
    (∀ offset (inBlock : offset < block.length), reached offset →
      mixed.slots[(first + offset) % ring.capacity]? =
        ring.slots[(first + offset) % ring.capacity]?.map (· + block[offset])) ∧
    (∀ offset other, reached offset → reached other →
      (first + offset) % ring.capacity = (first + other) % ring.capacity → offset = other) ∧
    (∀ slot, (∀ offset, offset < block.length → reached offset →
        (first + offset) % ring.capacity ≠ slot) →
      mixed.slots[slot]? = ring.slots[slot]?) ∧
    mixed.readHead = ring.readHead ∧ mixed.capacity = ring.capacity ∧
    behind.value = min (first + block.length) lastIndex ∧
    placement =
      (if first + block.length < ring.readHead.value then .whollyLate
      else if limit < first then .whollyEarly
      else if 0 < early then .partlyEarly late early
      else if 0 < late then .partlyLate late
      else .mixed) ∧
    (ring.readHead.value ≤ first + block.length → late + early + accepted = block.length) ∧
    (ring.capacity ≤ lastIndex →
      ring.mixByRuns? writeHead block = some (mixed.slots, behind.value, placement)) := by
  intro first limit reached late early accepted mixed behind placement
  refine ⟨fun _ => ring.mix_slot_of_reached writeHead block, ?_, ?_,
    ring.mix_readHead writeHead block, ring.mix_capacity writeHead block, ?_,
    ring.mix_placement writeHead block, ring.late_add_early_add_reached,
    fun countable => ring.mixByRuns?_eq_mix countable writeHead block⟩
  · intro offset other isReached otherReached sameSlot
    obtain ⟨above, below⟩ := lt_lap_of_inReach isReached
    obtain ⟨otherAbove, otherBelow⟩ := lt_lap_of_inReach otherReached
    exact Nat.add_left_cancel (eq_of_same_slot above below otherAbove otherBelow sameSlot)
  · intro slot elsewhere
    exact ring.mix_slot_of_unreached writeHead block elsewhere
  · exact congrArg SampleIndex.value (ring.mix_writeHead writeHead block)

/-- A ring in its second lap: the positions 6 and 7 have the last two slots. -/
def secondLap : Ring where
  slots := #[Binary.ofNat 1, Binary.ofNat 2, Binary.ofNat 3, Binary.ofNat 4]
  readHead := SampleIndex.clamp 6
  slots_pos := by decide

/-- Two samples behind the read head of the second lap, three in reach and three beyond. -/
def straddlingBlock : List Sample :=
  [10, 20, 30, 40, 50, 60, 70, 80].map Binary.ofNat

theorem secondLap_mixes_exactly :
    let writeHead := SampleIndex.clamp 4
    let mixed := (secondLap.mix writeHead straddlingBlock).1
    mixed.slots[0]? = some (Binary.ofNat 1 + Binary.ofNat 50) ∧
      mixed.slots[1]? = some (Binary.ofNat 2) ∧
      (secondLap.mix writeHead straddlingBlock).2.2 = .partlyEarly 2 3 ∧
      secondLap.mixByRuns? writeHead straddlingBlock =
        some (mixed.slots, 12, .partlyEarly 2 3) := by
  intro writeHead mixed
  obtain ⟨added, _, kept, _, _, behind, placement, _, byRuns⟩ :=
    mix_is_exact secondLap writeHead straddlingBlock
  have placementEq : (secondLap.mix writeHead straddlingBlock).2.2 = .partlyEarly 2 3 :=
    placement.trans (by decide)
  have firstSlot : (writeHead.value + 4) % secondLap.capacity = 0 := by decide
  have wrapped := added 4 (by decide) (by decide)
  rw [firstSlot] at wrapped
  refine ⟨wrapped, kept 1 (by decide), placementEq, ?_⟩
  · rw [byRuns (by decide), placementEq, behind]
    rfl

end AudioBus.Ring
