import AudioBus.Proofs.Ring.Contents

/-!
Histories of a ring: any calls, one after another.  Whatever was mixed, read and released before,
every slot holds the sum of what was accepted for its position of the present lap.
-/

namespace AudioBus

inductive RingCall where
  | mix (writeHead : SampleIndex) (block : List Sample)
  | read (out : Array Sample) (frames : Nat) (stride : SampleCount)
  | release (frames : Nat)

/-- The samples of a block that a placement leaves, with the positions where they belong when the
first one of the block belongs at `first`. -/
def Placement.kept (first : Nat) (block : List Sample) : Placement → List (Sample × Nat)
  | .mixed => block.zipIdx first
  | .partlyLate late => (block.drop late).zipIdx (first + late)
  | .partlyEarly late early =>
      ((block.drop late).take (block.length - late - early)).zipIdx (first + late)
  | .whollyLate | .whollyEarly => []

namespace Ring

def perform (ring : Ring) : RingCall → Ring
  | .mix writeHead block => (ring.mix writeHead block).1
  | .read out frames stride => (ring.read out frames stride).1
  | .release frames => ring.release frames

def run (ring : Ring) (calls : List RingCall) : Ring :=
  calls.foldl perform ring

/-- The samples that a call reports to have accepted, with their positions. -/
def accepted (ring : Ring) : RingCall → List (Sample × Nat)
  | .mix writeHead block => (ring.mix writeHead block).2.2.kept writeHead.value block
  | .read _ _ _ | .release _ => []

def acceptedIn (ring : Ring) : List RingCall → List (Sample × Nat)
  | [] => []
  | call :: rest => ring.accepted call ++ (ring.perform call).acceptedIn rest

theorem accepted_mix (ring : Ring) (writeHead : SampleIndex) (block : List Sample) :
    ring.accepted (.mix writeHead block) = ring.landing writeHead.value block := by
  rw [accepted]
  rcases ring.block_cases writeHead block with behind | beyond | ⟨notBehind, notBeyond⟩
  · rw [mix_of_behind behind, landing_eq_nil (Or.inl behind)]
    rfl
  · rw [mix_of_beyond beyond, landing_eq_nil (Or.inr beyond)]
    rfl
  · obtain ⟨_, _, _, placement⟩ := mix_of_within notBehind notBeyond
    have start : max ring.readHead.value writeHead.value =
        writeHead.value + (ring.readHead.value - writeHead.value) := by omega
    rw [placement, landing_eq, start, List.length_drop]
    by_cases early : 0 < block.length - (ring.readHead.value - writeHead.value) -
        (ring.limit.value - 1 - (writeHead.value + (ring.readHead.value - writeHead.value)))
    · rw [if_pos early, Placement.kept]
      congr 2
      omega
    · have room : (block.drop (ring.readHead.value - writeHead.value)).length ≤
          ring.limit.value - 1 -
            (writeHead.value + (ring.readHead.value - writeHead.value)) := by
        rw [List.length_drop]
        omega
      rw [if_neg early, List.take_of_length_le room]
      by_cases late : 0 < ring.readHead.value - writeHead.value
      · rw [if_pos late, Placement.kept]
      · have onTime : ring.readHead.value - writeHead.value = 0 := by omega
        rw [if_neg late, Placement.kept, onTime, List.drop_zero, Nat.add_zero]

theorem perform_capacity (ring : Ring) (call : RingCall) :
    (ring.perform call).capacity = ring.capacity := by
  cases call with
  | mix writeHead block => exact ring.mix_capacity writeHead block
  | read out frames stride => exact ring.read_capacity out frames stride
  | release frames => exact ring.release_capacity frames

theorem run_capacity (ring : Ring) (calls : List RingCall) :
    (ring.run calls).capacity = ring.capacity := by
  induction calls generalizing ring with
  | nil => rfl
  | cons call rest inductionHypothesis =>
      exact (inductionHypothesis (ring.perform call)).trans (ring.perform_capacity call)

theorem Carries.perform {ring : Ring} {landed : List (Sample × Nat)}
    (carries : ring.Carries landed) (call : RingCall) :
    (ring.perform call).Carries (landed ++ ring.accepted call) := by
  cases call with
  | mix writeHead block =>
      rw [accepted_mix]
      exact carries.mix writeHead block
  | read out frames stride =>
      rw [accepted, List.append_nil, Ring.perform, read_ring]
      exact carries.release _
  | release frames =>
      rw [accepted, List.append_nil]
      exact carries.release frames

theorem Carries.run {ring : Ring} {landed : List (Sample × Nat)} (carries : ring.Carries landed)
    (calls : List RingCall) : (ring.run calls).Carries (landed ++ ring.acceptedIn calls) := by
  induction calls generalizing ring landed with
  | nil =>
      rw [acceptedIn, List.append_nil]
      exact carries
  | cons call rest inductionHypothesis =>
      rw [acceptedIn, ← List.append_assoc]
      exact inductionHypothesis (carries.perform call)

theorem slots_getElem? (ring : Ring) (position : Nat) :
    ring.slots[position % ring.capacity]? = some (ring.slotAt position) := by
  have inside : position % ring.capacity < ring.slots.size := Nat.mod_lt _ ring.slots_pos
  rw [slotAt, Array.getD_eq_getD_getElem?, Array.getElem?_eq_getElem inside]
  rfl

theorem exists_position_of_slot (ring : Ring) {slot : Nat} (inside : slot < ring.capacity) :
    ∃ position, ring.readHead.value ≤ position ∧
      position < ring.readHead.value + ring.capacity ∧ position % ring.capacity = slot := by
  -- a multiple of the capacity lifts the slot's number above the read head
  have lifted : ring.readHead.value ≤ slot + ring.capacity * ring.readHead.value :=
    Nat.le_trans (Nat.le_mul_of_pos_left _ ring.capacity_pos) (Nat.le_add_left _ _)
  obtain ⟨position, above, below, _, sameSlot⟩ := exists_in_lap ring.capacity_pos lifted
  refine ⟨position, above, below, ?_⟩
  rw [sameSlot, Nat.add_mul_mod_self_left]
  exact Nat.mod_eq_of_lt inside

theorem slots_getElem?_congr {ring other : Ring} (capacity : other.capacity = ring.capacity)
    {slot : Nat}
    (same : ∀ position, ring.readHead.value ≤ position →
      position < ring.readHead.value + ring.capacity → position % ring.capacity = slot →
      other.slotAt position = ring.slotAt position) :
    other.slots[slot]? = ring.slots[slot]? := by
  by_cases inside : slot < ring.capacity
  · obtain ⟨position, above, below, slotNumber⟩ := ring.exists_position_of_slot inside
    have shown := other.slots_getElem? position
    rw [capacity, same position above below slotNumber] at shown
    rw [← slotNumber, shown, ring.slots_getElem?]
  · rw [Array.getElem?_eq_none (Nat.not_lt.mp inside), Array.getElem?_eq_none]
    change other.capacity ≤ slot
    rw [capacity]
    exact Nat.not_lt.mp inside

theorem exists_position (ring : Ring) {sample : Sample} (isSlot : sample ∈ ring.slots) :
    ∃ position, ring.readHead.value ≤ position ∧
      position < ring.readHead.value + ring.capacity ∧ ring.slotAt position = sample := by
  obtain ⟨slot, inside, isSample⟩ := Array.mem_iff_getElem.mp isSlot
  obtain ⟨position, above, below, slotNumber⟩ := ring.exists_position_of_slot inside
  refine ⟨position, above, below, ?_⟩
  rw [slotAt, slotNumber, Array.getD_eq_getD_getElem?, Array.getElem?_eq_getElem inside, isSample]
  rfl

/-- After any calls each slot holds the sum, from left to right, of the samples that were accepted
for its position; the slot next to the read head is silent, and at the end of the timeline all
slots are.  A block's samples are accepted from the read head up to the last but one position of
the lap. -/
theorem run_holds_sums (capacity : SampleCount) (calls : List RingCall) :
    let first := silent capacity
    let ring := first.run calls
    (∀ offset, offset < capacity.count →
      ring.slots[(ring.readHead.value + offset) % capacity.count]? =
        some ((soundsAt (first.acceptedIn calls) (ring.readHead.value + offset)).foldl (· + ·)
          silence)) ∧
    ring.slots[(ring.readHead.value + (capacity.count - 1)) % capacity.count]? = some silence ∧
    (ring.readHead.value = lastIndex → ∀ sample ∈ ring.slots, sample = silence) ∧
    ∀ before writeHead block,
      (first.run before).accepted (.mix writeHead block) =
        (block.zipIdx writeHead.value).filter fun placed =>
          inReach (first.run before).readHead.value capacity.count placed.2 := by
  intro first ring
  have carries : ring.Carries (first.acceptedIn calls) := (silent_carries capacity).run calls
  have size (given : List RingCall) : (first.run given).capacity = capacity.count :=
    (first.run_capacity given).trans Array.size_replicate
  have sums (offset : Nat) (within : offset < capacity.count) :
      ring.slots[(ring.readHead.value + offset) % capacity.count]? =
        some (mixAt (first.acceptedIn calls) (ring.readHead.value + offset)) := by
    have inLap : ring.readHead.value + offset < ring.readHead.value + ring.capacity := by
      rw [size calls]
      exact Nat.add_lt_add_left within _
    rw [← carries.shown _ (Nat.le_add_right _ _) inLap, ← size calls]
    exact ring.slots_getElem? _
  refine ⟨sums, ?_, ?_, ?_⟩
  · have countPos := capacity.count_pos
    rw [sums (capacity.count - 1) (by omega), carries.silent_beyond]
    have limitEq := ring.limit_value
    rw [size calls] at limitEq
    omega
  · intro atEnd sample isSlot
    obtain ⟨position, above, below, isSample⟩ := ring.exists_position isSlot
    rw [← isSample, carries.shown position above below, carries.silent_beyond]
    have limitBound := ring.limit.value_le
    omega
  · intro before writeHead block
    rw [accepted_mix, landing, size before]

/-- Two streams overlap, and the second block of one goes over the end of the slots. -/
def overlapCalls : List RingCall :=
  [.mix SampleIndex.zero [Binary.ofNat 1, Binary.ofNat 2, Binary.ofNat 3],
    .mix (SampleIndex.clamp 2) [Binary.ofNat 4, Binary.ofNat 8],
    .read (Array.replicate 3 silence) 2 SampleCount.one, .release 1,
    .mix (SampleIndex.clamp 3) [Binary.ofNat 16, Binary.ofNat 32, Binary.ofNat 64]]

def fiveSlots : SampleCount where
  count := 5
  count_pos := by decide
  count_lt := by decide

theorem overlapCalls_hold_sums :
    ((silent fiveSlots).run overlapCalls).readHead.value = 3 ∧
      ((silent fiveSlots).run overlapCalls).slots[0]? = some (Binary.ofNat 64) ∧
      ((silent fiveSlots).run overlapCalls).slots[2]? = some silence ∧
      ∀ sample ∈ ((silent fiveSlots).run (overlapCalls ++ [.release lastIndex])).slots,
        sample = silence := by
  have head : ((silent fiveSlots).run overlapCalls).readHead.value = 3 := by decide +kernel
  obtain ⟨sums, next, _, _⟩ := run_holds_sums fiveSlots overlapCalls
  obtain ⟨_, _, atEnd, _⟩ := run_holds_sums fiveSlots (overlapCalls ++ [.release lastIndex])
  have third := sums 2 (by decide)
  rw [head] at third next
  refine ⟨head, third.trans ?_, next, atEnd ?_⟩
  · decide +kernel
  · decide +kernel

end Ring

end AudioBus
