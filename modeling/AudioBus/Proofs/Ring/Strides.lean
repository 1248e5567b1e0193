import AudioBus.Proofs.Ring.Outcome
import Mathlib.Algebra.Order.Floor.Div
import Mathlib.Data.List.Rotate
import Mathlib.Data.Rat.Floor

/-!
Where a read takes its samples from, and where it puts them.

The slots of a lap lie in two stretches, from the slot of the read head to the last one and from the
first one on; the elements that are filled lie a stride apart.  Reading pairs the slots with the
elements.  Every slot of a pair is silent afterwards and its element holds the sample; nothing else
changes.
-/

namespace AudioBus

def Word.divUp? (left right : Nat) : Option Nat := do
  let remainder ← Word.rem? left right
  if remainder = 0 then some (left / right) else Word.add? (left / right) 1

namespace Ring

/-! ### Reading by laps and strides -/

/-- The slots of one lap: those from the slot of the read head on, then those before it. -/
def lap? (ring : Ring) : Option (List Nat) := do
  let start ← Word.rem? ring.readHead.value ring.capacity
  if start ≤ ring.capacity then
    some ((List.range ring.capacity).drop start ++ (List.range ring.capacity).take start)
  else none

/-- The member of a list behind the first `skip`, and every `stride`-th from there. -/
def everyNth (stride : Nat) : Nat → List Nat → List Nat
  | _, [] => []
  | 0, member :: rest => member :: everyNth stride (stride - 1) rest
  | skip + 1, _ :: rest => everyNth stride skip rest

/-- Gives every slot an element.  A slot that is left without one would lose its sample, and gives
nothing. -/
def pairAll? : List Nat → List Nat → Option (List (Nat × Nat))
  | [], _ => some []
  | _ :: _, [] => none
  | slot :: slots, element :: elements => do
      let pairs ← pairAll? slots elements
      some ((slot, element) :: pairs)

def moveOne? (slots out : Array Sample) (slot element : Nat) :
    Option (Array Sample × Array Sample) := do
  let sample ← slots[slot]?
  if element < out.size then
    some (slots.setIfInBounds slot silence, out.setIfInBounds element sample)
  else none

def moveAll? (slots out : Array Sample) :
    List (Nat × Nat) → Option (Array Sample × Array Sample)
  | [] => some (slots, out)
  | (slot, element) :: rest => do
      let moved ← moveOne? slots out slot element
      moveAll? moved.1 moved.2 rest

/-- Reads by pairing the slots of one lap with the elements that lie a stride apart.  The results
are the slots, the output, the read head and how many samples were moved. -/
def readByStrides? (ring : Ring) (out : Array Sample) (frames : Nat) (stride : SampleCount) :
    Option (Array Sample × Array Sample × Nat × Nat) := do
  let room ← Word.divUp? out.size stride.count
  let count := min (min frames room) ring.capacity
  let lap ← ring.lap?
  let pairs ← pairAll? (lap.take count) (everyNth stride.count 0 (List.range out.size))
  let moved ← moveAll? ring.slots out pairs
  some (moved.1, moved.2, Word.addUpToLast ring.readHead.value count, pairs.length)

theorem stridedLength_le_iff {length stride bound : Nat} (stridePos : 0 < stride) :
    stridedLength length stride ≤ bound ↔ length ≤ stride * bound :=
  ceilDiv_le_iff_le_mul stridePos

theorem stridedLength_eq_ceil (length : Nat) {stride : Nat} (stridePos : 0 < stride) :
    stridedLength length stride = ⌈(length : ℚ) / stride⌉₊ := by
  apply eq_of_forall_ge_iff
  intro bound
  rw [stridedLength_le_iff stridePos, Nat.ceil_le, div_le_iff₀' (Nat.cast_pos.mpr stridePos),
    ← Nat.cast_mul, Nat.cast_le]

theorem stridedLength_eq (length : Nat) {stride : Nat} (stridePos : 0 < stride) :
    stridedLength length stride =
      if length % stride = 0 then length / stride else length / stride + 1 := by
  have remainderBound := Nat.mod_lt length stridePos
  have shape : length + stride - 1 =
      stride * (length / stride) + (length % stride + stride - 1) := by
    have division := Nat.div_add_mod length stride
    omega
  rw [stridedLength, shape, Nat.mul_add_div stridePos]
  by_cases divides : length % stride = 0
  · have noneMore : (length % stride + stride - 1) / stride = 0 := Nat.div_eq_of_lt (by omega)
    rw [if_pos divides, noneMore, Nat.add_zero]
  · have behind : length % stride + stride - 1 = length % stride - 1 + stride := by omega
    have noneMore : (length % stride - 1) / stride = 0 := Nat.div_eq_of_lt (by omega)
    rw [if_neg divides, behind, Nat.add_div_right _ stridePos, noneMore]

theorem divUp?_eq {length stride : Nat} (stridePos : 0 < stride) (fits : length ≤ lastIndex) :
    Word.divUp? length stride = some (stridedLength length stride) := by
  have atMost : stridedLength length stride ≤ length :=
    (stridedLength_le_iff stridePos).mpr (Nat.le_mul_of_pos_left length stridePos)
  rw [stridedLength_eq length stridePos] at atMost ⊢
  simp only [Word.divUp?, Word.rem?_of_pos stridePos, Option.bind_eq_bind, Option.bind_some]
  by_cases divides : length % stride = 0
  · rw [if_pos divides, if_pos divides]
  · rw [if_neg divides] at atMost
    rw [if_neg divides, if_neg divides, Word.add?_of_le (by omega)]

theorem lap?_eq (ring : Ring) :
    ring.lap? = some ((List.range ring.capacity).rotate (ring.readHead.value % ring.capacity)) := by
  have start := Nat.mod_lt ring.readHead.value ring.capacity_pos
  have within : ring.readHead.value % ring.capacity ≤ (List.range ring.capacity).length := by
    rw [List.length_range]
    exact Nat.le_of_lt start
  rw [List.rotate_eq_drop_append_take within]
  simp only [lap?, Word.rem?_of_pos ring.capacity_pos, Option.bind_eq_bind, Option.bind_some]
  exact if_pos (Nat.le_of_lt start)

theorem rotate_range_getElem? {readHead size offset : Nat} (inLap : offset < size) :
    ((List.range size).rotate (readHead % size))[offset]? = some ((readHead + offset) % size) := by
  have slot := Nat.mod_lt (offset + readHead % size) (Nat.zero_lt_of_lt inLap)
  rw [List.getElem?_rotate (by rw [List.length_range]; exact inLap), List.length_range,
    List.getElem?_range slot, Nat.add_mod_mod, Nat.add_comm]

theorem everyNth_getElem? {stride : Nat} (stridePos : 0 < stride) (skip : Nat)
    (members : List Nat) (offset : Nat) :
    (everyNth stride skip members)[offset]? = members[skip + offset * stride]? := by
  induction members generalizing skip offset with
  | nil => rfl
  | cons member rest inductionHypothesis =>
      cases skip with
      | zero =>
          cases offset with
          | zero =>
              rw [Nat.zero_mul]
              rfl
          | succ offset =>
              have behind : 0 + (offset + 1) * stride = stride - 1 + offset * stride + 1 := by
                rw [Nat.succ_mul]
                omega
              rw [everyNth, List.getElem?_cons_succ, inductionHypothesis, behind,
                List.getElem?_cons_succ]
      | succ skip =>
          rw [everyNth, inductionHypothesis, Nat.add_right_comm, List.getElem?_cons_succ]

theorem everyNth_length {stride : Nat} (stridePos : 0 < stride) (members : List Nat) :
    (everyNth stride 0 members).length = stridedLength members.length stride := by
  apply eq_of_forall_ge_iff
  intro bound
  rw [stridedLength_le_iff stridePos, ← List.getElem?_eq_none_iff, everyNth_getElem? stridePos,
    List.getElem?_eq_none_iff, Nat.zero_add, Nat.mul_comm]

theorem pairAll?_eq_zip {slots elements : List Nat} (enough : slots.length ≤ elements.length) :
    pairAll? slots elements = some (slots.zip elements) := by
  induction slots generalizing elements with
  | nil => rfl
  | cons slot slots inductionHypothesis =>
      cases elements with
      | nil => contradiction
      | cons element elements =>
          rw [pairAll?, inductionHypothesis (Nat.le_of_succ_le_succ enough)]
          rfl

def movesFrom (size position target stride count : Nat) : List (Nat × Nat) :=
  (List.range count).map fun offset => ((position + offset) % size, target + offset * stride)

theorem movesFrom_length (size position target stride count : Nat) :
    (movesFrom size position target stride count).length = count := by
  rw [movesFrom, List.length_map, List.length_range]

theorem movesFrom_succ (size position target stride count : Nat) :
    movesFrom size position target stride (count + 1) =
      (position % size, target) ::
        movesFrom size (position + 1) (target + stride) stride count := by
  rw [movesFrom, List.range_succ_eq_map, List.map_cons, List.map_map, Nat.add_zero, Nat.zero_mul,
    Nat.add_zero, movesFrom]
  congr 1
  apply List.map_congr_left
  intro offset _
  have element : target + (offset + 1) * stride = target + stride + offset * stride := by
    rw [Nat.succ_mul]
    omega
  change ((position + (offset + 1)) % size, target + (offset + 1) * stride) = _
  rw [element, Nat.add_assoc position 1, Nat.add_comm 1]

theorem pairAll?_lap {readHead size length stride count : Nat} (stridePos : 0 < stride)
    (room : count ≤ stridedLength length stride) (inLap : count ≤ size) :
    pairAll? (((List.range size).rotate (readHead % size)).take count)
        (everyNth stride 0 (List.range length)) =
      some (movesFrom size readHead 0 stride count) := by
  have slots : (((List.range size).rotate (readHead % size)).take count).length = count := by
    rw [List.length_take, List.length_rotate, List.length_range, Nat.min_eq_left inLap]
  have elements : (everyNth stride 0 (List.range length)).length = stridedLength length stride := by
    rw [everyNth_length stridePos, List.length_range]
  rw [pairAll?_eq_zip (by omega)]
  congr 1
  apply List.ext_getElem?
  intro offset
  by_cases moved : offset < count
  · have inside := stridedLength_spec stridePos (Nat.lt_of_lt_of_le moved room)
    rw [movesFrom, List.getElem?_map, List.getElem?_range moved, Option.map_some,
      List.getElem?_zip_eq_some, List.getElem?_take_of_lt moved,
      rotate_range_getElem? (Nat.lt_of_lt_of_le moved inLap), everyNth_getElem? stridePos,
      Nat.zero_add, List.getElem?_range inside]
    exact ⟨rfl, rfl⟩
  · rw [List.getElem?_eq_none, List.getElem?_eq_none]
    · rw [movesFrom_length]
      exact Nat.not_lt.mp moved
    · rw [List.length_zip, slots]
      omega

theorem moveOne?_eq {slots out : Array Sample} {slot element : Nat} (isSlot : slot < slots.size)
    (isElement : element < out.size) :
    moveOne? slots out slot element =
      some (slots.setIfInBounds slot silence,
        out.setIfInBounds element (slots.getD slot silence)) := by
  have sample : slots[slot]? = some (slots.getD slot silence) := by
    rw [Array.getD_eq_getD_getElem?, Array.getElem?_eq_getElem isSlot]
    rfl
  simp only [moveOne?, sample, Option.bind_eq_bind, Option.bind_some]
  exact if_pos isElement

theorem moveAll?_eq_moveOut (slots out : Array Sample) (position target : Nat) {stride count : Nat}
    (sizePos : 0 < slots.size)
    (inside : ∀ offset, offset < count → target + offset * stride < out.size) :
    moveAll? slots out (movesFrom slots.size position target stride count) =
      some (moveOut slots out position target stride count) := by
  induction count generalizing slots out position target with
  | zero => rfl
  | succ count inductionHypothesis =>
      have isSlot : position % slots.size < slots.size := Nat.mod_lt _ sizePos
      have isElement : target < out.size := by
        have first := inside 0 (Nat.succ_pos count)
        rwa [Nat.zero_mul, Nat.add_zero] at first
      have stillInside (offset : Nat) (moved : offset < count) :
          target + stride + offset * stride < out.size := by
        have later := inside (offset + 1) (Nat.succ_lt_succ moved)
        rw [Nat.succ_mul] at later
        omega
      have rest := inductionHypothesis (slots.setIfInBounds (position % slots.size) silence)
        (out.setIfInBounds target (slots.getD (position % slots.size) silence))
        (position + 1) (target + stride) (by rw [Array.size_setIfInBounds]; exact sizePos)
        (by rw [Array.size_setIfInBounds]; exact stillInside)
      rw [Array.size_setIfInBounds] at rest
      rw [movesFrom_succ, moveAll?, moveOne?_eq isSlot isElement, moveOut]
      exact rest

/-- Reading by pairs leaves no bounds and no slot without an element, and does what moving sample by
sample does. -/
theorem readByStrides?_eq_read (ring : Ring) (out : Array Sample) (frames : Nat)
    (stride : SampleCount) (countable : out.size ≤ lastIndex) :
    ring.readByStrides? out frames stride =
      some ((ring.read out frames stride).1.slots, (ring.read out frames stride).2.1,
        (ring.read out frames stride).1.readHead.value, (ring.read out frames stride).2.2) := by
  simp only [readByStrides?, divUp?_eq stride.count_pos countable, lap?_eq, Option.bind_eq_bind,
    Option.bind_some, Nat.min_assoc]
  rw [← read_count]
  generalize countEq : (ring.read out frames stride).2.2 = count
  rw [read_count] at countEq
  have room : count ≤ stridedLength out.size stride.count := by omega
  have inLap : count ≤ ring.capacity := by omega
  have inside (offset : Nat) (moved : offset < count) : 0 + offset * stride.count < out.size := by
    rw [Nat.zero_add]
    exact stridedLength_spec stride.count_pos (Nat.lt_of_lt_of_le moved room)
  have moves : moveAll? ring.slots out
      (movesFrom ring.capacity ring.readHead.value 0 stride.count count) = _ :=
    moveAll?_eq_moveOut ring.slots out ring.readHead.value 0 ring.slots_pos inside
  simp only [pairAll?_lap stride.count_pos room inLap, moves, Option.bind_some, movesFrom_length,
    read, countEq]
  rfl

/-! ### One read -/

section

variable (ring : Ring) (out : Array Sample) (frames : Nat) (stride : SampleCount)

theorem read_count_eq_ceil :
    (ring.read out frames stride).2.2 =
      min frames (min ⌈(out.size : ℚ) / stride.count⌉₊ ring.capacity) := by
  rw [read_count, stridedLength_eq_ceil _ stride.count_pos]

theorem read_moves {offset : Nat} (moved : offset < (ring.read out frames stride).2.2) :
    offset * stride.count < out.size ∧
      ∃ sample, ring.slots[(ring.readHead.value + offset) % ring.capacity]? = some sample ∧
        (ring.read out frames stride).2.1[offset * stride.count]? = some sample ∧
        (ring.read out frames stride).1.slots[(ring.readHead.value + offset) % ring.capacity]? =
          some silence := by
  have inLap := ring.read_le_capacity out frames stride
  have room : offset < stridedLength out.size stride.count := by
    rw [read_count] at moved
    omega
  refine ⟨stridedLength_spec stride.count_pos room, ring.slotAt (ring.readHead.value + offset),
    ring.slots_getElem? _, ring.read_out out frames stride moved, ?_⟩
  have emptied := (ring.read out frames stride).1.slots_getElem? (ring.readHead.value + offset)
  rw [read_capacity, ring.read_slotAt out frames stride (Nat.le_add_right _ _) (by omega),
    if_pos (by omega)] at emptied
  exact emptied

theorem read_slot_of_ne {slot : Nat}
    (elsewhere : ∀ offset, offset < (ring.read out frames stride).2.2 →
      (ring.readHead.value + offset) % ring.capacity ≠ slot) :
    (ring.read out frames stride).1.slots[slot]? = ring.slots[slot]? := by
  apply slots_getElem?_congr (ring.read_capacity out frames stride)
  intro position above below slotEq
  have ahead : ¬position < ring.readHead.value + (ring.read out frames stride).2.2 := by
    intro left
    apply elsewhere (position - ring.readHead.value) (by omega)
    rw [Nat.add_sub_cancel' above]
    exact slotEq
  rw [ring.read_slotAt out frames stride above below, if_neg ahead]

theorem read_out_of_ne {element : Nat}
    (elsewhere : ∀ offset, offset < (ring.read out frames stride).2.2 →
      offset * stride.count ≠ element) :
    (ring.read out frames stride).2.1[element]? = out[element]? := by
  apply moveOut_out_of_ne
  intro offset moved
  rw [Nat.zero_add]
  exact elsewhere offset moved

/-- A slot that holds another sample after a read was one of those read, and the sample it held has
been handed over. -/
theorem read_delivers {slot : Nat}
    (changed : (ring.read out frames stride).1.slots[slot]? ≠ ring.slots[slot]?) :
    ∃ offset, offset < (ring.read out frames stride).2.2 ∧
      (ring.readHead.value + offset) % ring.capacity = slot ∧
      (ring.read out frames stride).2.1[offset * stride.count]? = ring.slots[slot]? := by
  by_contra undelivered
  apply changed
  apply read_slot_of_ne
  intro offset moved slotEq
  obtain ⟨_, sample, held, handedOver, _⟩ := ring.read_moves out frames stride moved
  rw [slotEq] at held
  exact undelivered ⟨offset, moved, slotEq, handedOver.trans held.symm⟩

end

/-- A read moves as many samples as are asked for, as the output has room for and as the ring has
slots, whichever is least.  Each comes from the slot of its position and goes to the element of its
multiple of the stride, its slot is left as positive zero, and no two frames have one slot.  All
other elements and slots keep what they held, the read head moves on by as many frames, up to the
last position, and no slot changes without its sample being handed over.  Done with the slots of a
lap and the elements a stride apart in pairs, in words, reading leaves no bounds, finds an element
for each slot, and does the same. -/
theorem read_is_exact (ring : Ring) (out : Array Sample) (frames : Nat) (stride : SampleCount) :
    let head := ring.readHead.value
    let count := min frames (min ⌈(out.size : ℚ) / stride.count⌉₊ ring.capacity)
    let emptied := (ring.read out frames stride).1
    let filled := (ring.read out frames stride).2.1
    (ring.read out frames stride).2.2 = count ∧
    (∀ offset, offset < count →
      offset * stride.count < out.size ∧
      ∃ sample, ring.slots[(head + offset) % ring.capacity]? = some sample ∧
        filled[offset * stride.count]? = some sample ∧
        emptied.slots[(head + offset) % ring.capacity]? = some silence) ∧
    silence.toBits = 0 ∧
    (∀ offset other, offset < count → other < count →
      (head + offset) % ring.capacity = (head + other) % ring.capacity → offset = other) ∧
    (∀ element, (∀ offset, offset < count → offset * stride.count ≠ element) →
      filled[element]? = out[element]?) ∧
    (∀ slot, (∀ offset, offset < count → (head + offset) % ring.capacity ≠ slot) →
      emptied.slots[slot]? = ring.slots[slot]?) ∧
    filled.size = out.size ∧ emptied.capacity = ring.capacity ∧
    emptied.readHead.value = min (head + count) lastIndex ∧
    (∀ slot, emptied.slots[slot]? ≠ ring.slots[slot]? →
      ∃ offset, offset < count ∧ (head + offset) % ring.capacity = slot ∧
        filled[offset * stride.count]? = ring.slots[slot]?) ∧
    (out.size ≤ lastIndex →
      ring.readByStrides? out frames stride =
        some (emptied.slots, filled, emptied.readHead.value, count)) := by
  intro head count emptied filled
  have counted : (ring.read out frames stride).2.2 = count :=
    ring.read_count_eq_ceil out frames stride
  have inLap := ring.read_le_capacity out frames stride
  rw [← counted]
  refine ⟨rfl, fun offset => ring.read_moves out frames stride, rfl, ?_,
    fun element => ring.read_out_of_ne out frames stride,
    fun slot => ring.read_slot_of_ne out frames stride, moveOut_out_size _ _ _ _ _ _,
    ring.read_capacity out frames stride, rfl, fun slot => ring.read_delivers out frames stride,
    ring.readByStrides?_eq_read out frames stride⟩
  intro offset other moved otherMoved sameSlot
  exact Nat.add_left_cancel
    (eq_of_same_slot (Nat.le_add_right head offset) (by omega) (Nat.le_add_right head other)
      (by omega) sameSlot)

def everySeventh : SampleCount where
  count := 7
  count_pos := by decide
  count_lt := by decide

/-- Fifteen elements have room for three frames, the last of them from the first slot. -/
theorem secondLap_reads_exactly :
    let out := Array.replicate 15 (Binary.ofNat 9)
    let emptied := (secondLap.read out 8 everySeventh).1
    let filled := (secondLap.read out 8 everySeventh).2.1
    (secondLap.read out 8 everySeventh).2.2 = 3 ∧
      filled[14]? = some (Binary.ofNat 1) ∧ emptied.slots[0]? = some silence ∧
      filled[13]? = some (Binary.ofNat 9) ∧
      emptied.slots[1]? = some (Binary.ofNat 2) ∧ emptied.readHead.value = 9 ∧
      secondLap.readByStrides? out 8 everySeventh = some (emptied.slots, filled, 9, 3) := by
  intro out emptied filled
  have three : min 8 (min ⌈(out.size : ℚ) / everySeventh.count⌉₊ secondLap.capacity) = 3 := by
    rw [← stridedLength_eq_ceil _ everySeventh.count_pos]
    decide
  obtain ⟨count, moves, _, _, keptElement, keptSlot, _, _, readHead, _, byStrides⟩ :=
    read_is_exact secondLap out 8 everySeventh
  rw [three] at count moves keptElement keptSlot readHead byStrides
  obtain ⟨_, sample, held, handedOver, silent⟩ := moves 2 (by decide)
  refine ⟨count, handedOver.trans held.symm, silent, keptElement 13 (by decide),
    keptSlot 1 (by decide), readHead, ?_⟩
  rw [byStrides (by decide), readHead]
  rfl

end Ring

end AudioBus
