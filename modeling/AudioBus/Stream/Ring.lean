import AudioBus.Binary.Arithmetic
import AudioBus.Quantity

/-!
The ring into which blocks of samples are mixed.

Position `i` of the timeline lives in slot `i % capacity`.  The ring stands for the positions from
the read head up to a full lap further.  Samples are accepted up to the last but one of them, so
that the newest sample never lands in the slot next to the read head.  Consumed slots are left
silent for the next lap.
-/

namespace AudioBus

def silence : Sample := Binary.zero

inductive Placement where
  | mixed
  /-- The first `late` samples were behind the read head, the others were mixed. -/
  | partlyLate (late : Nat)
  /-- The last `early` samples were too far ahead, and the first `late` ones behind the read
  head. -/
  | partlyEarly (late early : Nat)
  | whollyLate
  | whollyEarly
deriving DecidableEq

def Placement.isLossy (placement : Placement) : Bool :=
  decide (placement ≠ .mixed)

structure Ring where
  slots : Array Sample
  readHead : SampleIndex
  slots_pos : 0 < slots.size
deriving DecidableEq

namespace Ring

def silent (capacity : SampleCount) : Ring where
  slots := Array.replicate capacity.count silence
  readHead := SampleIndex.zero
  slots_pos := by
    rw [Array.size_replicate]
    exact capacity.count_pos

def capacity (ring : Ring) : Nat := ring.slots.size

def limit (ring : Ring) : SampleIndex :=
  ring.readHead.advance ring.capacity

def slotAt (ring : Ring) (position : Nat) : Sample :=
  ring.slots.getD (position % ring.capacity) silence

/-! ### Mixing -/

def deposit (slots : Array Sample) (position : Nat) : List Sample → Array Sample
  | [] => slots
  | sample :: rest =>
      deposit (slots.modify (position % slots.size) (· + sample)) (position + 1) rest

theorem deposit_size (slots : Array Sample) (position : Nat) (block : List Sample) :
    (deposit slots position block).size = slots.size := by
  induction block generalizing slots position with
  | nil => rfl
  | cons sample rest inductionHypothesis =>
      rw [deposit, inductionHypothesis, Array.size_modify]

/-- Mixes a block whose first sample belongs at the write head.  The write head moves behind the
block whether or not its samples were accepted, so that the next block stays aligned. -/
def mix (ring : Ring) (writeHead : SampleIndex) (block : List Sample) :
    Ring × SampleIndex × Placement :=
  let behind := writeHead.advance block.length
  if behind.value < ring.readHead.value then (ring, behind, .whollyLate)
  else if ring.limit.value < writeHead.value then (ring, behind, .whollyEarly)
  else
    let late := ring.readHead.value - writeHead.value
    let start := writeHead.value + late
    let onTime := block.drop late
    let room := ring.limit.value - 1 - start
    let early := onTime.length - room
    let mixed :=
      { ring with
        slots := deposit ring.slots start (onTime.take room)
        slots_pos := by
          rw [deposit_size]
          exact ring.slots_pos }
    let placement :=
      if 0 < early then .partlyEarly late early
      else if 0 < late then .partlyLate late
      else .mixed
    (mixed, behind, placement)

/-! ### Consuming -/

/-- Moves `count` samples from the slots, from a position on, to every `stride`-th element of
`out` from `target` on, leaving silence. -/
def moveOut (slots out : Array Sample) (position target stride : Nat) :
    Nat → Array Sample × Array Sample
  | 0 => (slots, out)
  | count + 1 =>
      let slot := position % slots.size
      let sample := slots.getD slot silence
      moveOut (slots.setIfInBounds slot silence) (out.setIfInBounds target sample)
        (position + 1) (target + stride) stride count

theorem moveOut_slots_size (slots out : Array Sample) (position target stride count : Nat) :
    (moveOut slots out position target stride count).1.size = slots.size := by
  induction count generalizing slots out position target with
  | zero => rfl
  | succ count inductionHypothesis =>
      rw [moveOut, inductionHypothesis, Array.size_setIfInBounds]

def hush (slots : Array Sample) (position : Nat) : Nat → Array Sample
  | 0 => slots
  | count + 1 => hush (slots.setIfInBounds (position % slots.size) silence) (position + 1) count

theorem hush_size (slots : Array Sample) (position count : Nat) :
    (hush slots position count).size = slots.size := by
  induction count generalizing slots position with
  | zero => rfl
  | succ count inductionHypothesis =>
      rw [hush, inductionHypothesis, Array.size_setIfInBounds]

/-- How many multiples of `stride` are positions of a list of this length. -/
def stridedLength (length stride : Nat) : Nat :=
  (length + stride - 1) / stride

/-- Moves up to `frames` samples to every `stride`-th element of `out`: no more than `out` has
room for, and no more than one lap.  The last result is how many were moved. -/
def read (ring : Ring) (out : Array Sample) (frames : Nat) (stride : SampleCount) :
    Ring × Array Sample × Nat :=
  let count := min frames (min (stridedLength out.size stride.count) ring.capacity)
  let moved := moveOut ring.slots out ring.readHead.value 0 stride.count count
  let consumed :=
    { ring with
      slots := moved.1
      readHead := ring.readHead.advance count
      slots_pos := by
        rw [moveOut_slots_size]
        exact ring.slots_pos }
  (consumed, moved.2, count)

/-- Moves the read head on by `frames` positions, silencing the slots it leaves behind. -/
def release (ring : Ring) (frames : Nat) : Ring where
  slots := hush ring.slots ring.readHead.value (min frames ring.capacity)
  readHead := ring.readHead.advance frames
  slots_pos := by
    rw [hush_size]
    exact ring.slots_pos

end Ring

end AudioBus
