import AudioBus.Proofs.Ring.Contents

/-!
Mixing by runs of neighbouring slots, in words of 64 bits.

The end of the slots cuts a block into runs, each of which is added to its range of slots at once.
Every sum, difference and range is checked here, so that a result means that none of them left its
bounds and that the runs came to an end.  There always is a result, and it is the one of mixing
sample by sample.
-/

namespace AudioBus

namespace Word

def add? (left right : Nat) : Option Nat :=
  if left + right ≤ lastIndex then some (left + right) else none

def sub? (left right : Nat) : Option Nat :=
  if right ≤ left then some (left - right) else none

def rem? (left right : Nat) : Option Nat :=
  if right = 0 then none else some (left % right)

def addUpToLast (left right : Nat) : Nat :=
  min (left + right) lastIndex

theorem add?_of_le {left right : Nat} (fits : left + right ≤ lastIndex) :
    add? left right = some (left + right) :=
  if_pos fits

theorem sub?_of_le {left right : Nat} (fits : right ≤ left) :
    sub? left right = some (left - right) :=
  if_pos fits

theorem rem?_of_pos {left right : Nat} (isPos : 0 < right) :
    rem? left right = some (left % right) :=
  if_neg (Nat.ne_of_gt isPos)

end Word

namespace Ring

def cut? (block : List Sample) (length : Nat) : Option (List Sample × List Sample) :=
  if length ≤ block.length then some (block.take length, block.drop length) else none

def addAlong (slots : Array Sample) (slot : Nat) : List Sample → Array Sample
  | [] => slots
  | sample :: rest => addAlong (slots.modify slot (· + sample)) (slot + 1) rest

def addRange? (slots : Array Sample) (start finish : Nat) (run : List Sample) :
    Option (Array Sample) :=
  if start ≤ finish ∧ finish ≤ slots.size then
    some (addAlong slots start (run.take (finish - start)))
  else none

structure Mixing where
  slots : Array Sample
  writeHead : Nat
  remaining : List Sample

namespace Mixing

def addRun? (mixing : Mixing) (last : Nat) : Option Mixing := do
  let start ← Word.rem? mixing.writeHead mixing.slots.size
  let ahead ← Word.sub? mixing.slots.size start
  let length := min (min mixing.remaining.length ahead) (last - mixing.writeHead)
  let (run, rest) ← cut? mixing.remaining length
  let finish ← Word.add? start length
  let slots ← addRange? mixing.slots start finish run
  let writeHead ← Word.add? mixing.writeHead length
  some { slots := slots, writeHead := writeHead, remaining := rest }

/-- Adds run after run, until no samples remain or none of them is before `last`.  A run that took
no sample would be followed by runs without end, and gives nothing. -/
def finish? (mixing : Mixing) (last late : Nat) : Option (Array Sample × Nat × Placement) :=
  if mixing.remaining = [] then
    some (mixing.slots, mixing.writeHead, if late = 0 then .mixed else .partlyLate late)
  else if last - mixing.writeHead = 0 then
    let early := mixing.remaining.length
    some (mixing.slots, Word.addUpToLast mixing.writeHead early, .partlyEarly late early)
  else
    match mixing.addRun? last with
    | none => none
    | some next =>
        if next.remaining.length < mixing.remaining.length then next.finish? last late else none
termination_by mixing.remaining.length

end Mixing

/-- Mixes a block run by run.  The results are the slots, the write head and the placement. -/
def mixByRuns? (ring : Ring) (writeHead : SampleIndex) (block : List Sample) :
    Option (Array Sample × Nat × Placement) :=
  if Word.addUpToLast writeHead.value block.length < ring.readHead.value then do
    let behind ← Word.add? writeHead.value block.length
    some (ring.slots, behind, .whollyLate)
  else if ring.limit.value < writeHead.value then
    some (ring.slots, Word.addUpToLast writeHead.value block.length, .whollyEarly)
  else do
    let late := ring.readHead.value - writeHead.value
    let start ← Word.add? writeHead.value late
    let (_, onTime) ← cut? block late
    let last ← Word.sub? ring.limit.value 1
    Mixing.finish? { slots := ring.slots, writeHead := start, remaining := onTime } last late

theorem deposit_append (slots : Array Sample) (position : Nat) (first second : List Sample) :
    deposit slots position (first ++ second) =
      deposit (deposit slots position first) (position + first.length) second := by
  induction first generalizing slots position with
  | nil => rfl
  | cons sample rest inductionHypothesis =>
      rw [List.cons_append, deposit, inductionHypothesis, deposit, List.length_cons,
        Nat.add_assoc position 1, Nat.add_comm 1]

theorem addAlong_eq_deposit (slots : Array Sample) (position : Nat) (run : List Sample)
    (within : position % slots.size + run.length ≤ slots.size) :
    addAlong slots (position % slots.size) run = deposit slots position run := by
  induction run generalizing slots position with
  | nil => rfl
  | cons sample rest inductionHypothesis =>
      rw [addAlong, deposit]
      cases rest with
      | nil => rfl
      | cons next others =>
          rw [List.length_cons, List.length_cons] at within
          have slotEq : (position + 1) % slots.size = position % slots.size + 1 := by
            rw [Nat.add_mod, Nat.mod_eq_of_lt (by omega : 1 < slots.size), Nat.mod_eq_of_lt]
            omega
          have onward := inductionHypothesis
            (slots.modify (position % slots.size) (· + sample)) (position + 1)
            (by rw [Array.size_modify, slotEq, List.length_cons]; omega)
          rw [Array.size_modify, slotEq] at onward
          exact onward

namespace Mixing

theorem addRun?_spec {mixing : Mixing} {last : Nat} (remains : mixing.remaining ≠ [])
    (before : mixing.writeHead < last) (lastFits : last ≤ lastIndex)
    (sizePos : 0 < mixing.slots.size) (sizeFits : mixing.slots.size ≤ lastIndex) :
    ∃ length, 0 < length ∧ length ≤ mixing.remaining.length ∧ mixing.writeHead + length ≤ last ∧
      mixing.addRun? last =
        some
          { slots := deposit mixing.slots mixing.writeHead (mixing.remaining.take length)
            writeHead := mixing.writeHead + length
            remaining := mixing.remaining.drop length } := by
  have someRemain := List.length_pos_iff.mpr remains
  have start := Nat.mod_lt mixing.writeHead sizePos
  refine ⟨min (min mixing.remaining.length
    (mixing.slots.size - mixing.writeHead % mixing.slots.size)) (last - mixing.writeHead),
    by omega, by omega, by omega, ?_⟩
  have ahead := Word.sub?_of_le (Nat.le_of_lt start)
  simp only [addRun?, Word.rem?_of_pos sizePos, ahead, Option.bind_eq_bind, Option.bind_some]
  generalize lengthEq : min (min mixing.remaining.length
    (mixing.slots.size - mixing.writeHead % mixing.slots.size)) (last - mixing.writeHead) = length
  have cutEq : cut? mixing.remaining length =
      some (mixing.remaining.take length, mixing.remaining.drop length) := if_pos (by omega)
  have finish := Word.add?_of_le (by omega :
    mixing.writeHead % mixing.slots.size + length ≤ lastIndex)
  have behind := Word.add?_of_le (by omega : mixing.writeHead + length ≤ lastIndex)
  have taken : (mixing.remaining.take length).length = length := by
    rw [List.length_take]
    omega
  have added : addRange? mixing.slots (mixing.writeHead % mixing.slots.size)
      (mixing.writeHead % mixing.slots.size + length) (mixing.remaining.take length) =
        some (deposit mixing.slots mixing.writeHead (mixing.remaining.take length)) := by
    have whole : (mixing.remaining.take length).take
        (mixing.writeHead % mixing.slots.size + length - mixing.writeHead % mixing.slots.size) =
          mixing.remaining.take length := by
      apply List.take_of_length_le
      omega
    rw [addRange?, if_pos (by omega), whole, addAlong_eq_deposit _ _ _ (by omega)]
  simp only [cutEq, finish, added, behind, Option.bind_some]

theorem finish?_spec (mixing : Mixing) {last : Nat} (late : Nat) (lastFits : last ≤ lastIndex)
    (headFits : mixing.writeHead ≤ lastIndex) (sizePos : 0 < mixing.slots.size)
    (sizeFits : mixing.slots.size ≤ lastIndex) :
    mixing.finish? last late =
      some
        (deposit mixing.slots mixing.writeHead (mixing.remaining.take (last - mixing.writeHead)),
          Word.addUpToLast mixing.writeHead mixing.remaining.length,
          if 0 < mixing.remaining.length - (last - mixing.writeHead) then
            .partlyEarly late (mixing.remaining.length - (last - mixing.writeHead))
          else if 0 < late then .partlyLate late
          else .mixed) := by
  fun_induction finish? mixing last late with
  | case1 mixing noneRemain =>
      have stays : Word.addUpToLast mixing.writeHead 0 = mixing.writeHead :=
        Nat.min_eq_left headFits
      rw [noneRemain, List.take_nil, List.length_nil, Nat.zero_sub, stays,
        if_neg (Nat.lt_irrefl 0)]
      by_cases onTime : late = 0
      · rw [if_pos onTime, if_neg (by omega)]
        rfl
      · rw [if_neg onTime, if_pos (by omega)]
        rfl
  | case2 mixing remains noRoom =>
      have someRemain := List.length_pos_iff.mpr remains
      rw [noRoom, Nat.sub_zero, if_pos someRemain]
      rfl
  | case3 mixing remains room refused =>
      obtain ⟨_, _, _, _, added⟩ := addRun?_spec remains (by omega) lastFits sizePos sizeFits
      rw [refused] at added
      contradiction
  | case4 mixing remains room next added shorter inductionHypothesis =>
      obtain ⟨length, lengthPos, atMost, withinReach, addedEq⟩ :=
        addRun?_spec remains (by omega) lastFits sizePos sizeFits
      rw [addedEq] at added
      cases added
      rw [deposit_size, List.length_drop] at inductionHypothesis
      have taken : (mixing.remaining.take length).length = length := by
        rw [List.length_take]
        omega
      have roomSplit : last - mixing.writeHead =
          length + (last - (mixing.writeHead + length)) := by omega
      have lengthSplit : mixing.remaining.length - length - (last - (mixing.writeHead + length)) =
          mixing.remaining.length - (last - mixing.writeHead) := by omega
      have behind : Word.addUpToLast (mixing.writeHead + length)
          (mixing.remaining.length - length) =
            Word.addUpToLast mixing.writeHead mixing.remaining.length := by
        unfold Word.addUpToLast
        omega
      have headStillFits : mixing.writeHead + length ≤ lastIndex := by omega
      rw [inductionHypothesis headStillFits sizePos sizeFits, lengthSplit, behind, roomSplit,
        List.take_add, deposit_append, taken]
  | case5 mixing remains room next added notShorter =>
      obtain ⟨length, lengthPos, atMost, _, addedEq⟩ :=
        addRun?_spec remains (by omega) lastFits sizePos sizeFits
      rw [addedEq] at added
      cases added
      rw [List.length_drop] at notShorter
      omega

end Mixing

/-- Mixing run by run always comes to an end, within the bounds of words, slots and samples, and
does what mixing sample by sample does. -/
theorem mixByRuns?_eq_mix (ring : Ring) (countable : ring.capacity ≤ lastIndex)
    (writeHead : SampleIndex) (block : List Sample) :
    ring.mixByRuns? writeHead block =
      some ((ring.mix writeHead block).1.slots, (ring.mix writeHead block).2.1.value,
        (ring.mix writeHead block).2.2) := by
  have readHeadBound := ring.readHead.value_le
  have writeHeadBound := writeHead.value_le
  have limitBound := ring.limit.value_le
  have limitEq := ring.limit_value
  have capacityPos := ring.capacity_pos
  have notBefore (notBehind : ring.readHead.value ≤ writeHead.value + block.length) :
      ¬Word.addUpToLast writeHead.value block.length < ring.readHead.value := by
    unfold Word.addUpToLast
    omega
  unfold mixByRuns?
  rcases ring.block_cases writeHead block with behind | beyond | ⟨notBehind, notBeyond⟩
  · have before : Word.addUpToLast writeHead.value block.length < ring.readHead.value := by
      unfold Word.addUpToLast
      omega
    have sum : (writeHead.advance block.length).value = writeHead.value + block.length := by
      rw [SampleIndex.advance_value]
      omega
    rw [if_pos before, Word.add?_of_le (by omega), mix_of_behind behind, sum]
    rfl
  · rw [if_neg (notBefore (by omega)), if_pos beyond, mix_of_beyond beyond]
    rfl
  · obtain ⟨slots, _, behind, placement⟩ := mix_of_within notBehind notBeyond
    have start := Word.add?_of_le (by omega :
      writeHead.value + (ring.readHead.value - writeHead.value) ≤ lastIndex)
    have cutEq : cut? block (ring.readHead.value - writeHead.value) =
        some (block.take (ring.readHead.value - writeHead.value),
          block.drop (ring.readHead.value - writeHead.value)) := if_pos (by omega)
    have last := Word.sub?_of_le (by omega : 1 ≤ ring.limit.value)
    have moved : Word.addUpToLast (writeHead.value + (ring.readHead.value - writeHead.value))
        (block.drop (ring.readHead.value - writeHead.value)).length =
          (writeHead.advance block.length).value := by
      rw [SampleIndex.advance_value, List.length_drop]
      unfold Word.addUpToLast
      omega
    have finished := Mixing.finish?_spec
      { slots := ring.slots
        writeHead := writeHead.value + (ring.readHead.value - writeHead.value)
        remaining := block.drop (ring.readHead.value - writeHead.value) }
      (ring.readHead.value - writeHead.value) (by omega : ring.limit.value - 1 ≤ lastIndex)
      (by dsimp only; omega) ring.slots_pos countable
    rw [if_neg (notBefore notBehind), if_neg (Nat.not_lt.mpr notBeyond), slots, behind, placement,
      ← moved]
    simp only [start, cutEq, last, Option.bind_eq_bind, Option.bind_some]
    exact finished

end Ring

end AudioBus
