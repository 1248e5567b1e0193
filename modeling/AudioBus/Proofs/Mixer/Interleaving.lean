import AudioBus.Proofs.Mixer.Lead
import AudioBus.Proofs.Ring.Cutting
import AudioBus.Proofs.Table
import Mathlib.Data.List.Count
import Mathlib.Order.Nat

/-!
Interleavings of streams.  What a push does to its own stream depends on where the ring is and not
on what it holds.  So streams that push between two calls of the consumer do not notice one another:
any interleaving that keeps each stream's own order leaves the same mixer, but for the order in
which the samples of a slot are added.
-/

namespace AudioBus

section

variable {κ α : Type} [DecidableEq κ]

/-- What is tagged with a key, in order. -/
def partOf (key : κ) (entries : List (κ × α)) : List α :=
  (entries.filter fun entry => decide (entry.1 = key)).map Prod.snd

theorem partOf_cons_self (key : κ) (value : α) (rest : List (κ × α)) :
    partOf key ((key, value) :: rest) = value :: partOf key rest := by
  rw [partOf, List.filter_cons_of_pos (by simp)]
  rfl

theorem partOf_cons_of_ne {key other : κ} (different : other ≠ key) (value : α)
    (rest : List (κ × α)) : partOf key ((other, value) :: rest) = partOf key rest := by
  rw [partOf, List.filter_cons_of_neg (by simpa using different)]
  rfl

theorem partOf_append (key : κ) (first second : List (κ × α)) :
    partOf key (first ++ second) = partOf key first ++ partOf key second := by
  rw [partOf, List.filter_append, List.map_append]
  rfl

theorem partOf_tagged_of_ne {key other : κ} (different : other ≠ key) (values : List α) :
    partOf key (values.map (Prod.mk other)) = [] := by
  induction values with
  | nil => rfl
  | cons value rest inductionHypothesis =>
      rw [List.map_cons, partOf_cons_of_ne different, inductionHypothesis]

theorem count_partOf [DecidableEq α] (key : κ) (value : α) (entries : List (κ × α)) :
    (partOf key entries).count value = entries.count (key, value) := by
  induction entries with
  | nil => rfl
  | cons entry rest inductionHypothesis =>
      obtain ⟨other, others⟩ := entry
      by_cases same : other = key
      · subst other
        rw [partOf_cons_self, List.count_cons, List.count_cons, inductionHypothesis]
        simp only [beq_iff_eq, Prod.mk.injEq, true_and]
      · rw [partOf_cons_of_ne same, List.count_cons, inductionHypothesis]
        simp only [beq_iff_eq, Prod.mk.injEq, same, false_and, if_false, Nat.add_zero]

theorem perm_of_partOf_eq [DecidableEq α] {entries others : List (κ × α)}
    (sameParts : ∀ key, partOf key entries = partOf key others) : entries.Perm others := by
  rw [List.perm_iff_count]
  rintro ⟨key, value⟩
  rw [← count_partOf, ← count_partOf, sameParts]

end

/-! ### Adding in any order -/

/-- Whether adding samples to what a slot holds is associative and commutative as far as they go,
whichever of them come first. -/
def AddsFreely (held : Sample) (samples : List Sample) : Prop :=
  ∀ earlier first second later, (earlier ++ first :: second :: later).Perm samples →
    let sum := earlier.foldl (· + ·) held
    sum + first + second = sum + (first + second) ∧ first + second = second + first

theorem AddsFreely.cons {held sample : Sample} {samples : List Sample}
    (free : AddsFreely held (sample :: samples)) : AddsFreely (held + sample) samples := by
  intro earlier first second later isOrder
  exact free (sample :: earlier) first second later (isOrder.cons sample)

theorem AddsFreely.perm {held : Sample} {samples others : List Sample}
    (free : AddsFreely held samples) (isOrder : others.Perm samples) : AddsFreely held others := by
  intro earlier first second later isOtherOrder
  exact free earlier first second later (isOtherOrder.trans isOrder)

theorem AddsFreely.foldl_eq {held : Sample} {samples others : List Sample}
    (isOrder : samples.Perm others) (free : AddsFreely held samples) :
    samples.foldl (· + ·) held = others.foldl (· + ·) held := by
  induction isOrder generalizing held with
  | nil => rfl
  | cons sample _ inductionHypothesis =>
      rw [List.foldl_cons, List.foldl_cons]
      exact inductionHypothesis free.cons
  | swap first second rest =>
      obtain ⟨grouped, swapped⟩ := free [] second first rest (List.Perm.refl _)
      obtain ⟨otherGrouped, _⟩ := free [] first second rest (List.Perm.swap second first rest)
      change held + second + first = held + (second + first) at grouped
      change held + first + second = held + (first + second) at otherGrouped
      simp only [List.foldl_cons]
      rw [grouped, otherGrouped, swapped]
  | trans firstOrder _ inductionHypothesis nextHypothesis =>
      exact (inductionHypothesis free).trans (nextHypothesis (free.perm firstOrder.symm))

theorem AddsFreely.pair {held first second : Sample}
    (grouped : held + first + second = held + (first + second))
    (otherGrouped : held + second + first = held + (second + first))
    (swapped : first + second = second + first) : AddsFreely held [first, second] := by
  intro earlier next last later isOrder
  have lengths := isOrder.length_eq
  simp only [List.length_append, List.length_cons, List.length_nil] at lengths
  have noneEarlier : earlier = [] := List.length_eq_zero_iff.mp (by omega)
  have noneLater : later = [] := List.length_eq_zero_iff.mp (by omega)
  subst earlier later
  have isOneOfThem : next ∈ [first, second] := isOrder.subset List.mem_cons_self
  rcases List.mem_cons.mp isOneOfThem with isFirst | isOther
  · subst next
    have isSecond := List.singleton_perm_singleton.mp ((List.perm_cons first).mp isOrder)
    subst last
    exact ⟨grouped, swapped⟩
  · have isSecond := List.mem_singleton.mp isOther
    subst next
    have otherOrder := isOrder.trans (List.Perm.swap second first [])
    have isFirst := List.singleton_perm_singleton.mp ((List.perm_cons second).mp otherOrder)
    subst last
    exact ⟨otherGrouped, swapped.symm⟩

namespace Ring

/-- The samples among those placed that share one slot of so many. -/
def inSlot (capacity slot : Nat) (placed : List (Sample × Nat)) : List Sample :=
  (placed.filter fun sample => decide (sample.2 % capacity = slot)).map Prod.fst

theorem settle_getElem? (slots : Array Sample) (placed : List (Sample × Nat)) (slot : Nat) :
    (settle slots placed)[slot]? =
      slots[slot]?.map fun held => (inSlot slots.size slot placed).foldl (· + ·) held := by
  induction placed generalizing slots with
  | nil => exact Option.map_id'.symm
  | cons sample rest inductionHypothesis =>
      have step := inductionHypothesis (slots.modify (sample.2 % slots.size) (· + sample.1))
      rw [Array.size_modify, Array.getElem?_modify] at step
      refine step.trans ?_
      by_cases here : sample.2 % slots.size = slot
      · rw [if_pos here, inSlot, inSlot, List.filter_cons_of_pos (by simpa using here),
          Option.map_map]
        rfl
      · rw [if_neg here, inSlot, inSlot, List.filter_cons_of_neg (by simpa using here)]

theorem mix_placement_congr {ring other : Ring} (readHead : ring.readHead = other.readHead)
    (capacity : ring.capacity = other.capacity) (writeHead : SampleIndex) (block : List Sample) :
    (ring.mix writeHead block).2.2 = (other.mix writeHead block).2.2 := by
  have limit : ring.limit.value = other.limit.value := by
    rw [limit_value, limit_value, readHead, capacity]
  rw [mix_placement, mix_placement, earlyIn_eq, earlyIn_eq, limit, readHead]

end Ring

namespace Mixer

variable {τ : Type}

/-! ### Pushes one after another -/

/-- Pushes blocks of streams.  The second result is what came of each push, tagged with its
stream. -/
def pushAll (mixer : Mixer τ) : List (StreamId × List Sample) → Mixer τ × List (StreamId × Taken)
  | [] => (mixer, [])
  | (id, block) :: rest =>
      let first := mixer.push id block
      let others := first.1.pushAll rest
      (others.1, (id, first.2) :: others.2)

def landing (mixer : Mixer τ) (id : StreamId) (block : List Sample) : List (Sample × Nat) :=
  mixer.ring.landing (mixer.push id block).2.start.value block

/-- What lands in the ring when blocks of streams are pushed, tagged with the streams. -/
def landings (mixer : Mixer τ) :
    List (StreamId × List Sample) → List (StreamId × Sample × Nat)
  | [] => []
  | (id, block) :: rest =>
      (mixer.landing id block).map (Prod.mk id) ++ (mixer.push id block).1.landings rest

/-- The samples that a slot receives when blocks of streams are pushed, in order. -/
def received (mixer : Mixer τ) (pushes : List (StreamId × List Sample)) (slot : Nat) :
    List Sample :=
  Ring.inSlot mixer.capacity slot ((mixer.landings pushes).map Prod.snd)

theorem push_taken (mixer : Mixer τ) (id : StreamId) (block : List Sample) :
    (mixer.push id block).2 =
      { opened := (mixer.streams.find? id).isNone
        start := (mixer.streams.find? id).getD SampleIndex.zero
        placement :=
          (mixer.ring.mix ((mixer.streams.find? id).getD SampleIndex.zero) block).2.2 } :=
  rfl

theorem push_slots (mixer : Mixer τ) (id : StreamId) (block : List Sample) :
    (mixer.push id block).1.ring.slots =
      Ring.settle mixer.ring.slots (mixer.landing id block) :=
  mixer.ring.mix_slots _ block

theorem push_readHead (mixer : Mixer τ) (id : StreamId) (block : List Sample) :
    (mixer.push id block).1.readHead = mixer.readHead :=
  mixer.ring.mix_readHead _ block

theorem push_capacity (mixer : Mixer τ) (id : StreamId) (block : List Sample) :
    (mixer.push id block).1.capacity = mixer.capacity :=
  mixer.ring.mix_capacity _ block

theorem pushAll_slots (mixer : Mixer τ) (pushes : List (StreamId × List Sample)) :
    (mixer.pushAll pushes).1.ring.slots =
      Ring.settle mixer.ring.slots ((mixer.landings pushes).map Prod.snd) := by
  induction pushes generalizing mixer with
  | nil => rfl
  | cons push rest inductionHypothesis =>
      obtain ⟨id, block⟩ := push
      have untagged : ((mixer.landing id block).map (Prod.mk id)).map Prod.snd =
          mixer.landing id block := by
        rw [List.map_map]
        exact List.map_id' _
      rw [landings, List.map_append, untagged, Ring.settle, List.foldl_append]
      refine (inductionHypothesis (mixer.push id block).1).trans ?_
      rw [push_slots]
      rfl

theorem pushAll_frame (mixer : Mixer τ) (pushes : List (StreamId × List Sample)) :
    (mixer.pushAll pushes).1.readHead = mixer.readHead ∧
      (mixer.pushAll pushes).1.capacity = mixer.capacity ∧
      (mixer.pushAll pushes).1.timeline = mixer.timeline := by
  induction pushes generalizing mixer with
  | nil => exact ⟨rfl, rfl, rfl⟩
  | cons push rest inductionHypothesis =>
      obtain ⟨id, block⟩ := push
      obtain ⟨readHead, capacity, timeline⟩ := inductionHypothesis (mixer.push id block).1
      exact ⟨readHead.trans (mixer.push_readHead id block),
        capacity.trans (mixer.push_capacity id block), timeline⟩

/-! ### One stream among others -/

/-- Whether two mixers are the same to a stream: the lap is, and so is the place of the stream. -/
structure SameTo (id : StreamId) (mixer other : Mixer τ) : Prop where
  index : mixer.streams.find? id = other.streams.find? id
  readHead : mixer.readHead = other.readHead
  capacity : mixer.capacity = other.capacity

namespace SameTo

variable {id : StreamId} {mixer other : Mixer τ}

theorem push_unnoticed (same : SameTo id mixer other) {pushed : StreamId} (different : pushed ≠ id)
    (block : List Sample) : SameTo id (mixer.push pushed block).1 other where
  index := by
    rw [push_streams, Table.find?_insert_of_ne _ (Ne.symm different)]
    exact same.index
  readHead := (mixer.push_readHead pushed block).trans same.readHead
  capacity := (mixer.push_capacity pushed block).trans same.capacity

theorem push (same : SameTo id mixer other) (block : List Sample) :
    SameTo id (mixer.push id block).1 (other.push id block).1 ∧
      (mixer.push id block).2 = (other.push id block).2 ∧
      mixer.landing id block = other.landing id block := by
  have outcome : (mixer.push id block).2 = (other.push id block).2 := by
    rw [push_taken, push_taken, same.index,
      Ring.mix_placement_congr same.readHead same.capacity]
  refine ⟨?_, outcome, ?_⟩
  · constructor
    case index =>
      rw [push_streams, push_streams, Table.find?_insert_self, Table.find?_insert_self, same.index]
    case readHead =>
      rw [push_readHead, push_readHead]
      exact same.readHead
    case capacity =>
      rw [push_capacity, push_capacity]
      exact same.capacity
  · have readHead : mixer.ring.readHead = other.ring.readHead := same.readHead
    have capacity : mixer.ring.capacity = other.ring.capacity := same.capacity
    rw [landing, landing, outcome, Ring.landing, Ring.landing, readHead, capacity]

theorem pushAll (same : SameTo id mixer other) (pushes : List (StreamId × List Sample)) :
    let own := (partOf id pushes).map (Prod.mk id)
    SameTo id (mixer.pushAll pushes).1 (other.pushAll own).1 ∧
      partOf id (mixer.pushAll pushes).2 = partOf id (other.pushAll own).2 ∧
      partOf id (mixer.landings pushes) = partOf id (other.landings own) := by
  induction pushes generalizing mixer other with
  | nil => exact ⟨same, rfl, rfl⟩
  | cons push rest inductionHypothesis =>
      obtain ⟨pushed, block⟩ := push
      by_cases isOwn : pushed = id
      · subst pushed
        obtain ⟨sameAfter, outcome, landed⟩ := same.push block
        obtain ⟨sameLast, outcomes, others⟩ := inductionHypothesis sameAfter
        rw [partOf_cons_self]
        refine ⟨sameLast, ?_, ?_⟩
        · change partOf id ((id, _) :: _) = partOf id ((id, _) :: _)
          rw [partOf_cons_self, partOf_cons_self, outcome, outcomes]
        · change partOf id (_ ++ _) = partOf id (_ ++ _)
          rw [partOf_append, partOf_append, landed, others]
      · obtain ⟨sameLast, outcomes, others⟩ :=
          inductionHypothesis (same.push_unnoticed isOwn block)
        rw [partOf_cons_of_ne isOwn]
        refine ⟨sameLast, ?_, ?_⟩
        · change partOf id ((pushed, _) :: _) = _
          rw [partOf_cons_of_ne isOwn, outcomes]
        · change partOf id (_ ++ _) = _
          rw [partOf_append, partOf_tagged_of_ne isOwn, List.nil_append, others]

end SameTo

theorem available_congr {mixer other : Mixer τ}
    (places : ∀ id, mixer.streams.find? id = other.streams.find? id)
    (readHead : mixer.readHead = other.readHead) (capacity : mixer.capacity = other.capacity) :
    mixer.available = other.available := by
  apply eq_of_forall_le_iff
  intro frames
  simp only [le_available_iff, Table.mem_values_iff, places, readHead, capacity]

/-- Streams that push between two calls of the consumer may be interleaved in any way that keeps the
order of each stream's own blocks.  Every push has the same outcome, every stream ends at the same
place, and the read head, the timeline and what is available are the same.  Every slot receives the
same samples and adds them in the order of the interleaving, so it ends up the same as well where
adding them is associative and commutative. -/
theorem interleavings_agree (mixer : Mixer τ) (pushes others : List (StreamId × List Sample))
    (ownOrder : ∀ id, partOf id pushes = partOf id others) :
    let reached := mixer.pushAll pushes
    let otherReached := mixer.pushAll others
    (∀ id, partOf id reached.2 = partOf id otherReached.2) ∧
    (∀ id, reached.1.streams.find? id = otherReached.1.streams.find? id) ∧
    reached.1.readHead = otherReached.1.readHead ∧
    reached.1.timeline = otherReached.1.timeline ∧
    reached.1.available = otherReached.1.available ∧
    ∀ slot,
      (mixer.received pushes slot).Perm (mixer.received others slot) ∧
      (∀ order,
        (mixer.pushAll order).1.ring.slots[slot]? = mixer.ring.slots[slot]?.map fun held =>
          (mixer.received order slot).foldl (· + ·) held) ∧
      ((∀ held, mixer.ring.slots[slot]? = some held →
          AddsFreely held (mixer.received pushes slot)) →
        reached.1.ring.slots[slot]? = otherReached.1.ring.slots[slot]?) := by
  intro reached otherReached
  have itself (id : StreamId) : SameTo id mixer mixer := ⟨rfl, rfl, rfl⟩
  have alone (id : StreamId) (order : List (StreamId × List Sample)) := (itself id).pushAll order
  have places (id : StreamId) :
      reached.1.streams.find? id = otherReached.1.streams.find? id := by
    rw [(alone id pushes).1.index, (alone id others).1.index, ownOrder]
  have outcomes (id : StreamId) : partOf id reached.2 = partOf id otherReached.2 := by
    rw [(alone id pushes).2.1, (alone id others).2.1, ownOrder]
  have landings (id : StreamId) :
      partOf id (mixer.landings pushes) = partOf id (mixer.landings others) := by
    rw [(alone id pushes).2.2, (alone id others).2.2, ownOrder]
  obtain ⟨readHead, capacity, timeline⟩ := mixer.pushAll_frame pushes
  obtain ⟨otherReadHead, otherCapacity, otherTimeline⟩ := mixer.pushAll_frame others
  refine ⟨outcomes, places, readHead.trans otherReadHead.symm, timeline.trans otherTimeline.symm,
    available_congr places (readHead.trans otherReadHead.symm)
      (capacity.trans otherCapacity.symm), ?_⟩
  intro slot
  have sameSamples : (mixer.received pushes slot).Perm (mixer.received others slot) :=
    (((perm_of_partOf_eq landings).map Prod.snd).filter _).map Prod.fst
  have slots (order : List (StreamId × List Sample)) :
      (mixer.pushAll order).1.ring.slots[slot]? = mixer.ring.slots[slot]?.map fun held =>
        (mixer.received order slot).foldl (· + ·) held := by
    rw [pushAll_slots, Ring.settle_getElem?]
    rfl
  refine ⟨sameSamples, slots, ?_⟩
  intro free
  change (mixer.pushAll pushes).1.ring.slots[slot]? = (mixer.pushAll others).1.ring.slots[slot]?
  rw [slots pushes, slots others]
  cases content : mixer.ring.slots[slot]? with
  | none => rfl
  | some held => exact congrArg some ((free held content).foldl_eq sameSamples)

/-- Both streams begin behind the read head, and one of them reaches beyond the lap. -/
def alternating : List (StreamId × List Sample) :=
  [({ value := 7 }, [1, 2, 3].map Binary.ofNat), ({ value := 9 }, [5, 6].map Binary.ofNat),
    ({ value := 7 }, [4].map Binary.ofNat), ({ value := 9 }, [7, 8, 9, 10].map Binary.ofNat)]

def oneAfterTheOther : List (StreamId × List Sample) :=
  [({ value := 9 }, [5, 6].map Binary.ofNat), ({ value := 9 }, [7, 8, 9, 10].map Binary.ofNat),
    ({ value := 7 }, [1, 2, 3].map Binary.ofNat), ({ value := 7 }, [4].map Binary.ofNat)]

theorem alternating_agree :
    let mixer := fourSlotMixer.gap 2
    (∀ id, partOf id alternating = partOf id oneAfterTheOther) ∧
      (partOf { value := 9 } (mixer.pushAll oneAfterTheOther).2).map Taken.placement =
        [.partlyLate 2, .partlyEarly 0 1] ∧
      partOf { value := 9 } (mixer.pushAll alternating).2 =
        partOf { value := 9 } (mixer.pushAll oneAfterTheOther).2 ∧
      mixer.received alternating 2 = [3, 7].map Binary.ofNat ∧
      mixer.received oneAfterTheOther 2 = [7, 3].map Binary.ofNat ∧
      AddsFreely silence (mixer.received alternating 2) ∧
      (mixer.pushAll alternating).1.ring.slots[2]? =
        (mixer.pushAll oneAfterTheOther).1.ring.slots[2]? := by
  intro mixer
  have ownOrder (id : StreamId) : partOf id alternating = partOf id oneAfterTheOther := by
    by_cases isSeven : id = { value := 7 }
    · subst id
      rfl
    · by_cases isNine : id = { value := 9 }
      · subst id
        rfl
      · simp [partOf, alternating, oneAfterTheOther, Ne.symm isSeven, Ne.symm isNine]
  have received : mixer.received alternating 2 = [3, 7].map Binary.ofNat := by decide +kernel
  have free : AddsFreely silence (mixer.received alternating 2) := by
    rw [received]
    apply AddsFreely.pair
    · decide +kernel
    · decide +kernel
    · decide +kernel
  obtain ⟨outcomes, _, _, _, _, slots⟩ :=
    interleavings_agree mixer alternating oneAfterTheOther ownOrder
  refine ⟨ownOrder, by decide +kernel, outcomes { value := 9 }, received, by decide +kernel, free,
    (slots 2).2.2 ?_⟩
  intro held content
  have isSilent : mixer.ring.slots[2]? = some silence := by decide +kernel
  rw [isSilent, Option.some.injEq] at content
  rw [← content]
  exact free

end Mixer

end AudioBus
