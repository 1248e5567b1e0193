import AudioBus.Proofs.Ring.Outcome

/-!
Blocks in pieces.  A ring takes the pieces of a block, each behind the last, as it takes the block:
every sample has its position however the block is cut, and the position alone decides what becomes
of the sample.
-/

namespace AudioBus

def Placement.lateOf (length : Nat) : Placement → Nat
  | .mixed | .whollyEarly => 0
  | .partlyLate late | .partlyEarly late _ => late
  | .whollyLate => length

def Placement.earlyOf (length : Nat) : Placement → Nat
  | .mixed | .partlyLate _ | .whollyLate => 0
  | .partlyEarly _ early => early
  | .whollyEarly => length

theorem Placement.counts_of_within (late early length : Nat) :
    (if 0 < early then Placement.partlyEarly late early
      else if 0 < late then .partlyLate late
      else .mixed).lateOf length = late ∧
    (if 0 < early then Placement.partlyEarly late early
      else if 0 < late then .partlyLate late
      else .mixed).earlyOf length = early := by
  by_cases someEarly : 0 < early
  · rw [if_pos someEarly]
    exact ⟨rfl, rfl⟩
  · rw [if_neg someEarly, Nat.eq_zero_of_not_pos someEarly]
    by_cases someLate : 0 < late
    · rw [if_pos someLate]
      exact ⟨rfl, rfl⟩
    · rw [if_neg someLate, Nat.eq_zero_of_not_pos someLate]
      exact ⟨rfl, rfl⟩

namespace Ring

theorem eq_of_slots {ring other : Ring} (slots : ring.slots = other.slots)
    (readHead : ring.readHead = other.readHead) : ring = other := by
  cases ring
  cases other
  cases slots
  cases readHead
  rfl

def settle (slots : Array Sample) (placed : List (Sample × Nat)) : Array Sample :=
  placed.foldl (fun slots sample => slots.modify (sample.2 % slots.size) (· + sample.1)) slots

theorem deposit_eq_settle (slots : Array Sample) (position : Nat) (block : List Sample) :
    deposit slots position block = settle slots (block.zipIdx position) := by
  induction block generalizing slots position with
  | nil => rfl
  | cons sample rest inductionHypothesis =>
      rw [deposit, inductionHypothesis]
      rfl

theorem mix_slots (ring : Ring) (writeHead : SampleIndex) (block : List Sample) :
    (ring.mix writeHead block).1.slots =
      settle ring.slots (ring.landing writeHead.value block) := by
  rcases ring.block_cases writeHead block with behind | beyond | ⟨notBehind, notBeyond⟩
  · rw [mix_of_behind behind, landing_eq_nil (Or.inl behind)]
    rfl
  · rw [mix_of_beyond beyond, landing_eq_nil (Or.inr beyond)]
    rfl
  · have start : writeHead.value + (ring.readHead.value - writeHead.value) =
        max ring.readHead.value writeHead.value := by omega
    rw [(mix_of_within notBehind notBeyond).1, deposit_eq_settle, landing_eq, start]

theorem landing_append (ring : Ring) (first : Nat) (block other : List Sample) :
    ring.landing first (block ++ other) =
      ring.landing first block ++ ring.landing (first + block.length) other := by
  unfold landing
  rw [List.zipIdx_append, List.filter_append]

theorem landing_mix (ring : Ring) (writeHead : SampleIndex) (block : List Sample) :
    (ring.mix writeHead block).1.landing = ring.landing := by
  funext first other
  unfold landing
  rw [mix_readHead, mix_capacity]

theorem mix_lateOf (ring : Ring) (writeHead : SampleIndex) (block : List Sample) :
    (ring.mix writeHead block).2.2.lateOf block.length =
      min block.length (ring.readHead.value - writeHead.value) := by
  have limitEq := ring.limit_value
  have readHeadBound := ring.readHead.value_le
  rcases ring.block_cases writeHead block with behind | beyond | ⟨notBehind, notBeyond⟩
  · rw [mix_of_behind behind, Placement.lateOf]
    omega
  · rw [mix_of_beyond beyond, Placement.lateOf]
    omega
  · rw [(mix_of_within notBehind notBeyond).2.2.2, (Placement.counts_of_within _ _ _).1]
    omega

theorem mix_earlyOf (ring : Ring) (writeHead : SampleIndex) (block : List Sample) :
    (ring.mix writeHead block).2.2.earlyOf block.length = ring.earlyIn writeHead.value block := by
  have limitEq := ring.limit_value
  have readHeadBound := ring.readHead.value_le
  rw [earlyIn_eq]
  rcases ring.block_cases writeHead block with behind | beyond | ⟨notBehind, notBeyond⟩
  · rw [mix_of_behind behind, Placement.earlyOf]
    omega
  · rw [mix_of_beyond beyond, Placement.earlyOf]
    omega
  · rw [(mix_of_within notBehind notBeyond).2.2.2, (Placement.counts_of_within _ _ _).2,
      List.length_drop]
    omega

theorem mix_nil (ring : Ring) (writeHead : SampleIndex) :
    (ring.mix writeHead []).1 = ring ∧ (ring.mix writeHead []).2.1 = writeHead := by
  constructor
  · apply eq_of_slots
    · rw [mix_slots]
      rfl
    · exact ring.mix_readHead writeHead []
  · rw [mix_writeHead]
    exact writeHead.advance_zero

theorem mix_append (ring : Ring) (writeHead : SampleIndex) (piece rest : List Sample) :
    let first := ring.mix writeHead piece
    let second := first.1.mix first.2.1 rest
    let whole := ring.mix writeHead (piece ++ rest)
    second.1 = whole.1 ∧ second.2.1 = whole.2.1 := by
  intro first second whole
  constructor
  · apply eq_of_slots
    · change (first.1.mix first.2.1 rest).1.slots = _
      rw [mix_slots, mix_slots, landing_mix, mix_slots, mix_writeHead, landing_append, settle,
        settle, settle, List.foldl_append]
      rw [SampleIndex.advance, landing_clamp]
    · change (first.1.mix first.2.1 rest).1.readHead = _
      rw [mix_readHead, mix_readHead, mix_readHead]
  · change (first.1.mix first.2.1 rest).2.1 = _
    rw [mix_writeHead, mix_writeHead, mix_writeHead, SampleIndex.advance_advance,
      List.length_append]

theorem mix_append_counts (ring : Ring) (writeHead : SampleIndex) (piece rest : List Sample) :
    let first := ring.mix writeHead piece
    let second := first.1.mix first.2.1 rest
    let whole := ring.mix writeHead (piece ++ rest)
    first.2.2.lateOf piece.length + second.2.2.lateOf rest.length =
        whole.2.2.lateOf (piece ++ rest).length ∧
      first.2.2.earlyOf piece.length + second.2.2.earlyOf rest.length =
        whole.2.2.earlyOf (piece ++ rest).length := by
  intro first second whole
  have readHeadBound := ring.readHead.value_le
  have limitBound := ring.limit.value_le
  have limitEq := ring.limit_value
  have behind : first.2.1.value = min (writeHead.value + piece.length) lastIndex :=
    congrArg SampleIndex.value (ring.mix_writeHead writeHead piece)
  have sameReadHead : first.1.readHead = ring.readHead := ring.mix_readHead writeHead piece
  have sameLimit : first.1.limit.value = ring.limit.value := by
    rw [limit_value, limit_value, sameReadHead, ring.mix_capacity]
  constructor
  · rw [mix_lateOf, mix_lateOf, mix_lateOf, sameReadHead, behind, List.length_append]
    omega
  · rw [mix_earlyOf, mix_earlyOf, mix_earlyOf, earlyIn_eq, earlyIn_eq, earlyIn_eq, sameReadHead,
      sameLimit, behind, List.length_append]
    omega

/-- Mixes pieces one behind the other.  The last result is where each piece was placed. -/
def mixAll (ring : Ring) (writeHead : SampleIndex) :
    List (List Sample) → Ring × SampleIndex × List Placement
  | [] => (ring, writeHead, [])
  | piece :: rest =>
      let first := ring.mix writeHead piece
      let others := first.1.mixAll first.2.1 rest
      (others.1, others.2.1, first.2.2 :: others.2.2)

/-- The samples that placements drop of their pieces, when each drops as many as `dropped` says. -/
def droppedIn (dropped : Nat → Placement → Nat) : List (List Sample) → List Placement → Nat
  | piece :: pieces, placement :: placements =>
      dropped piece.length placement + droppedIn dropped pieces placements
  | _, _ => 0

/-- However a block is cut, the ring and the write head are the same in the end, and as many samples
are late and early. -/
theorem mixAll_flatten (ring : Ring) (writeHead : SampleIndex) (pieces : List (List Sample)) :
    let cut := ring.mixAll writeHead pieces
    let whole := ring.mix writeHead pieces.flatten
    cut.1 = whole.1 ∧ cut.2.1 = whole.2.1 ∧
      droppedIn Placement.lateOf pieces cut.2.2 = whole.2.2.lateOf pieces.flatten.length ∧
      droppedIn Placement.earlyOf pieces cut.2.2 = whole.2.2.earlyOf pieces.flatten.length := by
  induction pieces generalizing ring writeHead with
  | nil =>
      obtain ⟨same, sameHead⟩ := ring.mix_nil writeHead
      refine ⟨same.symm, sameHead.symm, ?_, ?_⟩
      · rw [List.flatten_nil, mix_lateOf]
        exact (Nat.zero_min _).symm
      · rw [List.flatten_nil, mix_earlyOf]
        rfl
  | cons piece rest inductionHypothesis =>
      intro cut whole
      obtain ⟨sameRing, sameHead, late, early⟩ :=
        inductionHypothesis (ring.mix writeHead piece).1 (ring.mix writeHead piece).2.1
      obtain ⟨appended, appendedHead⟩ := ring.mix_append writeHead piece rest.flatten
      obtain ⟨lateSum, earlySum⟩ := ring.mix_append_counts writeHead piece rest.flatten
      refine ⟨sameRing.trans appended, sameHead.trans appendedHead, ?_, ?_⟩
      · exact (congrArg (_ + ·) late).trans lateSum
      · exact (congrArg (_ + ·) early).trans earlySum

end Ring

end AudioBus
