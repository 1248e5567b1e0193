import AudioBus.Proofs.Codec.Locality

/-!
A number has one shortest form in groups, the one that is written for it.

The bytes of a value are a row of fields: numbers in groups, and runs of bytes whose length is
known by then.  Writing a value that was read puts each number in its shortest form and keeps the
rest, so nothing changes exactly when every number was in its shortest form before.
-/

namespace AudioBus

/-- Whether groups are those of a number: only the last has its top bit unset. -/
inductive Spells : List UInt8 → Nat → Prop where
  | last {group : UInt8} (isLast : group.toNat < 128) : Spells [group] group.toNat
  | more {group : UInt8} {groups : List UInt8} {higher : Nat} (isMore : ¬ group.toNat < 128)
      (spells : Spells groups higher) :
      Spells (group :: groups) (group.toNat % 128 + 128 * higher)

theorem writeVarint_spells (value : Nat) : Spells (writeVarint value) value := by
  induction value using writeVarint.induct with
  | case1 value small =>
      have groupValue : (UInt8.ofNat value).toNat = value := by
        rw [UInt8.toNat_ofNat']
        omega
      have isLast : (UInt8.ofNat value).toNat < 128 := by rwa [groupValue]
      have spells := Spells.last isLast
      rw [groupValue] at spells
      rwa [writeVarint, if_pos small]
  | case2 value notSmall inductionHypothesis =>
      have groupValue : (UInt8.ofNat (value % 128 + 128)).toNat = value % 128 + 128 := by
        rw [UInt8.toNat_ofNat']
        omega
      have isMore : ¬ (UInt8.ofNat (value % 128 + 128)).toNat < 128 := by
        rw [groupValue]
        omega
      have together : (value % 128 + 128) % 128 + 128 * (value / 128) = value := by omega
      have spells := Spells.more isMore inductionHypothesis
      rw [groupValue, together] at spells
      rwa [writeVarint, if_neg notSmall]

namespace Spells

variable {groups : List UInt8} {value : Nat}

theorem length_pos (spells : Spells groups value) : 0 < groups.length := by
  cases spells with
  | last isLast => exact Nat.zero_lt_one
  | more isMore spells => exact Nat.succ_pos _

theorem unique (spells : Spells groups value) {other : Nat} (otherwise : Spells groups other) :
    value = other := by
  induction spells generalizing other with
  | last isLast =>
      cases otherwise with
      | last _ => rfl
      | more isMore _ => exact absurd isLast isMore
  | more isMore spells inductionHypothesis =>
      cases otherwise with
      | last isLast => exact absurd isLast isMore
      | more _ otherwise => rw [inductionHypothesis otherwise]

/-- No groups of a number are fewer than those that are written, and as few are the same. -/
theorem length_le_and_eq (spells : Spells groups value) :
    (writeVarint value).length ≤ groups.length ∧
      (groups.length ≤ (writeVarint value).length → groups = writeVarint value) := by
  induction spells with
  | @last group isLast =>
      rw [writeVarint, if_pos isLast, UInt8.ofNat_toNat]
      exact ⟨Nat.le_refl 1, fun _ => rfl⟩
  | @more group groups higher isMore spells inductionHypothesis =>
      have positive := spells.length_pos
      have bounded := group.toNat_lt
      obtain ⟨shorter, sameOf⟩ := inductionHypothesis
      rw [writeVarint]
      split
      case isTrue small =>
        rw [List.length_singleton, List.length_cons]
        constructor
        · exact Nat.succ_le_succ (Nat.zero_le _)
        · intro asFew
          omega
      case isFalse =>
        have lowPart : (group.toNat % 128 + 128 * higher) % 128 + 128 = group.toNat := by omega
        have highPart : (group.toNat % 128 + 128 * higher) / 128 = higher := by omega
        rw [lowPart, highPart, UInt8.ofNat_toNat, List.length_cons, List.length_cons]
        constructor
        · exact Nat.succ_le_succ shorter
        · intro asFew
          rw [← sameOf (Nat.le_of_succ_le_succ asFew)]

end Spells

/-- Whether groups are those of a number, and no fewer would do. -/
def IsShortest (groups : List UInt8) : Prop :=
  ∃ value, Spells groups value ∧ ∀ other, Spells other value → groups.length ≤ other.length

theorem Spells.isShortest_iff {groups : List UInt8} {value : Nat} (spells : Spells groups value) :
    IsShortest groups ↔ writeVarint value = groups := by
  constructor
  · rintro ⟨same, spellsSame, shortest⟩
    rw [spellsSame.unique spells] at shortest
    exact (spells.length_le_and_eq.2 (shortest _ (writeVarint_spells value))).symm
  · intro isWritten
    refine ⟨value, spells, ?_⟩
    intro other otherSpells
    rw [← isWritten]
    exact otherSpells.length_le_and_eq.1

theorem readVarint_spells {lastLimit : Nat} (groups : Nat) {bytes rest : List UInt8} {value : Nat}
    (isRead : readVarint lastLimit (groups + 1) bytes = .ok (value, rest)) :
    value < (lastLimit + 1) * 128 ^ groups ∧
      ∃ consumed, bytes = consumed ++ rest ∧ Spells consumed value := by
  induction groups generalizing bytes value with
  | zero =>
      obtain ⟨group, behind, firstRead, othersRead⟩ := Reader.bind_eq_ok isRead
      have bytesEq := Reader.byte_eq_ok firstRead
      split at othersRead
      case isTrue isLast =>
        split at othersRead
        case isTrue => cases othersRead
        case isFalse withinLimit =>
          cases othersRead
          refine ⟨by omega, [group], bytesEq, Spells.last isLast⟩
      case isFalse => cases othersRead
  | succ groups inductionHypothesis =>
      obtain ⟨group, behind, firstRead, othersRead⟩ := Reader.bind_eq_ok isRead
      have bytesEq := Reader.byte_eq_ok firstRead
      have onePlace :
          (lastLimit + 1) * 128 ^ (groups + 1) = 128 * ((lastLimit + 1) * 128 ^ groups) := by
        ring
      rw [onePlace]
      split at othersRead
      case isTrue isLast =>
        have positive : 0 < (lastLimit + 1) * 128 ^ groups :=
          Nat.mul_pos (Nat.succ_pos lastLimit) (Nat.pow_pos (by decide))
        rw [if_neg (fun isEnd => Nat.succ_ne_zero groups isEnd.1)] at othersRead
        cases othersRead
        exact ⟨by omega, [group], bytesEq, Spells.last isLast⟩
      case isFalse isMore =>
        obtain ⟨higher, higherRead, together⟩ := Reader.map_eq_ok othersRead
        obtain ⟨bounded, consumed, behindEq, spells⟩ := inductionHypothesis higherRead
        rw [← together]
        refine ⟨by omega, group :: consumed, ?_, Spells.more isMore spells⟩
        rw [bytesEq, behindEq]
        rfl

inductive Field where
  | number
  | plain (count : Nat)
deriving DecidableEq

def groupsAt : List UInt8 → List UInt8
  | [] => []
  | group :: behind => if group.toNat < 128 then [group] else group :: groupsAt behind

def Field.bytesAt : Field → List UInt8 → List UInt8
  | .number, bytes => groupsAt bytes
  | .plain count, bytes => bytes.take count

def cutInto : List Field → List UInt8 → List (Field × List UInt8)
  | [], _ => []
  | field :: others, bytes =>
      (field, field.bytesAt bytes) :: cutInto others (bytes.drop (field.bytesAt bytes).length)

def AllShortest (fields : List Field) (bytes : List UInt8) : Prop :=
  ∀ piece ∈ cutInto fields bytes, piece.1 = .number → IsShortest piece.2

theorem groupsAt_append {groups : List UInt8} {value : Nat} (spells : Spells groups value)
    (rest : List UInt8) : groupsAt (groups ++ rest) = groups := by
  induction spells with
  | last isLast => exact if_pos isLast
  | more isMore spells inductionHypothesis =>
      rw [List.cons_append, groupsAt, if_neg isMore, inductionHypothesis]

theorem cutInto_append {field : Field} {piece rest : List UInt8}
    (isPiece : field.bytesAt (piece ++ rest) = piece) (others : List Field) :
    cutInto (field :: others) (piece ++ rest) = (field, piece) :: cutInto others rest := by
  rw [cutInto, isPiece, List.drop_left]

theorem cutInto_number {groups : List UInt8} {value : Nat} (spells : Spells groups value)
    (others : List Field) (rest : List UInt8) :
    cutInto (.number :: others) (groups ++ rest) = (.number, groups) :: cutInto others rest := by
  have isPiece : Field.number.bytesAt (groups ++ rest) = groups := groupsAt_append spells rest
  exact cutInto_append isPiece others

theorem cutInto_plain (piece : List UInt8) (others : List Field) (rest : List UInt8) :
    cutInto (.plain piece.length :: others) (piece ++ rest) =
      (.plain piece.length, piece) :: cutInto others rest := by
  have isPiece : (Field.plain piece.length).bytesAt (piece ++ rest) = piece := List.take_left
  exact cutInto_append isPiece others

theorem allShortest_number {groups : List UInt8} {value : Nat} (spells : Spells groups value)
    (others : List Field) (rest : List UInt8) :
    AllShortest (.number :: others) (groups ++ rest) ↔
      IsShortest groups ∧ AllShortest others rest := by
  unfold AllShortest
  rw [cutInto_number spells, List.forall_mem_cons]
  exact and_congr_left' (forall_prop_of_true rfl)

theorem allShortest_plain (piece : List UInt8) (others : List Field) (rest : List UInt8) :
    AllShortest (.plain piece.length :: others) (piece ++ rest) ↔ AllShortest others rest := by
  unfold AllShortest
  rw [cutInto_plain, List.forall_mem_cons]
  exact and_iff_right fun impossible => Field.noConfusion impossible

/-- Two rows of bytes with the same fields: their numbers are the same, shortest in the second
row, and all other bytes are the same. -/
inductive Shortens : List Field → List UInt8 → List UInt8 → Prop where
  | nil : Shortens [] [] []
  | number {fields : List Field} {groups bytes written : List UInt8} {value : Nat}
      (spells : Spells groups value) (others : Shortens fields bytes written) :
      Shortens (.number :: fields) (groups ++ bytes) (writeVarint value ++ written)
  | plain {fields : List Field} {bytes written : List UInt8} (piece : List UInt8)
      (others : Shortens fields bytes written) :
      Shortens (.plain piece.length :: fields) (piece ++ bytes) (piece ++ written)

namespace Shortens

variable {fields : List Field} {bytes written : List UInt8}

theorem ofNumber {groups : List UInt8} {value : Nat} (spells : Spells groups value) :
    Shortens [.number] groups (writeVarint value) := by
  have single := Shortens.nil.number spells
  rwa [List.append_nil, List.append_nil] at single

theorem ofPlain (piece : List UInt8) : Shortens [.plain piece.length] piece piece := by
  have single := Shortens.nil.plain piece
  rwa [List.append_nil] at single

theorem append (shortens : Shortens fields bytes written) {others : List Field}
    {otherBytes otherWritten : List UInt8}
    (otherShortens : Shortens others otherBytes otherWritten) :
    Shortens (fields ++ others) (bytes ++ otherBytes) (written ++ otherWritten) := by
  induction shortens with
  | nil => exact otherShortens
  | number spells _ inductionHypothesis =>
      rw [List.cons_append, List.append_assoc, List.append_assoc]
      exact inductionHypothesis.number spells
  | plain piece _ inductionHypothesis =>
      rw [List.cons_append, List.append_assoc, List.append_assoc]
      exact inductionHypothesis.plain piece

theorem length_le (shortens : Shortens fields bytes written) : written.length ≤ bytes.length := by
  induction shortens with
  | nil => exact Nat.le_refl 0
  | number spells _ inductionHypothesis =>
      rw [List.length_append, List.length_append]
      exact Nat.add_le_add spells.length_le_and_eq.1 inductionHypothesis
  | plain piece _ inductionHypothesis =>
      rw [List.length_append, List.length_append]
      exact Nat.add_le_add_left inductionHypothesis piece.length

/-- No byte is left over, and none belongs to two fields. -/
theorem flatMap_cutInto (shortens : Shortens fields bytes written) :
    (cutInto fields bytes).flatMap Prod.snd = bytes := by
  induction shortens with
  | nil => rfl
  | number spells _ inductionHypothesis =>
      rw [cutInto_number spells, List.flatMap_cons, inductionHypothesis]
  | plain piece _ inductionHypothesis =>
      rw [cutInto_plain, List.flatMap_cons, inductionHypothesis]

theorem eq_iff (shortens : Shortens fields bytes written) :
    written = bytes ↔ AllShortest fields bytes := by
  induction shortens with
  | nil =>
      refine iff_of_true rfl ?_
      intro piece isMember
      cases isMember
  | number spells others inductionHypothesis =>
      rw [allShortest_number spells, spells.isShortest_iff, ← inductionHypothesis]
      constructor
      · intro same
        -- Neither part got longer, so the parts are as long as before and fall together.
        have fewer := spells.length_le_and_eq.1
        have shorter := others.length_le
        have asLong := congrArg List.length same
        rw [List.length_append, List.length_append] at asLong
        exact List.append_inj same (by omega)
      · rintro ⟨sameGroups, sameOthers⟩
        rw [sameGroups, sameOthers]
  | plain piece others inductionHypothesis =>
      rw [allShortest_plain, ← inductionHypothesis]
      exact List.append_right_inj piece

end Shortens

end AudioBus
