import AudioBus.Proofs.Codec.Truncation

/-!
Readers look no further than they have to.  What a reader makes of a value depends on the bytes of
the value alone, and a reader that refuses bytes, other than for their end, refuses them whatever
follows.
-/

namespace AudioBus

variable {α β : Type}

namespace Reader

theorem bind_cases {reader : Reader α} {next : α → Reader β} {bytes : List UInt8}
    {outcome : Except DecodeError (β × List UInt8)} (done : reader.bind next bytes = outcome) :
    (∃ cause, reader bytes = .error cause ∧ outcome = .error cause) ∨
      ∃ value rest, reader bytes = .ok (value, rest) ∧ next value rest = outcome := by
  unfold bind at done
  cases first : reader bytes with
  | error cause =>
      rw [first] at done
      exact Or.inl ⟨cause, rfl, done.symm⟩
  | ok result =>
      rw [first] at done
      exact Or.inr ⟨result.1, result.2, rfl, done⟩

theorem bind_eq_ok {reader : Reader α} {next : α → Reader β} {bytes rest : List UInt8} {result : β}
    (done : reader.bind next bytes = .ok (result, rest)) :
    ∃ value behind,
      reader bytes = .ok (value, behind) ∧ next value behind = .ok (result, rest) := by
  rcases bind_cases done with ⟨cause, _, impossible⟩ | found
  · cases impossible
  · exact found

theorem map_eq_ok {reader : Reader α} {change : α → β} {bytes rest : List UInt8} {result : β}
    (done : reader.map change bytes = .ok (result, rest)) :
    ∃ value, reader bytes = .ok (value, rest) ∧ change value = result := by
  obtain ⟨value, behind, isRead, changed⟩ := bind_eq_ok done
  cases changed
  exact ⟨value, isRead, rfl⟩

theorem mapOption_eq_ok {reader : Reader α} {change : α → Option β} {cause : DecodeError}
    {bytes rest : List UInt8} {result : β}
    (done : reader.mapOption change cause bytes = .ok (result, rest)) :
    ∃ value, reader bytes = .ok (value, rest) ∧ change value = some result := by
  obtain ⟨value, behind, isRead, changed⟩ := bind_eq_ok done
  cases found : change value with
  | none =>
      rw [found] at changed
      cases changed
  | some kept =>
      rw [found] at changed
      cases changed
      exact ⟨value, isRead, found⟩

theorem byte_eq_ok {bytes rest : List UInt8} {first : UInt8}
    (done : byte bytes = .ok (first, rest)) : bytes = first :: rest := by
  cases bytes with
  | nil => cases done
  | cons _ _ =>
      cases done
      rfl

theorem bytes_eq_ok {count : Nat} {bytes taken rest : List UInt8}
    (done : Reader.bytes count bytes = .ok (taken, rest)) :
    taken.length = count ∧ bytes = taken ++ rest := by
  induction count generalizing bytes taken with
  | zero =>
      cases done
      exact ⟨rfl, rfl⟩
  | succ count inductionHypothesis =>
      obtain ⟨first, behind, firstRead, othersMapped⟩ := bind_eq_ok done
      obtain ⟨others, othersRead, rfl⟩ := map_eq_ok othersMapped
      obtain ⟨counted, behindEq⟩ := inductionHypothesis othersRead
      refine ⟨congrArg Nat.succ counted, ?_⟩
      rw [byte_eq_ok firstRead, behindEq]
      rfl

theorem run_eq_ok {reader : Reader α} {bytes : List UInt8} {value : α} :
    reader.run bytes = .ok value ↔ ∃ rest, reader bytes = .ok (value, rest) := by
  unfold run
  cases reader bytes with
  | error cause =>
      constructor
      · intro impossible
        cases impossible
      · rintro ⟨rest, impossible⟩
        cases impossible
  | ok result =>
      constructor
      · intro isValue
        cases isValue
        exact ⟨result.2, rfl⟩
      · rintro ⟨rest, isResult⟩
        cases isResult
        rfl

theorem run_eq_error {reader : Reader α} {bytes : List UInt8} {cause : DecodeError} :
    reader.run bytes = .error cause ↔ reader bytes = .error cause := by
  unfold run
  cases reader bytes with
  | error other =>
      constructor
      · intro same
        cases same
        rfl
      · intro same
        cases same
        rfl
  | ok result =>
      constructor
      · intro impossible
        cases impossible
      · intro impossible
        cases impossible

/-- Whether a reader looks no further than it has to: a value is read whatever follows its bytes,
and bytes that are refused, other than for their end, are refused whatever follows. -/
structure Local (reader : Reader α) : Prop where
  reads : ∀ {bytes value rest}, reader bytes = .ok (value, rest) →
    ∃ consumed, bytes = consumed ++ rest ∧
      ∀ other, reader (consumed ++ other) = .ok (value, other)
  refuses : ∀ {bytes cause}, reader bytes = .error cause → cause ≠ .unexpectedEnd →
    ∀ more, reader (bytes ++ more) = .error cause

namespace Local

theorem pure (value : α) : (pure value).Local where
  reads := by
    intro bytes other rest done
    cases done
    exact ⟨[], rfl, fun _ => rfl⟩
  refuses := by
    intro bytes cause refused
    cases refused

theorem fail (cause : DecodeError) : (fail cause : Reader α).Local where
  reads := by
    intro bytes value rest done
    cases done
  refuses := by
    intro bytes other refused _ more
    cases refused
    rfl

theorem byte : byte.Local where
  reads := by
    intro bytes value rest done
    exact ⟨[value], byte_eq_ok done, fun _ => rfl⟩
  refuses := by
    intro bytes cause refused notEnd
    cases bytes with
    | nil =>
        cases refused
        exact absurd rfl notEnd
    | cons first behind => cases refused

theorem bind {reader : Reader α} {next : α → Reader β} (isLocal : reader.Local)
    (nextLocal : ∀ value, (next value).Local) : (reader.bind next).Local where
  reads := by
    intro bytes result rest done
    obtain ⟨value, behind, isRead, nextRead⟩ := bind_eq_ok done
    obtain ⟨consumed, bytesEq, reads⟩ := isLocal.reads isRead
    obtain ⟨others, behindEq, nextReads⟩ := (nextLocal value).reads nextRead
    refine ⟨consumed ++ others, ?_, ?_⟩
    · rw [bytesEq, behindEq, List.append_assoc]
    · intro other
      rw [List.append_assoc, bind_of_ok (reads _)]
      exact nextReads other
  refuses := by
    intro bytes cause refused notEnd more
    rcases bind_cases refused with ⟨other, first, same⟩ | ⟨value, behind, isRead, nextRefused⟩
    · cases same
      exact bind_of_error (isLocal.refuses first notEnd more)
    · obtain ⟨consumed, bytesEq, reads⟩ := isLocal.reads isRead
      rw [bytesEq, List.append_assoc, bind_of_ok (reads _)]
      exact (nextLocal value).refuses nextRefused notEnd more

theorem map {reader : Reader α} (isLocal : reader.Local) (change : α → β) :
    (reader.map change).Local :=
  isLocal.bind fun value => pure (change value)

theorem mapOption {reader : Reader α} (isLocal : reader.Local) (change : α → Option β)
    (cause : DecodeError) : (reader.mapOption change cause).Local := by
  apply isLocal.bind
  intro value
  cases change value with
  | none => exact fail cause
  | some result => exact pure result

theorem many {reader : Reader α} (isLocal : reader.Local) (count : Nat) :
    (reader.many count).Local := by
  induction count with
  | zero => exact pure []
  | succ count inductionHypothesis =>
      exact isLocal.bind fun first => inductionHypothesis.map (first :: ·)

theorem bytes (count : Nat) : (bytes count).Local :=
  byte.many count

theorem varint (lastLimit groups : Nat) : (readVarint lastLimit groups).Local := by
  induction groups with
  | zero => exact fail .badVarint
  | succ groups inductionHypothesis =>
      apply byte.bind
      intro group
      split
      case isTrue =>
        split
        case isTrue => exact fail .badVarint
        case isFalse => exact pure group.toNat
      case isFalse => exact inductionHypothesis.map _

end Local

end Reader

namespace Codec

theorem list_local {codec : Codec α} (isLocal : codec.read.Local) : codec.list.read.Local :=
  (Reader.Local.varint 1 10).bind isLocal.many

theorem dependent_local {codec : Codec α} {γ : α → Type} {second : (a : α) → Codec (γ a)}
    (isLocal : codec.read.Local) (secondLocal : ∀ value, (second value).read.Local) :
    (codec.dependent second).read.Local :=
  isLocal.bind fun left => (secondLocal left).map (Sigma.mk left)

theorem pair_local {codec : Codec α} {other : Codec β} (isLocal : codec.read.Local)
    (otherLocal : other.read.Local) : (codec.pair other).read.Local :=
  isLocal.bind fun left => otherLocal.map fun right => (left, right)

theorem string_local : string.read.Local :=
  (Reader.Local.varint 1 10).bind fun count =>
    (Reader.Local.bytes count).mapOption textOfBytes? .badUtf8

theorem argumentValue_local (kind : ArgumentKind) : (argumentValue kind).read.Local := by
  have int32Local : int32.read.Local := (Reader.Local.varint 15 5).map _
  have int64Local : int64.read.Local := (Reader.Local.varint 1 10).map _
  have binary32Local : binary32.read.Local := (Reader.Local.bytes 4).map _
  have binary64Local : binary64.read.Local := (Reader.Local.bytes 8).map _
  cases kind with
  | int32 => exact int32Local
  | int64 => exact int64Local
  | float => exact binary32Local
  | double => exact binary64Local
  | time => exact binary64Local
  | bool => exact Reader.Local.byte.mapOption _ _
  | string => exact string_local
  | symbol => exact string_local
  | int32s => exact list_local int32Local
  | int64s => exact list_local int64Local
  | floats => exact list_local binary32Local
  | doubles => exact list_local binary64Local

theorem message_local : message.read.Local := by
  have kindLocal : argumentKind.read.Local := (Reader.Local.varint 15 5).mapOption _ _
  have argumentLocal : argument.read.Local :=
    (dependent_local kindLocal argumentValue_local).map _
  have timestampLocal : binary64.read.Local := (Reader.Local.bytes 8).map _
  exact (pair_local timestampLocal (pair_local string_local (list_local argumentLocal))).map _

end Codec

end AudioBus
