import AudioBus.Proofs.Codec.RoundTrip

/-!
Frames delimit themselves: a frame is read off the front of any bytes it stands before, and of a
frame that is cut short the reader says that bytes are missing.

A codec built of others needs all of its bytes if those do and are faithful: what it wrote is
always cut within one part, behind parts that are whole.
-/

namespace AudioBus

variable {α β : Type}

theorem cut_append {first second part missing : List UInt8}
    (split : first ++ second = part ++ missing) :
    (∃ cut, first = part ++ cut ∧ cut ≠ []) ∨
      ∃ behind, part = first ++ behind ∧ second = behind ++ missing := by
  rcases List.append_eq_append_iff.mp split with
    ⟨behind, partEq, secondEq⟩ | ⟨cut, firstEq, missingEq⟩
  · exact Or.inr ⟨behind, partEq, secondEq⟩
  · by_cases whole : cut = []
    · rw [whole, List.append_nil] at firstEq
      rw [whole, List.nil_append] at missingEq
      refine Or.inr ⟨[], ?_, ?_⟩
      · rw [List.append_nil, firstEq]
      · rw [List.nil_append, missingEq]
    · exact Or.inl ⟨cut, firstEq, whole⟩

theorem nil_of_cut_single {byte : UInt8} {part missing : List UInt8}
    (split : [byte] = part ++ missing) (isCut : missing ≠ []) : part = [] := by
  rcases List.cons_eq_append_iff.mp split with ⟨partEq, _⟩ | ⟨behind, _, nothing⟩
  · exact partEq
  · exact absurd (List.append_eq_nil_iff.mp nothing.symm).2 isCut

namespace Reader

theorem bind_of_error {reader : Reader α} {next : α → Reader β} {bytes : List UInt8}
    {cause : DecodeError} (isRefused : reader bytes = .error cause) :
    reader.bind next bytes = .error cause := by
  unfold bind
  rw [isRefused]

theorem map_of_error {reader : Reader α} {change : α → β} {bytes : List UInt8}
    {cause : DecodeError} (isRefused : reader bytes = .error cause) :
    reader.map change bytes = .error cause :=
  bind_of_error isRefused

theorem mapOption_of_error {reader : Reader α} {change : α → Option β}
    {otherwise cause : DecodeError} {bytes : List UInt8}
    (isRefused : reader bytes = .error cause) :
    reader.mapOption change otherwise bytes = .error cause :=
  bind_of_error isRefused

theorem many_of_cut {reader : Reader α} {write : α → List UInt8} (values : List α)
    (readsBack : ∀ value ∈ values, ∀ rest, reader (write value ++ rest) = .ok (value, rest))
    (needsAll : ∀ value ∈ values, ∀ part missing, write value = part ++ missing → missing ≠ [] →
      reader part = .error .unexpectedEnd)
    {part missing : List UInt8} (split : values.flatMap write = part ++ missing)
    (isCut : missing ≠ []) : reader.many values.length part = .error .unexpectedEnd := by
  induction values generalizing part with
  | nil =>
      rw [List.flatMap_nil] at split
      exact absurd (List.append_eq_nil_iff.mp split.symm).2 isCut
  | cons first others inductionHypothesis =>
      rw [List.flatMap_cons] at split
      rw [List.length_cons, many]
      rcases cut_append split with ⟨cut, firstEq, firstCut⟩ | ⟨behind, partEq, othersEq⟩
      · exact bind_of_error (needsAll first List.mem_cons_self part cut firstEq firstCut)
      · have othersCut := inductionHypothesis
          (fun value isMember => readsBack value (List.mem_cons_of_mem first isMember))
          (fun value isMember => needsAll value (List.mem_cons_of_mem first isMember)) othersEq
        rw [partEq, bind_of_ok (readsBack first List.mem_cons_self behind)]
        exact map_of_error othersCut

theorem bytes_of_cut {written part missing : List UInt8} (split : written = part ++ missing)
    (isCut : missing ≠ []) : bytes written.length part = .error .unexpectedEnd := by
  have single : written.flatMap (fun byte => [byte]) = part ++ missing := by
    rwa [List.flatMap_singleton']
  refine many_of_cut written (fun _ _ _ => rfl) ?_ single isCut
  intro value _ part missing byteEq isCut
  rw [nil_of_cut_single byteEq isCut]
  rfl

end Reader

/-- Whether a codec says that bytes are missing when a writable value was not written to its
end. -/
def Codec.NeedsAll (codec : Codec α) (writable : α → Prop) : Prop :=
  ∀ value, writable value → ∀ part missing, codec.write value = part ++ missing → missing ≠ [] →
    codec.read part = .error .unexpectedEnd

namespace Codec.NeedsAll

variable {codec : Codec α} {other : Codec β} {writable : α → Prop} {otherWritable : β → Prop}

theorem imap (needsAll : codec.NeedsAll writable) (forth : α → β) (back : β → α) :
    (codec.imap forth back).NeedsAll fun value => writable (back value) :=
  fun value isWritable part missing split isCut =>
    Reader.map_of_error (needsAll (back value) isWritable part missing split isCut)

theorem refine (needsAll : codec.NeedsAll writable) (forth : α → Option β) (back : β → α) :
    (codec.refine forth back).NeedsAll fun value => writable (back value) :=
  fun value isWritable part missing split isCut =>
    Reader.mapOption_of_error (needsAll (back value) isWritable part missing split isCut)

theorem pair (needsAll : codec.NeedsAll writable) (faithful : codec.Faithful writable)
    (otherNeedsAll : other.NeedsAll otherWritable) :
    (codec.pair other).NeedsAll fun value => writable value.1 ∧ otherWritable value.2 := by
  intro value isWritable part missing split isCut
  change codec.read.bind _ part = _
  rcases cut_append split with ⟨cut, firstEq, firstCut⟩ | ⟨behind, partEq, secondEq⟩
  · exact Reader.bind_of_error (needsAll value.1 isWritable.1 part cut firstEq firstCut)
  · rw [partEq, Reader.bind_of_ok (faithful value.1 isWritable.1 behind)]
    exact Reader.map_of_error
      (otherNeedsAll value.2 isWritable.2 behind missing secondEq isCut)

theorem dependent {γ : α → Type} {second : (a : α) → Codec (γ a)}
    {secondWritable : (a : α) → γ a → Prop} (needsAll : codec.NeedsAll writable)
    (faithful : codec.Faithful writable)
    (secondNeedsAll : ∀ a, (second a).NeedsAll (secondWritable a)) :
    (codec.dependent second).NeedsAll
      fun value => writable value.1 ∧ secondWritable value.1 value.2 := by
  intro value isWritable part missing split isCut
  change codec.read.bind _ part = _
  rcases cut_append split with ⟨cut, firstEq, firstCut⟩ | ⟨behind, partEq, secondEq⟩
  · exact Reader.bind_of_error (needsAll value.1 isWritable.1 part cut firstEq firstCut)
  · rw [partEq, Reader.bind_of_ok (faithful value.1 isWritable.1 behind)]
    exact Reader.map_of_error
      (secondNeedsAll value.1 value.2 isWritable.2 behind missing secondEq isCut)

theorem mono (needsAll : codec.NeedsAll writable) {narrower : α → Prop}
    (narrows : ∀ value, narrower value → writable value) : codec.NeedsAll narrower :=
  fun value isNarrower => needsAll value (narrows value isNarrower)

end Codec.NeedsAll

theorem readVarint_of_cut {lastLimit : Nat} (limit : lastLimit < 128) (groups value : Nat)
    (bounded : value < (lastLimit + 1) * 128 ^ groups) {part missing : List UInt8}
    (split : writeVarint value = part ++ missing) (isCut : missing ≠ []) :
    readVarint lastLimit (groups + 1) part = .error .unexpectedEnd := by
  induction groups generalizing value part with
  | zero =>
      have small : value < 128 := by omega
      rw [writeVarint, if_pos small] at split
      rw [nil_of_cut_single split isCut]
      rfl
  | succ groups inductionHypothesis =>
      rw [writeVarint] at split
      by_cases small : value < 128
      · rw [if_pos small] at split
        rw [nil_of_cut_single split isCut]
        rfl
      · rw [if_neg small] at split
        rcases List.cons_eq_append_iff.mp split with ⟨partEq, _⟩ | ⟨behind, partEq, higherEq⟩
        · rw [partEq]
          rfl
        · have byteValue : (UInt8.ofNat (value % 128 + 128)).toNat = value % 128 + 128 := by
            rw [UInt8.toNat_ofNat']
            omega
          have higherBounded : value / 128 < (lastLimit + 1) * 128 ^ groups := by
            apply Nat.div_lt_of_lt_mul
            calc value < (lastLimit + 1) * 128 ^ (groups + 1) := bounded
              _ = 128 * ((lastLimit + 1) * 128 ^ groups) := by ring
          have notSmall : ¬ value % 128 + 128 < 128 := by omega
          rw [partEq, readVarint, Reader.bind_of_ok rfl, byteValue, if_neg notSmall]
          exact Reader.map_of_error (inductionHypothesis (value / 128) higherBounded higherEq)

namespace Codec

theorem varint32_needsAll : varint32.NeedsAll (· < 2 ^ 32) :=
  fun value bounded _ _ split isCut => readVarint_of_cut (by decide) 4 value bounded split isCut

theorem varint64_needsAll : varint64.NeedsAll (· < 2 ^ 64) :=
  fun value bounded _ _ split isCut => readVarint_of_cut (by decide) 9 value bounded split isCut

theorem int32_needsAll : int32.NeedsAll fun _ => True := by
  apply (varint32_needsAll.imap _ _).mono
  intro value _
  exact zigzag_lt value.le_toInt value.toInt_lt

theorem int64_needsAll : int64.NeedsAll fun _ => True := by
  apply (varint64_needsAll.imap _ _).mono
  intro value _
  exact zigzag_lt value.le_toInt value.toInt_lt

theorem littleEndian_of_cut {value count : Nat} {part missing : List UInt8}
    (split : littleEndian value count = part ++ missing) (isCut : missing ≠ []) :
    Reader.bytes count part = .error .unexpectedEnd := by
  have isShort := Reader.bytes_of_cut split isCut
  rwa [littleEndian_length] at isShort

theorem binary32_needsAll : binary32.NeedsAll fun _ => True :=
  fun _ _ _ _ split isCut => Reader.map_of_error (littleEndian_of_cut split isCut)

theorem binary64_needsAll : binary64.NeedsAll fun _ => True :=
  fun _ _ _ _ split isCut => Reader.map_of_error (littleEndian_of_cut split isCut)

theorem bool_needsAll : bool.NeedsAll fun _ => True := by
  intro value _ part missing split isCut
  rw [nil_of_cut_single split isCut]
  rfl

theorem string_needsAll : string.NeedsAll fun text => (bytesOfText text).length < 2 ^ 64 := by
  intro text bounded part missing split isCut
  change varint64.read.bind _ part = _
  rcases cut_append split with ⟨cut, countEq, countCut⟩ | ⟨behind, partEq, bytesEq⟩
  · exact Reader.bind_of_error (varint64_needsAll _ bounded part cut countEq countCut)
  · rw [partEq]
    refine (Reader.bind_of_ok (varint64_faithful _ bounded behind)).trans ?_
    exact Reader.mapOption_of_error (Reader.bytes_of_cut bytesEq isCut)

theorem NeedsAll.list {codec : Codec α} {writable : α → Prop} (needsAll : codec.NeedsAll writable)
    (faithful : codec.Faithful writable) :
    codec.list.NeedsAll fun values =>
      values.length < 2 ^ 64 ∧ ∀ value ∈ values, writable value := by
  intro values isWritable part missing split isCut
  change varint64.read.bind _ part = _
  rcases cut_append split with ⟨cut, countEq, countCut⟩ | ⟨behind, partEq, valuesEq⟩
  · exact Reader.bind_of_error (varint64_needsAll _ isWritable.1 part cut countEq countCut)
  · rw [partEq]
    refine (Reader.bind_of_ok (varint64_faithful _ isWritable.1 behind)).trans ?_
    exact Reader.many_of_cut values
      (fun value isMember => faithful value (isWritable.2 value isMember))
      (fun value isMember => needsAll value (isWritable.2 value isMember)) valuesEq isCut

theorem NeedsAll.everywhere_list {codec : Codec α} (needsAll : codec.NeedsAll fun _ => True)
    (faithful : codec.Faithful fun _ => True) :
    codec.list.NeedsAll fun values => values.length < 2 ^ 64 :=
  (needsAll.list faithful).mono fun _ bounded => ⟨bounded, fun _ _ => trivial⟩

theorem argumentKind_needsAll : argumentKind.NeedsAll fun _ => True := by
  apply (varint32_needsAll.refine _ _).mono
  intro kind _
  cases kind <;> decide

theorem argumentValue_needsAll (kind : ArgumentKind) :
    (argumentValue kind).NeedsAll fun value => (Argument.ofTyped ⟨kind, value⟩).count < 2 ^ 64 := by
  cases kind with
  | int32 => exact int32_needsAll.mono fun _ _ => trivial
  | int64 => exact int64_needsAll.mono fun _ _ => trivial
  | float => exact binary32_needsAll.mono fun _ _ => trivial
  | double => exact binary64_needsAll.mono fun _ _ => trivial
  | time => exact binary64_needsAll.mono fun _ _ => trivial
  | bool => exact bool_needsAll.mono fun _ _ => trivial
  | string => exact string_needsAll
  | symbol => exact string_needsAll
  | int32s => exact int32_needsAll.everywhere_list int32_faithful
  | int64s => exact int64_needsAll.everywhere_list int64_faithful
  | floats => exact binary32_needsAll.everywhere_list binary32_faithful
  | doubles => exact binary64_needsAll.everywhere_list binary64_faithful

theorem argument_needsAll : argument.NeedsAll fun argument => argument.count < 2 ^ 64 := by
  apply ((argumentKind_needsAll.dependent argumentKind_faithful argumentValue_needsAll).imap
    _ _).mono
  intro argument countable
  refine ⟨trivial, ?_⟩
  change (Argument.ofTyped argument.toTyped).count < 2 ^ 64
  rw [Argument.ofTyped_toTyped]
  exact countable

theorem message_needsAll : message.NeedsAll Message.Countable := by
  apply ((binary64_needsAll.pair binary64_faithful
    (string_needsAll.pair string_faithful (argument_needsAll.list argument_faithful))).imap
      _ _).mono
  intro message countable
  exact ⟨trivial, countable.path, countable.arguments, countable.values⟩

end Codec

namespace Message

theorem decode_encode_append {message : Message} (countable : message.Countable)
    (rest : List UInt8) : Message.decode (message.encode ++ rest) = .ok message := by
  have isRead := Codec.message_faithful message countable rest
  unfold Message.decode Message.encode Reader.run
  rw [isRead]
  rfl

theorem decode_of_cut {message : Message} (countable : message.Countable)
    {part missing : List UInt8} (split : message.encode = part ++ missing) (isCut : missing ≠ []) :
    Message.decode part = .error .unexpectedEnd := by
  have isRefused := Codec.message_needsAll message countable part missing split isCut
  unfold Message.decode Reader.run
  rw [isRefused]
  rfl

/-- A frame is read back whatever follows it, and not before it is whole.  So no frame begins
with the frame of another message. -/
theorem frames_delimit_themselves {message : Message} (countable : message.Countable) :
    (∀ rest, Codec.message.read (message.encode ++ rest) = .ok (message, rest) ∧
      Message.decode (message.encode ++ rest) = .ok message) ∧
    (∀ part, part <+: message.encode → part ≠ message.encode →
      Message.decode part = .error .unexpectedEnd) ∧
    ∀ other : Message, other.Countable → other.encode <+: message.encode → other = message := by
  refine ⟨?_, ?_, ?_⟩
  · intro rest
    exact ⟨Codec.message_faithful message countable rest, decode_encode_append countable rest⟩
  · rintro part ⟨missing, whole⟩ different
    apply decode_of_cut countable whole.symm
    intro nothing
    rw [nothing, List.append_nil] at whole
    exact different whole
  · rintro other otherCountable ⟨rest, whole⟩
    have otherRead := decode_encode_append otherCountable rest
    have isRead := decode_encode_append countable []
    rw [List.append_nil, ← whole, otherRead] at isRead
    exact Except.ok.inj isRead

/-- A message with a vector of samples, one of them not a number, and text of several bytes a
character. -/
def mixedArguments : Message where
  timestamp := Binary.ofBits 0x8000000000000000
  path := "mixer/ä"
  arguments :=
    [.int64 (-129), .floats [Binary.ofBits 0x7FC00001, Binary.zero], .symbol "é€", .bool true]

theorem mixedArguments_delimit_themselves :
    mixedArguments.Countable ∧
      Message.decode (mixedArguments.encode ++ [0xFF]) = .ok mixedArguments ∧
      Message.decode (mixedArguments.encode.take 20) = .error .unexpectedEnd := by
  have countable : mixedArguments.Countable := by decide +kernel
  obtain ⟨readBack, refused, _⟩ := frames_delimit_themselves countable
  refine ⟨countable, (readBack [0xFF]).2, refused _ (List.take_prefix 20 _) ?_⟩
  decide +kernel

end Message

end AudioBus
