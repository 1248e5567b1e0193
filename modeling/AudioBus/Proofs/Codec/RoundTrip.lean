import AudioBus.Codec.Message
import Mathlib.Data.List.Basic
import Mathlib.Tactic.Ring

/-!
What a codec writes it reads back, whatever follows.

Each codec built of others is faithful if those are.  Counts travel as numbers of 64 bits, so a
text or a list must not be longer than these can tell.
-/

namespace AudioBus

variable {α β : Type}

namespace Reader

theorem bind_of_ok {reader : Reader α} {next : α → Reader β} {bytes rest : List UInt8} {value : α}
    (isRead : reader bytes = .ok (value, rest)) : reader.bind next bytes = next value rest := by
  unfold bind
  rw [isRead]

theorem map_of_ok {reader : Reader α} {change : α → β} {bytes rest : List UInt8} {value : α}
    (isRead : reader bytes = .ok (value, rest)) :
    reader.map change bytes = .ok (change value, rest) :=
  bind_of_ok isRead

theorem mapOption_of_ok {reader : Reader α} {change : α → Option β} {cause : DecodeError}
    {bytes rest : List UInt8} {value : α} {result : β} (isRead : reader bytes = .ok (value, rest))
    (changed : change value = some result) :
    reader.mapOption change cause bytes = .ok (result, rest) := by
  unfold mapOption
  rw [bind_of_ok isRead, changed]
  rfl

theorem many_flatMap {reader : Reader α} {write : α → List UInt8} (values : List α)
    (readsBack : ∀ value ∈ values, ∀ rest, reader (write value ++ rest) = .ok (value, rest))
    (rest : List UInt8) :
    reader.many values.length (values.flatMap write ++ rest) = .ok (values, rest) := by
  induction values with
  | nil => rfl
  | cons first others inductionHypothesis =>
      have firstBack := readsBack first List.mem_cons_self
      have othersBack := inductionHypothesis
        fun value isMember => readsBack value (List.mem_cons_of_mem first isMember)
      rw [List.flatMap_cons, List.append_assoc, List.length_cons, many,
        bind_of_ok (firstBack _), map_of_ok othersBack]

theorem bytes_append (written rest : List UInt8) :
    bytes written.length (written ++ rest) = .ok (written, rest) := by
  have single :
      byte.many written.length (written.flatMap (fun byte => [byte]) ++ rest) =
        .ok (written, rest) := many_flatMap written (fun _ _ _ => rfl) rest
  rwa [List.flatMap_singleton', ← bytes] at single

end Reader

/-- Whether a codec reads the writable values back, and leaves what follows them. -/
def Codec.Faithful (codec : Codec α) (writable : α → Prop) : Prop :=
  ∀ value, writable value → ∀ rest, codec.read (codec.write value ++ rest) = .ok (value, rest)

namespace Codec.Faithful

variable {codec : Codec α} {other : Codec β} {writable : α → Prop} {otherWritable : β → Prop}

theorem imap (faithful : codec.Faithful writable) {forth : α → β} {back : β → α}
    (inverse : ∀ value, forth (back value) = value) :
    (codec.imap forth back).Faithful fun value => writable (back value) := by
  intro value isWritable rest
  have isRead : codec.read.map forth (codec.write (back value) ++ rest) =
      .ok (forth (back value), rest) :=
    Reader.map_of_ok (faithful (back value) isWritable rest)
  rwa [inverse] at isRead

theorem refine (faithful : codec.Faithful writable) {forth : α → Option β} {back : β → α}
    (inverse : ∀ value, forth (back value) = some value) :
    (codec.refine forth back).Faithful fun value => writable (back value) :=
  fun value isWritable rest =>
    Reader.mapOption_of_ok (faithful (back value) isWritable rest) (inverse value)

theorem pair (faithful : codec.Faithful writable) (otherFaithful : other.Faithful otherWritable) :
    (codec.pair other).Faithful fun value => writable value.1 ∧ otherWritable value.2 := by
  intro value isWritable rest
  change (codec.read.bind _) ((codec.write value.1 ++ other.write value.2) ++ rest) = _
  rw [List.append_assoc, Reader.bind_of_ok (faithful value.1 isWritable.1 _)]
  exact Reader.map_of_ok (otherFaithful value.2 isWritable.2 rest)

theorem dependent {γ : α → Type} {second : (a : α) → Codec (γ a)}
    {secondWritable : (a : α) → γ a → Prop} (faithful : codec.Faithful writable)
    (secondFaithful : ∀ a, (second a).Faithful (secondWritable a)) :
    (codec.dependent second).Faithful
      fun value => writable value.1 ∧ secondWritable value.1 value.2 := by
  intro value isWritable rest
  change (codec.read.bind _) ((codec.write value.1 ++ (second value.1).write value.2) ++ rest) = _
  rw [List.append_assoc, Reader.bind_of_ok (faithful value.1 isWritable.1 _)]
  exact Reader.map_of_ok (secondFaithful value.1 value.2 isWritable.2 rest)

theorem mono (faithful : codec.Faithful writable) {narrower : α → Prop}
    (narrows : ∀ value, narrower value → writable value) : codec.Faithful narrower :=
  fun value isNarrower => faithful value (narrows value isNarrower)

end Codec.Faithful

/-- The groups of a number are read back if there are not more than asked for, and the last of
that many is not above its limit. -/
theorem readVarint_writeVarint {lastLimit : Nat} (limit : lastLimit < 128) (groups value : Nat)
    (bounded : value < (lastLimit + 1) * 128 ^ groups) (rest : List UInt8) :
    readVarint lastLimit (groups + 1) (writeVarint value ++ rest) = .ok (value, rest) := by
  induction groups generalizing value with
  | zero =>
      have small : value < 128 := by omega
      have byteValue : (UInt8.ofNat value).toNat = value := by
        rw [UInt8.toNat_ofNat']
        omega
      have withinLimit : ¬ (0 = 0 ∧ lastLimit < value) := by omega
      rw [writeVarint, if_pos small, readVarint, Reader.bind_of_ok rfl, byteValue, if_pos small,
        if_neg withinLimit]
      rfl
  | succ groups inductionHypothesis =>
      by_cases small : value < 128
      · have byteValue : (UInt8.ofNat value).toNat = value := by
          rw [UInt8.toNat_ofNat']
          omega
        have notLast : ¬ (groups + 1 = 0 ∧ lastLimit < value) := by omega
        rw [writeVarint, if_pos small, readVarint, Reader.bind_of_ok rfl, byteValue,
          if_pos small, if_neg notLast]
        rfl
      · have byteValue : (UInt8.ofNat (value % 128 + 128)).toNat = value % 128 + 128 := by
          rw [UInt8.toNat_ofNat']
          omega
        have higherBounded : value / 128 < (lastLimit + 1) * 128 ^ groups := by
          apply Nat.div_lt_of_lt_mul
          calc value < (lastLimit + 1) * 128 ^ (groups + 1) := bounded
            _ = 128 * ((lastLimit + 1) * 128 ^ groups) := by ring
        have higher := inductionHypothesis (value / 128) higherBounded
        have notSmall : ¬ value % 128 + 128 < 128 := by omega
        have together : (value % 128 + 128) % 128 + 128 * (value / 128) = value := by omega
        rw [writeVarint, if_neg small, readVarint, List.cons_append, Reader.bind_of_ok rfl,
          byteValue, if_neg notSmall, Reader.map_of_ok higher, together]

namespace Codec

theorem varint32_faithful : varint32.Faithful (· < 2 ^ 32) :=
  fun value bounded => readVarint_writeVarint (by decide) 4 value bounded

theorem varint64_faithful : varint64.Faithful (· < 2 ^ 64) :=
  fun value bounded => readVarint_writeVarint (by decide) 9 value bounded

theorem zigzag_lt {value : Int} {half : Nat} (atLeast : -(half : Int) ≤ value)
    (below : value < half) : zigzag value < 2 * half := by
  unfold zigzag
  split <;> omega

theorem int32_faithful : int32.Faithful fun _ => True := by
  have inverse (value : Int32) : Int32.ofInt (unzigzag (zigzag value.toInt)) = value := by
    rw [unzigzag_zigzag, Int32.ofInt_toInt]
  apply (varint32_faithful.imap inverse).mono
  intro value _
  exact zigzag_lt value.le_toInt value.toInt_lt

theorem int64_faithful : int64.Faithful fun _ => True := by
  have inverse (value : Int64) : Int64.ofInt (unzigzag (zigzag value.toInt)) = value := by
    rw [unzigzag_zigzag, Int64.ofInt_toInt]
  apply (varint64_faithful.imap inverse).mono
  intro value _
  exact zigzag_lt value.le_toInt value.toInt_lt

theorem littleEndian_length (value count : Nat) : (littleEndian value count).length = count := by
  induction count generalizing value with
  | zero => rfl
  | succ count inductionHypothesis =>
      rw [littleEndian, List.length_cons, inductionHypothesis]

theorem bytes_littleEndian {F : Format} {count : Nat}
    (fits : 2 * F.patternCount = Nat.pow 256 count) (x : Binary F) (rest : List UInt8) :
    (Reader.bytes count).map (fun bytes => (Binary.ofBits (ofLittleEndian bytes) : Binary F))
      (littleEndian x.toBits count ++ rest) = .ok (x, rest) := by
  have isRead := Reader.bytes_append (littleEndian x.toBits count) rest
  rw [littleEndian_length] at isRead
  have bounded := x.toBits_lt
  rw [fits] at bounded
  rw [Reader.map_of_ok isRead, ofLittleEndian_littleEndian, Nat.mod_eq_of_lt bounded,
    Binary.ofBits_toBits]

theorem binary32_faithful : binary32.Faithful fun _ => True := by
  have fits : 2 * Format.single.patternCount = Nat.pow 256 4 := rfl
  exact fun value _ rest => bytes_littleEndian fits value rest

theorem binary64_faithful : binary64.Faithful fun _ => True := by
  have fits : 2 * Format.double.patternCount = Nat.pow 256 8 := rfl
  exact fun value _ rest => bytes_littleEndian fits value rest

theorem bool_faithful : bool.Faithful fun _ => True := by
  intro value _ rest
  cases value with
  | false => rfl
  | true => rfl

theorem toList_loop (bytes : ByteArray) (position : Nat) (collected : List UInt8) :
    ByteArray.toList.loop bytes position collected =
      collected.reverse ++ bytes.data.toList.drop position := by
  induction position, collected using ByteArray.toList.loop.induct bytes with
  | case1 position collected within inductionHypothesis =>
      have listed : position < bytes.data.toList.length := within
      have byteEq : bytes.get! position = bytes.data.toList[position] := by
        change bytes.data[position]! = bytes.data.toList[position]
        rw [getElem!_pos bytes.data position within, Array.getElem_toList]
      rw [ByteArray.toList.loop, if_pos within, inductionHypothesis, List.reverse_cons,
        List.append_assoc, List.drop_eq_getElem_cons listed, byteEq]
      rfl
  | case2 position collected beyond =>
      have none : bytes.data.toList.length ≤ position := Nat.le_of_not_lt beyond
      rw [ByteArray.toList.loop, if_neg beyond, List.drop_eq_nil_of_le none, List.append_nil]

theorem bytesOfText_eq (text : String) : bytesOfText text = text.toByteArray.data.toList := by
  change ByteArray.toList.loop text.toByteArray 0 [] = _
  rw [toList_loop, List.reverse_nil, List.nil_append, List.drop_zero]

theorem textOfBytes?_bytesOfText (text : String) :
    textOfBytes? (bytesOfText text) = some text := by
  have bytesEq : (bytesOfText text).toByteArray = text.toByteArray := by
    apply ByteArray.ext
    rw [List.data_toByteArray, bytesOfText_eq]
  unfold textOfBytes? String.fromUTF8?
  rw [bytesEq, dif_pos text.isValidUTF8]
  rfl

theorem string_faithful : string.Faithful fun text => (bytesOfText text).length < 2 ^ 64 := by
  intro text bounded rest
  change (varint64.read.bind _) ((varint64.write _ ++ bytesOfText text) ++ rest) = _
  rw [List.append_assoc, Reader.bind_of_ok (varint64_faithful _ bounded _)]
  exact Reader.mapOption_of_ok (Reader.bytes_append _ rest) (textOfBytes?_bytesOfText text)

theorem Faithful.list {codec : Codec α} {writable : α → Prop} (faithful : codec.Faithful writable) :
    codec.list.Faithful fun values =>
      values.length < 2 ^ 64 ∧ ∀ value ∈ values, writable value := by
  intro values isWritable rest
  change (varint64.read.bind _) ((varint64.write _ ++ values.flatMap codec.write) ++ rest) = _
  rw [List.append_assoc, Reader.bind_of_ok (varint64_faithful _ isWritable.1 _)]
  exact Reader.many_flatMap values
    (fun value isMember => faithful value (isWritable.2 value isMember)) rest

end Codec

def Argument.count : Argument → Nat
  | .string text => (bytesOfText text).length
  | .symbol text => (bytesOfText text).length
  | .int32s values => values.length
  | .int64s values => values.length
  | .floats values => values.length
  | .doubles values => values.length
  | _ => 0

/-- Whether counts of 64 bits can tell how long the parts of a message are. -/
structure Message.Countable (message : Message) : Prop where
  path : (bytesOfText message.path).length < 2 ^ 64
  arguments : message.arguments.length < 2 ^ 64
  values : ∀ argument ∈ message.arguments, argument.count < 2 ^ 64

instance : DecidablePred Message.Countable := fun message =>
  decidable_of_iff
    ((bytesOfText message.path).length < 2 ^ 64 ∧ message.arguments.length < 2 ^ 64 ∧
      ∀ argument ∈ message.arguments, argument.count < 2 ^ 64)
    ⟨fun ⟨path, arguments, values⟩ => ⟨path, arguments, values⟩,
      fun countable => ⟨countable.path, countable.arguments, countable.values⟩⟩

namespace Codec

theorem Faithful.everywhere_list {codec : Codec α} (faithful : codec.Faithful fun _ => True) :
    codec.list.Faithful fun values => values.length < 2 ^ 64 :=
  faithful.list.mono fun _ bounded => ⟨bounded, fun _ _ => trivial⟩

theorem argumentKind_faithful : argumentKind.Faithful fun _ => True := by
  apply (varint32_faithful.refine ArgumentKind.all_getElem?_number).mono
  intro kind _
  cases kind <;> decide

theorem argumentValue_faithful (kind : ArgumentKind) :
    (argumentValue kind).Faithful fun value => (Argument.ofTyped ⟨kind, value⟩).count < 2 ^ 64 := by
  cases kind with
  | int32 => exact int32_faithful.mono fun _ _ => trivial
  | int64 => exact int64_faithful.mono fun _ _ => trivial
  | float => exact binary32_faithful.mono fun _ _ => trivial
  | double => exact binary64_faithful.mono fun _ _ => trivial
  | time => exact binary64_faithful.mono fun _ _ => trivial
  | bool => exact bool_faithful.mono fun _ _ => trivial
  | string => exact string_faithful
  | symbol => exact string_faithful
  | int32s => exact int32_faithful.everywhere_list
  | int64s => exact int64_faithful.everywhere_list
  | floats => exact binary32_faithful.everywhere_list
  | doubles => exact binary64_faithful.everywhere_list

theorem argument_faithful : argument.Faithful fun argument => argument.count < 2 ^ 64 := by
  apply ((argumentKind_faithful.dependent argumentValue_faithful).imap
    Argument.ofTyped_toTyped).mono
  intro argument countable
  refine ⟨trivial, ?_⟩
  change (Argument.ofTyped argument.toTyped).count < 2 ^ 64
  rw [Argument.ofTyped_toTyped]
  exact countable

theorem message_faithful : message.Faithful Message.Countable := by
  apply ((binary64_faithful.pair (string_faithful.pair argument_faithful.list)).imap
    (fun _ => rfl)).mono
  intro message countable
  exact ⟨trivial, countable.path, countable.arguments, countable.values⟩

end Codec

/-- The frame of a message holds just that message. -/
theorem Message.decode_encode {message : Message} (countable : message.Countable) :
    Message.decode message.encode = .ok message := by
  have isRead := Codec.message_faithful message countable []
  rw [List.append_nil] at isRead
  unfold Message.decode Message.encode Reader.run
  rw [isRead]
  rfl

end AudioBus
