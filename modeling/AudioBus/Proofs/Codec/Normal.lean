import AudioBus.Proofs.Codec.Shortest

/-!
Decoding normalizes: the frame of a message that was read is read as that message again, and takes
no more bytes than the message was read from.  They are the same bytes unless a number, be it a
length, the number of a type or a whole number, had more groups than it needs.
-/

namespace AudioBus

variable {α β : Type}

/-! ### Codecs that normalize -/

/-- Whether every value that a codec reads can be written, and is written field by field as it was
read, but for its numbers, which are written in their shortest form. -/
def Codec.Normalizes (codec : Codec α) (writable : α → Prop) (layout : α → List Field) : Prop :=
  ∀ bytes value rest, codec.read bytes = .ok (value, rest) →
    writable value ∧
      ∃ consumed, bytes = consumed ++ rest ∧ Shortens (layout value) consumed (codec.write value)

namespace Codec.Normalizes

variable {codec : Codec α} {other : Codec β} {writable : α → Prop} {otherWritable : β → Prop}
variable {layout : α → List Field} {otherLayout : β → List Field}

theorem imap (normalizes : codec.Normalizes writable layout) {forth : α → β} {back : β → α}
    (inverse : ∀ value, writable value → back (forth value) = value) :
    (codec.imap forth back).Normalizes (fun value => writable (back value))
      (fun value => layout (back value)) := by
  intro bytes result rest isRead
  obtain ⟨value, valueRead, changed⟩ := Reader.map_eq_ok isRead
  obtain ⟨isWritable, shortened⟩ := normalizes bytes value rest valueRead
  have isBack : back result = value := by rw [← changed, inverse value isWritable]
  change writable (back result) ∧ ∃ consumed, bytes = consumed ++ rest ∧
    Shortens (layout (back result)) consumed (codec.write (back result))
  rw [isBack]
  exact ⟨isWritable, shortened⟩

theorem refine (normalizes : codec.Normalizes writable layout) {forth : α → Option β}
    {back : β → α} (inverse : ∀ value result, forth value = some result → back result = value) :
    (codec.refine forth back).Normalizes (fun value => writable (back value))
      (fun value => layout (back value)) := by
  intro bytes result rest isRead
  obtain ⟨value, valueRead, changed⟩ := Reader.mapOption_eq_ok isRead
  change writable (back result) ∧ ∃ consumed, bytes = consumed ++ rest ∧
    Shortens (layout (back result)) consumed (codec.write (back result))
  rw [inverse value result changed]
  exact normalizes bytes value rest valueRead

theorem consecutive {γ : α → Type} {second : (a : α) → Codec (γ a)}
    {secondWritable : (a : α) → γ a → Prop} {secondLayout : (a : α) → γ a → List Field}
    {make : (a : α) → γ a → β} (normalizes : codec.Normalizes writable layout)
    (secondNormalizes : ∀ a, (second a).Normalizes (secondWritable a) (secondLayout a))
    {bytes rest : List UInt8} {result : β}
    (isRead : codec.read.bind (fun left => (second left).read.map (make left)) bytes =
      .ok (result, rest)) :
    ∃ left right, make left right = result ∧ (writable left ∧ secondWritable left right) ∧
      ∃ consumed, bytes = consumed ++ rest ∧
        Shortens (layout left ++ secondLayout left right) consumed
          (codec.write left ++ (second left).write right) := by
  obtain ⟨left, behind, leftRead, rightMapped⟩ := Reader.bind_eq_ok isRead
  obtain ⟨right, rightRead, made⟩ := Reader.map_eq_ok rightMapped
  obtain ⟨leftWritable, leftBytes, bytesEq, leftShortens⟩ := normalizes bytes left behind leftRead
  obtain ⟨rightWritable, rightBytes, behindEq, rightShortens⟩ :=
    secondNormalizes left behind right rest rightRead
  refine ⟨left, right, made, ⟨leftWritable, rightWritable⟩, leftBytes ++ rightBytes, ?_,
    leftShortens.append rightShortens⟩
  rw [bytesEq, behindEq, List.append_assoc]

theorem dependent {γ : α → Type} {second : (a : α) → Codec (γ a)}
    {secondWritable : (a : α) → γ a → Prop} {secondLayout : (a : α) → γ a → List Field}
    (normalizes : codec.Normalizes writable layout)
    (secondNormalizes : ∀ a, (second a).Normalizes (secondWritable a) (secondLayout a)) :
    (codec.dependent second).Normalizes
      (fun value => writable value.1 ∧ secondWritable value.1 value.2)
      (fun value => layout value.1 ++ secondLayout value.1 value.2) := by
  intro bytes result rest isRead
  obtain ⟨left, right, rfl, both⟩ := normalizes.consecutive secondNormalizes isRead
  exact both

theorem pair (normalizes : codec.Normalizes writable layout)
    (otherNormalizes : other.Normalizes otherWritable otherLayout) :
    (codec.pair other).Normalizes (fun value => writable value.1 ∧ otherWritable value.2)
      (fun value => layout value.1 ++ otherLayout value.2) := by
  intro bytes result rest isRead
  obtain ⟨left, right, rfl, both⟩ := normalizes.consecutive (fun _ => otherNormalizes) isRead
  exact both

theorem many (normalizes : codec.Normalizes writable layout) (count : Nat)
    {bytes rest : List UInt8} {values : List α}
    (isRead : codec.read.many count bytes = .ok (values, rest)) :
    values.length = count ∧ (∀ value ∈ values, writable value) ∧
      ∃ consumed, bytes = consumed ++ rest ∧
        Shortens (values.flatMap layout) consumed (values.flatMap codec.write) := by
  induction count generalizing bytes values with
  | zero =>
      cases isRead
      exact ⟨rfl, List.forall_mem_nil _, [], rfl, Shortens.nil⟩
  | succ count inductionHypothesis =>
      obtain ⟨first, behind, firstRead, othersMapped⟩ := Reader.bind_eq_ok isRead
      obtain ⟨others, othersRead, rfl⟩ := Reader.map_eq_ok othersMapped
      obtain ⟨firstWritable, firstBytes, bytesEq, firstShortens⟩ :=
        normalizes bytes first behind firstRead
      obtain ⟨counted, othersWritable, othersBytes, behindEq, othersShortens⟩ :=
        inductionHypothesis othersRead
      refine ⟨congrArg Nat.succ counted, List.forall_mem_cons.mpr ⟨firstWritable, othersWritable⟩,
        firstBytes ++ othersBytes, ?_, firstShortens.append othersShortens⟩
      rw [bytesEq, behindEq, List.append_assoc]

theorem mono (normalizes : codec.Normalizes writable layout) {wider : α → Prop}
    (widens : ∀ value, writable value → wider value) : codec.Normalizes wider layout := by
  intro bytes value rest isRead
  obtain ⟨isWritable, shortened⟩ := normalizes bytes value rest isRead
  exact ⟨widens value isWritable, shortened⟩

end Codec.Normalizes

theorem zigzag_unzigzag (code : Nat) : zigzag (unzigzag code) = code := by
  unfold zigzag unzigzag
  split <;> split <;> omega

theorem unzigzag_bounds {code : Nat} (half : Nat) (below : code < 2 * half) :
    -(half : Int) ≤ unzigzag code ∧ unzigzag code < half := by
  unfold unzigzag
  split <;> omega

theorem ofLittleEndian_lt (bytes : List UInt8) :
    ofLittleEndian bytes < Nat.pow 256 bytes.length := by
  induction bytes with
  | nil => exact Nat.zero_lt_one
  | cons byte behind inductionHypothesis =>
      have byteBound : byte.toNat < 256 := byte.toNat_lt
      have onePlace : Nat.pow 256 (byte :: behind).length = Nat.pow 256 behind.length * 256 := rfl
      rw [ofLittleEndian, onePlace]
      omega

theorem littleEndian_ofLittleEndian (bytes : List UInt8) :
    littleEndian (ofLittleEndian bytes) bytes.length = bytes := by
  induction bytes with
  | nil => rfl
  | cons byte behind inductionHypothesis =>
      have byteBound : byte.toNat < 256 := byte.toNat_lt
      have lowByte : (byte.toNat + 256 * ofLittleEndian behind) % 256 = byte.toNat := by omega
      have highBytes :
          (byte.toNat + 256 * ofLittleEndian behind) / 256 = ofLittleEndian behind := by
        omega
      rw [ofLittleEndian, List.length_cons, littleEndian, lowByte, highBytes, UInt8.ofNat_toNat,
        inductionHypothesis]

theorem Binary.toBits_ofBits {F : Format} {word : Nat} (fits : word < 2 * F.patternCount) :
    (Binary.ofBits word : Binary F).toBits = word := by
  have countPos : 0 < F.patternCount := Nat.zero_lt_of_lt F.infinity_lt
  have parts := Nat.div_add_mod word F.patternCount
  have quotient : word / F.patternCount < 2 := Nat.div_lt_of_lt_mul (by omega)
  unfold Binary.toBits Binary.ofBits
  rcases Nat.le_one_iff_eq_zero_or_eq_one.mp (Nat.le_of_lt_succ quotient) with positive | negative
  · rw [positive, Nat.mul_zero] at parts
    simp [positive, parts]
  · rw [negative, Nat.mul_one] at parts
    simp [negative, parts]

namespace Codec

theorem varint32_normalizes : varint32.Normalizes (· < 2 ^ 32) fun _ => [.number] := by
  intro bytes value rest isRead
  obtain ⟨bounded, consumed, bytesEq, spells⟩ := readVarint_spells 4 isRead
  exact ⟨bounded, consumed, bytesEq, Shortens.ofNumber spells⟩

theorem varint64_normalizes : varint64.Normalizes (· < 2 ^ 64) fun _ => [.number] := by
  intro bytes value rest isRead
  obtain ⟨bounded, consumed, bytesEq, spells⟩ := readVarint_spells 9 isRead
  exact ⟨bounded, consumed, bytesEq, Shortens.ofNumber spells⟩

theorem int32_normalizes : int32.Normalizes (fun _ => True) fun _ => [.number] := by
  refine (varint32_normalizes.imap ?_).mono fun _ _ => trivial
  intro code bounded
  obtain ⟨atLeast, below⟩ := unzigzag_bounds (2 ^ 31) bounded
  rw [Int32.toInt_ofInt_of_le atLeast below, zigzag_unzigzag]

theorem int64_normalizes : int64.Normalizes (fun _ => True) fun _ => [.number] := by
  refine (varint64_normalizes.imap ?_).mono fun _ _ => trivial
  intro code bounded
  obtain ⟨atLeast, below⟩ := unzigzag_bounds (2 ^ 63) bounded
  rw [Int64.toInt_ofInt_of_le atLeast below, zigzag_unzigzag]

end Codec

theorem bytesOfText_of_textOfBytes? {bytes : List UInt8} {text : String}
    (isText : textOfBytes? bytes = some text) : bytesOfText text = bytes := by
  unfold textOfBytes? String.fromUTF8? at isText
  split at isText
  case isTrue isValid =>
    cases isText
    rw [Codec.bytesOfText_eq]
    exact congrArg Array.toList List.data_toByteArray
  case isFalse => cases isText

namespace Codec

theorem binary_normalizes {F : Format} {count : Nat}
    (fits : 2 * F.patternCount = Nat.pow 256 count) {bytes rest : List UInt8} {x : Binary F}
    (isRead : (Reader.bytes count).map (fun bytes => Binary.ofBits (ofLittleEndian bytes)) bytes =
      .ok (x, rest)) :
    ∃ consumed, bytes = consumed ++ rest ∧
      Shortens [.plain count] consumed (littleEndian x.toBits count) := by
  obtain ⟨taken, takenRead, rfl⟩ := Reader.map_eq_ok isRead
  obtain ⟨rfl, bytesEq⟩ := Reader.bytes_eq_ok takenRead
  have bounded := ofLittleEndian_lt taken
  rw [← fits] at bounded
  rw [Binary.toBits_ofBits bounded, littleEndian_ofLittleEndian]
  exact ⟨taken, bytesEq, Shortens.ofPlain taken⟩

theorem binary32_normalizes : binary32.Normalizes (fun _ => True) fun _ => [.plain 4] := by
  have fits : 2 * Format.single.patternCount = Nat.pow 256 4 := rfl
  exact fun _ _ _ isRead => ⟨trivial, binary_normalizes fits isRead⟩

theorem binary64_normalizes : binary64.Normalizes (fun _ => True) fun _ => [.plain 8] := by
  have fits : 2 * Format.double.patternCount = Nat.pow 256 8 := rfl
  exact fun _ _ _ isRead => ⟨trivial, binary_normalizes fits isRead⟩

theorem bool_normalizes : bool.Normalizes (fun _ => True) fun _ => [.plain 1] := by
  intro bytes value rest isRead
  obtain ⟨byte, byteRead, changed⟩ := Reader.mapOption_eq_ok isRead
  refine ⟨trivial, [byte], Reader.byte_eq_ok byteRead, ?_⟩
  have isWritten : bool.write value = [byte] := by
    by_cases isFalse : byte = 0
    · rw [isFalse] at changed ⊢
      cases changed
      rfl
    · rw [if_neg isFalse] at changed
      by_cases isTrue : byte = 1
      · rw [isTrue] at changed ⊢
        cases changed
        rfl
      · rw [if_neg isTrue] at changed
        cases changed
  rw [isWritten]
  exact Shortens.ofPlain [byte]

end Codec

def textLayout (text : String) : List Field :=
  [.number, .plain (bytesOfText text).length]

def listLayout (layout : α → List Field) (values : List α) : List Field :=
  .number :: values.flatMap layout

namespace Codec

theorem string_normalizes :
    string.Normalizes (fun text => (bytesOfText text).length < 2 ^ 64) textLayout := by
  intro bytes text rest isRead
  obtain ⟨count, behind, countRead, textMapped⟩ := Reader.bind_eq_ok isRead
  obtain ⟨taken, takenRead, isText⟩ := Reader.mapOption_eq_ok textMapped
  obtain ⟨counted, behindEq⟩ := Reader.bytes_eq_ok takenRead
  obtain ⟨bounded, groups, bytesEq, spells⟩ := readVarint_spells 9 countRead
  have textBytes := bytesOfText_of_textOfBytes? isText
  rw [← counted, ← textBytes] at bounded spells
  refine ⟨bounded, groups ++ bytesOfText text, ?_, ?_⟩
  · rw [bytesEq, behindEq, textBytes, List.append_assoc]
  · exact (Shortens.ofNumber spells).append (Shortens.ofPlain (bytesOfText text))

theorem Normalizes.list {codec : Codec α} {writable : α → Prop} {layout : α → List Field}
    (normalizes : codec.Normalizes writable layout) :
    codec.list.Normalizes
      (fun values => values.length < 2 ^ 64 ∧ ∀ value ∈ values, writable value)
      (listLayout layout) := by
  intro bytes values rest isRead
  obtain ⟨count, behind, countRead, valuesRead⟩ := Reader.bind_eq_ok isRead
  obtain ⟨bounded, groups, bytesEq, spells⟩ := readVarint_spells 9 countRead
  obtain ⟨counted, isWritable, consumed, behindEq, shortens⟩ := normalizes.many count valuesRead
  rw [← counted] at bounded spells
  refine ⟨⟨bounded, isWritable⟩, groups ++ consumed, ?_, ?_⟩
  · rw [bytesEq, behindEq, List.append_assoc]
  · exact (Shortens.ofNumber spells).append shortens

theorem Normalizes.everywhere_list {codec : Codec α} {layout : α → List Field}
    (normalizes : codec.Normalizes (fun _ => True) layout) :
    codec.list.Normalizes (fun values => values.length < 2 ^ 64) (listLayout layout) :=
  normalizes.list.mono fun _ isWritable => isWritable.1

end Codec

/-! ### Messages -/

def Argument.layout : Argument → List Field
  | .int32 _ => [.number]
  | .int64 _ => [.number]
  | .float _ => [.plain 4]
  | .double _ => [.plain 8]
  | .time _ => [.plain 8]
  | .bool _ => [.plain 1]
  | .string text => textLayout text
  | .symbol text => textLayout text
  | .int32s values => listLayout (fun _ => [.number]) values
  | .int64s values => listLayout (fun _ => [.number]) values
  | .floats values => listLayout (fun _ => [.plain 4]) values
  | .doubles values => listLayout (fun _ => [.plain 8]) values

/-- The fields of a message: its timestamp, its path and its arguments, each behind the number of
its type. -/
def Message.layout (message : Message) : List Field :=
  .plain 8 :: (textLayout message.path ++
    listLayout (fun argument => .number :: argument.layout) message.arguments)

theorem Argument.toTyped_ofTyped (typed : (kind : ArgumentKind) × kind.Value) :
    (Argument.ofTyped typed).toTyped = typed := by
  obtain ⟨kind, value⟩ := typed
  cases kind <;> rfl

theorem ArgumentKind.number_of_all_getElem? {number : Nat} {kind : ArgumentKind}
    (isKind : ArgumentKind.all[number]? = some kind) : kind.number = number := by
  have inOrder : ArgumentKind.all.map ArgumentKind.number = List.range 12 := rfl
  have listed : (ArgumentKind.all.map ArgumentKind.number)[number]? = some kind.number := by
    rw [List.getElem?_map, isKind]
    rfl
  rw [inOrder] at listed
  obtain ⟨below, isNumber⟩ := List.getElem?_eq_some_iff.mp listed
  rw [← isNumber, List.getElem_range]

namespace Codec

theorem argumentKind_normalizes : argumentKind.Normalizes (fun _ => True) fun _ => [.number] :=
  (varint32_normalizes.refine fun _ _ => ArgumentKind.number_of_all_getElem?).mono
    fun _ _ => trivial

theorem argumentValue_normalizes (kind : ArgumentKind) :
    (argumentValue kind).Normalizes
      (fun value => (Argument.ofTyped ⟨kind, value⟩).count < 2 ^ 64)
      (fun value => (Argument.ofTyped ⟨kind, value⟩).layout) := by
  have countless : (0 : Nat) < 2 ^ 64 := by decide
  cases kind with
  | int32 => exact int32_normalizes.mono fun _ _ => countless
  | int64 => exact int64_normalizes.mono fun _ _ => countless
  | float => exact binary32_normalizes.mono fun _ _ => countless
  | double => exact binary64_normalizes.mono fun _ _ => countless
  | time => exact binary64_normalizes.mono fun _ _ => countless
  | bool => exact bool_normalizes.mono fun _ _ => countless
  | string => exact string_normalizes
  | symbol => exact string_normalizes
  | int32s => exact int32_normalizes.everywhere_list
  | int64s => exact int64_normalizes.everywhere_list
  | floats => exact binary32_normalizes.everywhere_list
  | doubles => exact binary64_normalizes.everywhere_list

theorem argument_normalizes :
    argument.Normalizes (fun argument => argument.count < 2 ^ 64)
      (fun argument => .number :: argument.layout) := by
  have typed := (argumentKind_normalizes.dependent argumentValue_normalizes).imap
    fun typed _ => Argument.toTyped_ofTyped typed
  intro bytes value rest isRead
  obtain ⟨⟨_, countable⟩, shortened⟩ := typed bytes value rest isRead
  change (Argument.ofTyped value.toTyped).count < 2 ^ 64 at countable
  change ∃ consumed, bytes = consumed ++ rest ∧
    Shortens (.number :: (Argument.ofTyped value.toTyped).layout) consumed (argument.write value)
    at shortened
  rw [Argument.ofTyped_toTyped] at countable shortened
  exact ⟨countable, shortened⟩

theorem message_normalizes : message.Normalizes Message.Countable Message.layout := by
  intro bytes value rest isRead
  obtain ⟨⟨_, path, arguments, values⟩, shortened⟩ :=
    (binary64_normalizes.pair (string_normalizes.pair argument_normalizes.list)).imap
      (fun _ _ => rfl) bytes value rest isRead
  exact ⟨⟨path, arguments, values⟩, shortened⟩

end Codec

/-- Any frame that is read as a message begins with the bytes that the message was read from.
Bytes behind them do not matter, the frame that is written for the message is not longer, and it
is the same if all numbers were in their shortest form, and only then.  A frame that is refused,
other than for its end, is refused whatever follows. -/
theorem Message.decoding_normalizes (frame : List UInt8) :
    (∀ message, Message.decode frame = .ok message →
      ∃ consumed rest, frame = consumed ++ rest ∧
        (∀ other, Codec.message.read (consumed ++ other) = .ok (message, other) ∧
          Message.decode (consumed ++ other) = .ok message) ∧
        message.encode.length ≤ consumed.length ∧
        Message.decode message.encode = .ok message ∧
        (cutInto message.layout consumed).flatMap Prod.snd = consumed ∧
        (message.encode = consumed ↔ AllShortest message.layout consumed)) ∧
    ∀ cause, Message.decode frame = .error cause → cause ≠ .unexpectedEnd →
      ∀ more, Message.decode (frame ++ more) = .error cause := by
  constructor
  · intro message decoded
    obtain ⟨rest, isRead⟩ := Reader.run_eq_ok.mp decoded
    obtain ⟨countable, consumed, frameEq, shortens⟩ :=
      Codec.message_normalizes frame message rest isRead
    obtain ⟨sameConsumed, sameEq, reads⟩ := Codec.message_local.reads isRead
    -- locality and normality each name the bytes in front of the rest
    obtain rfl : sameConsumed = consumed := List.append_cancel_right (sameEq.symm.trans frameEq)
    refine ⟨sameConsumed, rest, frameEq, ?_, shortens.length_le, Message.decode_encode countable,
      shortens.flatMap_cutInto, shortens.eq_iff⟩
    exact fun other => ⟨reads other, Reader.run_eq_ok.mpr ⟨other, reads other⟩⟩
  · intro cause refused notEnd more
    exact Reader.run_eq_error.mpr
      (Codec.message_local.refuses (Reader.run_eq_error.mp refused) notEnd more)

def shortMessage : Message where
  timestamp := Binary.ofBits 0x3FF8000000000000
  path := "/a"
  arguments := [.int32 (-2)]

/-- A frame of `shortMessage` with groups of zeros in the length of the path and in the argument,
and one byte more. -/
def paddedFrame : List UInt8 :=
  [0, 0, 0, 0, 0, 0, 0xF8, 0x3F, 0x82, 0, 0x2F, 0x61, 1, 0, 0x83, 0x80, 0, 0xFF]

def badTextFrame : List UInt8 :=
  [0, 0, 0, 0, 0, 0, 0xF8, 0x3F, 2, 0xC3, 0x61]

theorem paddedFrame_normalizes :
    (∃ consumed rest, paddedFrame = consumed ++ rest ∧ consumed.length = 17 ∧
      Message.decode consumed = .ok shortMessage ∧ shortMessage.encode.length = 14 ∧
      ¬ AllShortest shortMessage.layout consumed) ∧
    Message.decode badTextFrame = .error .badUtf8 ∧
      ∀ more, Message.decode (badTextFrame ++ more) = .error .badUtf8 := by
  have decoded : Message.decode paddedFrame = .ok shortMessage := by decide +kernel
  have written : shortMessage.encode.length = 14 := by decide +kernel
  have refused : Message.decode badTextFrame = .error .badUtf8 := by decide +kernel
  have isRead : Codec.message.read paddedFrame = .ok (shortMessage, [0xFF]) := by decide +kernel
  obtain ⟨consumed, rest, frameEq, reads, _, _, _, sameIff⟩ :=
    (Message.decoding_normalizes paddedFrame).1 shortMessage decoded
  have restEq : rest = [0xFF] := by
    rw [frameEq, (reads rest).1] at isRead
    cases isRead
    rfl
  have counted : consumed.length = 17 := by
    have total := congrArg List.length frameEq
    rw [restEq, List.length_append] at total
    exact (Nat.add_right_cancel total).symm
  have readsAlone := (reads []).2
  rw [List.append_nil] at readsAlone
  refine ⟨⟨consumed, rest, frameEq, counted, readsAlone, written, ?_⟩, refused,
    (Message.decoding_normalizes badTextFrame).2 .badUtf8 refused (by decide)⟩
  intro allShortest
  have sameLength := congrArg List.length (sameIff.mpr allShortest)
  rw [written, counted] at sameLength
  exact absurd sameLength (by decide)

end AudioBus
