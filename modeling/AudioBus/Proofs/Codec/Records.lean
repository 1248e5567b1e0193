import AudioBus.Codec.Records
import AudioBus.Proofs.Codec.Locality

/-!
Signatures and their errors, service statuses, stream identities and configurations travel without
loss: each is read back whatever follows it, and of one that is cut short the reader says that
bytes are missing.  A missing setting is never made up.
-/

namespace AudioBus

variable {α β : Type}

/-- Whether a codec reads the writable values back, and needs all of their bytes to do so. -/
structure Codec.Travels (codec : Codec α) (writable : α → Prop) : Prop where
  faithful : codec.Faithful writable
  needsAll : codec.NeedsAll writable

namespace Codec.Travels

variable {codec : Codec α} {other : Codec β} {writable : α → Prop} {otherWritable : β → Prop}

theorem imap (travels : codec.Travels writable) {forth : α → β} {back : β → α}
    (inverse : ∀ value, forth (back value) = value) :
    (codec.imap forth back).Travels fun value => writable (back value) :=
  ⟨travels.faithful.imap inverse, travels.needsAll.imap forth back⟩

theorem refine (travels : codec.Travels writable) {forth : α → Option β} {back : β → α}
    (inverse : ∀ value, forth (back value) = some value) :
    (codec.refine forth back).Travels fun value => writable (back value) :=
  ⟨travels.faithful.refine inverse, travels.needsAll.refine forth back⟩

theorem pair (travels : codec.Travels writable) (otherTravels : other.Travels otherWritable) :
    (codec.pair other).Travels fun value => writable value.1 ∧ otherWritable value.2 :=
  ⟨travels.faithful.pair otherTravels.faithful,
    travels.needsAll.pair travels.faithful otherTravels.needsAll⟩

theorem everywhere_list (travels : codec.Travels fun _ => True) :
    codec.list.Travels fun values => values.length < 2 ^ 64 :=
  ⟨travels.faithful.everywhere_list, travels.needsAll.everywhere_list travels.faithful⟩

theorem mono (travels : codec.Travels writable) {narrower : α → Prop}
    (narrows : ∀ value, narrower value → writable value) : codec.Travels narrower :=
  ⟨travels.faithful.mono narrows, travels.needsAll.mono narrows⟩

theorem option (travels : codec.Travels writable) :
    codec.option.Travels fun value => ∀ content, value = some content → writable content where
  faithful := by
    intro value isWritable rest
    cases value with
    | none => rfl
    | some content =>
        exact Reader.map_of_ok (travels.faithful content (isWritable content rfl) rest)
  needsAll := by
    intro value isWritable part missing split isCut
    cases value with
    | none =>
        rw [nil_of_cut_single split isCut]
        rfl
    | some content =>
        rcases List.cons_eq_append_iff.mp split with ⟨partEq, _⟩ | ⟨behind, partEq, contentEq⟩
        · rw [partEq]
          rfl
        · rw [partEq]
          exact Reader.map_of_error
            (travels.needsAll content (isWritable content rfl) behind missing contentEq isCut)

theorem numbered (travels : codec.Travels writable) (whole : Codec β) (make : α → β)
    {number : Nat} (small : number < 2 ^ 32) {next : Nat → Reader β}
    (reads : whole.read = varint32.read.bind next) (isNext : next number = codec.read.map make)
    (value : α) (isWritable : writable value)
    (writes : whole.write (make value) = writeVarint number ++ codec.write value) :
    (∀ rest, whole.read (whole.write (make value) ++ rest) = .ok (make value, rest)) ∧
    ∀ part missing, whole.write (make value) = part ++ missing → missing ≠ [] →
      whole.read part = .error .unexpectedEnd := by
  rw [reads, writes]
  constructor
  · intro rest
    rw [List.append_assoc]
    refine (Reader.bind_of_ok (varint32_faithful number small _)).trans ?_
    rw [isNext]
    exact Reader.map_of_ok (travels.faithful value isWritable rest)
  · intro part missing split isCut
    rcases cut_append split with ⟨cut, numberEq, numberCut⟩ | ⟨behind, partEq, valueEq⟩
    · exact Reader.bind_of_error (varint32_needsAll number small part cut numberEq numberCut)
    · rw [partEq]
      refine (Reader.bind_of_ok (varint32_faithful number small behind)).trans ?_
      rw [isNext]
      exact Reader.map_of_error (travels.needsAll value isWritable behind missing valueEq isCut)

end Codec.Travels

namespace Codec

theorem varint32_travels : varint32.Travels (· < 2 ^ 32) :=
  ⟨varint32_faithful, varint32_needsAll⟩

theorem varint64_travels : varint64.Travels (· < 2 ^ 64) :=
  ⟨varint64_faithful, varint64_needsAll⟩

theorem binary64_travels : binary64.Travels fun _ => True :=
  ⟨binary64_faithful, binary64_needsAll⟩

theorem argumentKind_travels : argumentKind.Travels fun _ => True :=
  ⟨argumentKind_faithful, argumentKind_needsAll⟩

theorem sampleRate_travels : sampleRate.Travels fun _ => True := by
  have inverse (rate : SampleRate) : SampleRate.ofNat? rate.hertz = some rate :=
    dif_pos ⟨rate.hertz_pos, rate.hertz_lt⟩
  exact (varint32_travels.refine inverse).mono fun rate _ => rate.hertz_lt

theorem sampleCount_travels : sampleCount.Travels fun _ => True := by
  have inverse (count : SampleCount) : SampleCount.ofNat? count.count = some count :=
    dif_pos ⟨count.count_pos, count.count_lt⟩
  exact (varint64_travels.refine inverse).mono fun count _ => count.count_lt

theorem interval_travels : interval.Travels fun _ => True := by
  have inverse (interval : Interval) :
      Interval.ofParts? interval.seconds interval.nanoseconds = some interval := by
    obtain ⟨seconds, nanoseconds, seconds_lt, nanoseconds_lt⟩ := interval
    have nothingCarried : nanoseconds / 1_000_000_000 = 0 := Nat.div_eq_of_lt nanoseconds_lt
    simp only [Interval.ofParts?, nothingCarried, Nat.add_zero, Nat.mod_eq_of_lt nanoseconds_lt]
    exact dif_pos seconds_lt
  apply ((varint64_travels.pair varint32_travels).refine inverse).mono
  intro interval _
  exact ⟨interval.seconds_lt, Nat.lt_trans interval.nanoseconds_lt (by decide)⟩

theorem bytesOfText_length (text : String) : (bytesOfText text).length = text.utf8ByteSize := by
  rw [bytesOfText_eq, Array.length_toList]
  exact String.size_toByteArray

theorem charOfBytes?_bytesOfText (c : Char) :
    charOfBytes? (bytesOfText (String.singleton c)) = some c := by
  unfold charOfBytes?
  rw [textOfBytes?_bytesOfText, Option.bind_some, String.toList_singleton]
  rfl

theorem char_travels : char.Travels fun _ => True := by
  have short (c : Char) : ¬ 4 < (bytesOfText (String.singleton c)).length := by
    rw [bytesOfText_length, String.utf8ByteSize_singleton]
    exact Nat.not_lt.mpr c.utf8Size_le_four
  have bounded (c : Char) : (bytesOfText (String.singleton c)).length < 2 ^ 64 :=
    Nat.lt_of_le_of_lt (Nat.not_lt.mp (short c)) (by decide)
  constructor
  case faithful =>
    intro c _ rest
    change varint64.read.bind _ ((varint64.write _ ++ bytesOfText (String.singleton c)) ++ rest) = _
    rw [List.append_assoc, Reader.bind_of_ok (varint64_faithful _ (bounded c) _), if_neg (short c)]
    exact Reader.mapOption_of_ok (Reader.bytes_append _ rest) (charOfBytes?_bytesOfText c)
  case needsAll =>
    intro c _ part missing split isCut
    change varint64.read.bind _ part = _
    rcases cut_append split with ⟨cut, countEq, countCut⟩ | ⟨behind, partEq, bytesEq⟩
    · exact Reader.bind_of_error (varint64_needsAll _ (bounded c) part cut countEq countCut)
    · rw [partEq]
      refine (Reader.bind_of_ok (varint64_faithful _ (bounded c) behind)).trans ?_
      rw [if_neg (short c)]
      exact Reader.mapOption_of_error (Reader.bytes_of_cut bytesEq isCut)

theorem signature_travels :
    signature.Travels fun signature => signature.kinds.length < 2 ^ 64 :=
  argumentKind_travels.everywhere_list.imap fun _ => rfl

end Codec

def SignatureError.position : SignatureError → Nat
  | .unknownType position _ => position
  | .missingElementType position => position
  | .invalidElementType position _ => position

namespace Codec

theorem signatureError_travels : signatureError.Travels fun error => error.position < 2 ^ 64 := by
  have fields := varint64_travels.pair char_travels
  have both (error : SignatureError) (countable : error.position < 2 ^ 64) :
      (∀ rest, signatureError.read (signatureError.write error ++ rest) = .ok (error, rest)) ∧
      ∀ part missing, signatureError.write error = part ++ missing → missing ≠ [] →
        signatureError.read part = .error .unexpectedEnd := by
    cases error with
    | unknownType position code =>
        exact fields.numbered signatureError (fun fields => .unknownType fields.1 fields.2)
          (by decide) rfl rfl (position, code) ⟨countable, trivial⟩ rfl
    | missingElementType position =>
        exact varint64_travels.numbered signatureError .missingElementType (by decide) rfl rfl
          position countable rfl
    | invalidElementType position code =>
        exact fields.numbered signatureError (fun fields => .invalidElementType fields.1 fields.2)
          (by decide) rfl rfl (position, code) ⟨countable, trivial⟩ rfl
  exact ⟨fun error countable => (both error countable).1,
    fun error countable => (both error countable).2⟩

theorem serviceStatus_travels : serviceStatus.Travels fun _ => True := by
  have inverse (status : ServiceStatus) : ServiceStatus.all[status.level]? = some status := by
    cases status <;> rfl
  apply (varint32_travels.refine inverse).mono
  intro status _
  cases status <;> decide

theorem streamId_travels : streamId.Travels fun _ => True :=
  Travels.imap ⟨int64_faithful, int64_needsAll⟩ fun _ => rfl

theorem receiverConfig_travels : receiverConfig.Travels fun _ => True :=
  ((sampleRate_travels.pair sampleCount_travels.option).imap fun _ => rfl).mono
    fun _ _ => ⟨trivial, fun _ _ => trivial⟩

theorem transmitterConfig_travels : transmitterConfig.Travels fun _ => True :=
  ((sampleRate_travels.pair (binary64_travels.pair (binary64_travels.pair
    (sampleCount_travels.option.pair interval_travels)))).imap fun _ => rfl).mono
    fun _ _ => ⟨trivial, trivial, trivial, fun _ _ => trivial, trivial⟩

end Codec

inductive RecordType where
  | argumentKind | signature | signatureError | serviceStatus | streamId
  | receiverConfig | transmitterConfig
deriving DecidableEq

namespace RecordType

def Value : RecordType → Type
  | .argumentKind => ArgumentKind
  | .signature => Signature
  | .signatureError => SignatureError
  | .serviceStatus => ServiceStatus
  | .streamId => StreamId
  | .receiverConfig => ReceiverConfig
  | .transmitterConfig => TransmitterConfig

def codec : (type : RecordType) → Codec type.Value
  | .argumentKind => Codec.argumentKind
  | .signature => Codec.signature
  | .signatureError => Codec.signatureError
  | .serviceStatus => Codec.serviceStatus
  | .streamId => Codec.streamId
  | .receiverConfig => Codec.receiverConfig
  | .transmitterConfig => Codec.transmitterConfig

/-- Whether a count or a position of 64 bits can tell how long a record is, or what it points
to. -/
def Countable : (type : RecordType) → type.Value → Prop
  | .signature, value => (Signature.kinds value).length < 2 ^ 64
  | .signatureError, error => SignatureError.position error < 2 ^ 64
  | _, _ => True

theorem codec_travels (type : RecordType) : type.codec.Travels type.Countable := by
  cases type with
  | argumentKind => exact Codec.argumentKind_travels
  | signature => exact Codec.signature_travels
  | signatureError => exact Codec.signatureError_travels
  | serviceStatus => exact Codec.serviceStatus_travels
  | streamId => exact Codec.streamId_travels
  | receiverConfig => exact Codec.receiverConfig_travels
  | transmitterConfig => exact Codec.transmitterConfig_travels

/-- A record is read back whatever follows it, and not before it is whole. -/
theorem records_travel_losslessly (type : RecordType) (record : type.Value)
    (countable : type.Countable record) :
    (∀ rest, type.codec.read (type.codec.write record ++ rest) = .ok (record, rest) ∧
      type.codec.read.run (type.codec.write record ++ rest) = .ok record) ∧
    ∀ part, part <+: type.codec.write record → part ≠ type.codec.write record →
      type.codec.read.run part = .error .unexpectedEnd := by
  have travels := type.codec_travels
  constructor
  · intro rest
    have isRead := travels.faithful record countable rest
    exact ⟨isRead, Reader.run_eq_ok.mpr ⟨rest, isRead⟩⟩
  · rintro part ⟨missing, whole⟩ different
    have isCut : missing ≠ [] := by
      intro nothing
      rw [nothing, List.append_nil] at whole
      exact different whole
    exact Reader.run_eq_error.mpr (travels.needsAll record countable part missing whole.symm isCut)

def misplacedEuro : SignatureError :=
  .invalidElementType 300 '€'

theorem misplacedEuro_travels :
    signatureError.Countable misplacedEuro ∧
      Codec.signatureError.write misplacedEuro = [2, 0xAC, 2, 3, 0xE2, 0x82, 0xAC] ∧
      Codec.signatureError.read.run [2, 0xAC, 2, 3, 0xE2, 0x82, 0xAC, 0x80] = .ok misplacedEuro ∧
      Codec.signatureError.read.run [2, 0xAC, 2, 3, 0xE2, 0x82] = .error .unexpectedEnd := by
  have countable : signatureError.Countable misplacedEuro := by
    change 300 < 2 ^ 64
    decide
  have written : Codec.signatureError.write misplacedEuro =
      [2, 0xAC, 2, 3, 0xE2, 0x82, 0xAC] := by
    decide +kernel
  obtain ⟨readBack, refused⟩ := records_travel_losslessly .signatureError misplacedEuro countable
  have whole := (readBack [0x80]).2
  have cut := refused [2, 0xAC, 2, 3, 0xE2, 0x82]
  change Codec.signatureError.read.run (Codec.signatureError.write misplacedEuro ++ [0x80]) = _
    at whole
  change _ <+: Codec.signatureError.write misplacedEuro →
    _ ≠ Codec.signatureError.write misplacedEuro → _ at cut
  rw [written] at whole cut
  exact ⟨countable, written, whole, cut (by decide) (by decide)⟩

end RecordType

end AudioBus
