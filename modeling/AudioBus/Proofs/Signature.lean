import AudioBus.Signature
import Mathlib.Logic.ExistsUnique

/-!
Signatures and their texts.

A text is read as far as it writes types.  What stops the reading is the end of the text, a marker
at the end, a marker before what is no element, or a character that is no code; so a text either
writes a signature, and only one, or has one of three faults at one position.
-/

namespace AudioBus

namespace ArgumentKind

def scalarCodes : List Char := ['i', 'h', 'f', 'd', 't', 'B', 's', 'S']

def elementCodes : List Char := ['i', 'h', 'f', 'd']

theorem ofScalarCode?_eq_none_iff (code : Char) :
    ofScalarCode? code = none ↔ code ∉ scalarCodes := by
  unfold ofScalarCode? scalarCodes
  split <;> simp_all

theorem ofElementCode?_eq_none_iff (code : Char) :
    ofElementCode? code = none ↔ code ∉ elementCodes := by
  unfold ofElementCode? elementCodes
  split <;> simp_all

theorem code_cases (kind : ArgumentKind) :
    (∃ code, kind.code = [code] ∧ code ≠ 'v' ∧ ofScalarCode? code = some kind) ∨
      ∃ element, kind.code = ['v', element] ∧ ofElementCode? element = some kind := by
  cases kind with
  | int32 | int64 | float | double | time | bool | string | symbol =>
      exact Or.inl ⟨_, rfl, by decide, rfl⟩
  | int32s | int64s | floats | doubles => exact Or.inr ⟨_, rfl, rfl⟩

theorem code_of_ofScalarCode? {code : Char} {kind : ArgumentKind}
    (found : ofScalarCode? code = some kind) : kind.code = [code] := by
  unfold ofScalarCode? at found
  split at found <;> cases found <;> rfl

theorem code_of_ofElementCode? {element : Char} {kind : ArgumentKind}
    (found : ofElementCode? element = some kind) : kind.code = ['v', element] := by
  unfold ofElementCode? at found
  split at found <;> cases found <;> rfl

theorem mem_scalarCodes_iff (code : Char) :
    code ∈ scalarCodes ↔ ∃ kind : ArgumentKind, kind.code = [code] := by
  constructor
  · intro isCode
    cases found : ofScalarCode? code with
    | none => exact absurd isCode ((ofScalarCode?_eq_none_iff code).mp found)
    | some kind => exact ⟨kind, code_of_ofScalarCode? found⟩
  · rintro ⟨kind, codeEq⟩
    cases kind <;> cases codeEq <;> decide

end ArgumentKind

namespace Signature

open ArgumentKind

theorem ofList_cons (c : Char) (rest : List Char) :
    String.ofList (c :: rest) = String.singleton c ++ String.ofList rest := by
  rw [← List.singleton_append, String.ofList_append, String.singleton_eq_ofList]

theorem utf8ByteSize_ofList_cons (c : Char) (rest : List Char) :
    (String.ofList (c :: rest)).utf8ByteSize =
      c.utf8Size + (String.ofList rest).utf8ByteSize := by
  rw [ofList_cons, String.utf8ByteSize_append, String.utf8ByteSize_singleton]

theorem parseFrom_code (position : Nat) (kind : ArgumentKind) (rest : List Char) :
    parseFrom position (kind.code ++ rest) =
      (parseFrom (position + (String.ofList kind.code).utf8ByteSize) rest).map (kind :: ·) := by
  rcases kind.code_cases with ⟨code, codeEq, notMarker, found⟩ | ⟨element, codeEq, found⟩
  · rw [codeEq, List.singleton_append, utf8ByteSize_ofList_cons, parseFrom.eq_def]
    simp only [if_neg notMarker, found]
    rfl
  · have marker : Char.utf8Size 'v' = 1 := rfl
    rw [codeEq, List.cons_append, List.singleton_append, utf8ByteSize_ofList_cons,
      utf8ByteSize_ofList_cons, marker, ← Nat.add_assoc, ← Nat.add_assoc]
    rw [parseFrom.eq_def]
    simp only [if_true, found]
    rfl

theorem parseFrom_codes (position : Nat) (kinds : List ArgumentKind) (rest : List Char) :
    parseFrom position (kinds.flatMap ArgumentKind.code ++ rest) =
      (parseFrom (position + (text { kinds := kinds }).utf8ByteSize) rest).map (kinds ++ ·) := by
  induction kinds generalizing position with
  | nil =>
      change parseFrom position rest = (parseFrom (position + 0) rest).map id
      cases parseFrom position rest <;> rfl
  | cons kind kinds inductionHypothesis =>
      have size : (text { kinds := kind :: kinds }).utf8ByteSize =
          (String.ofList kind.code).utf8ByteSize + (text { kinds := kinds }).utf8ByteSize := by
        rw [← String.utf8ByteSize_append]
        exact congrArg String.utf8ByteSize String.ofList_append
      rw [List.flatMap_cons, List.append_assoc, parseFrom_code, inductionHypothesis, size,
        Nat.add_assoc]
      cases parseFrom (position + (_ + _)) rest <;> rfl

/-- What is left of a text when no further type can be read. -/
inductive Stopped : List Char → Prop
  | finished : Stopped []
  | lonelyMarker : Stopped ['v']
  | wrongElement (element : Char) (after : List Char) (isWrong : element ∉ elementCodes) :
      Stopped ('v' :: element :: after)
  | wrongCode (code : Char) (after : List Char) (isWrong : code ∉ 'v' :: scalarCodes) :
      Stopped (code :: after)

theorem exists_stopped (chars : List Char) :
    ∃ (kinds : List ArgumentKind) (rest : List Char),
      chars = kinds.flatMap ArgumentKind.code ++ rest ∧ Stopped rest := by
  match chars with
  | [] => exact ⟨[], [], rfl, .finished⟩
  | code :: rest =>
      by_cases isMarker : code = 'v'
      · subst isMarker
        match rest with
        | [] => exact ⟨[], ['v'], rfl, .lonelyMarker⟩
        | element :: after =>
            cases found : ofElementCode? element with
            | none =>
                exact ⟨[], _, rfl,
                  .wrongElement element after ((ofElementCode?_eq_none_iff element).mp found)⟩
            | some kind =>
                obtain ⟨kinds, left, split, stopped⟩ := exists_stopped after
                refine ⟨kind :: kinds, left, ?_, stopped⟩
                rw [List.flatMap_cons, code_of_ofElementCode? found, split]
                rfl
      · cases found : ofScalarCode? code with
        | none =>
            have isWrong := (ofScalarCode?_eq_none_iff code).mp found
            exact ⟨[], _, rfl,
              .wrongCode code rest (List.not_mem_cons_of_ne_of_not_mem isMarker isWrong)⟩
        | some kind =>
            obtain ⟨kinds, left, split, stopped⟩ := exists_stopped rest
            refine ⟨kind :: kinds, left, ?_, stopped⟩
            rw [List.flatMap_cons, code_of_ofScalarCode? found, split]
            rfl

theorem parseFrom_wrongElement (position : Nat) {element : Char} (after : List Char)
    (isWrong : element ∉ elementCodes) :
    parseFrom position ('v' :: element :: after) =
      .error (.invalidElementType (position + 1) element) := by
  rw [parseFrom.eq_def]
  simp only [if_true, (ofElementCode?_eq_none_iff element).mpr isWrong]

theorem parseFrom_wrongCode (position : Nat) {code : Char} (after : List Char)
    (isWrong : code ∉ 'v' :: scalarCodes) :
    parseFrom position (code :: after) = .error (.unknownType position code) := by
  rw [List.mem_cons, not_or] at isWrong
  rw [parseFrom.eq_def]
  simp only [if_neg isWrong.1, (ofScalarCode?_eq_none_iff code).mpr isWrong.2]

/-- Whether a text writes a signature, or has this fault behind a signature that it begins with. -/
def Describes (text : String) : Except SignatureError Signature → Prop
  | .ok signature => signature.text = text
  | .error (.unknownType position code) =>
      ∃ (former : Signature) (after : String),
        text = former.text ++ String.singleton code ++ after ∧
          former.text.utf8ByteSize = position ∧ code ∉ 'v' :: scalarCodes
  | .error (.missingElementType position) =>
      ∃ former : Signature, text = former.text ++ "v" ∧ former.text.utf8ByteSize = position
  | .error (.invalidElementType position code) =>
      ∃ (former : Signature) (after : String),
        text = former.text ++ "v" ++ String.singleton code ++ after ∧
          former.text.utf8ByteSize + 1 = position ∧ code ∉ elementCodes

theorem text_toList (signature : Signature) :
    signature.text.toList = signature.kinds.flatMap ArgumentKind.code :=
  String.toList_ofList

theorem parse_of_split {text : String} {former : Signature} {rest : List Char}
    (split : text.toList = former.text.toList ++ rest) :
    parse text =
      ((parseFrom former.text.utf8ByteSize rest).map (former.kinds ++ ·)).map Signature.mk := by
  rw [parse, split, text_toList, parseFrom_codes, Nat.zero_add]

theorem parse_of_describes {text : String} {outcome : Except SignatureError Signature}
    (describes : Describes text outcome) : parse text = outcome := by
  match outcome, describes with
  | .ok signature, isText =>
      have split : text.toList = signature.text.toList ++ [] := by
        rw [List.append_nil]
        exact congrArg String.toList isText.symm
      rw [parse_of_split split]
      exact congrArg (fun kinds => Except.ok (Signature.mk kinds)) (List.append_nil _)
  | .error (.unknownType _ code), ⟨former, after, textEq, rfl, isWrong⟩ =>
      have split : text.toList = former.text.toList ++ code :: after.toList := by
        rw [textEq, String.toList_append, String.toList_append, String.toList_singleton,
          List.append_assoc, List.singleton_append]
      rw [parse_of_split split, parseFrom_wrongCode _ _ isWrong]
      rfl
  | .error (.missingElementType _), ⟨former, textEq, rfl⟩ =>
      have split : text.toList = former.text.toList ++ ['v'] := by
        rw [textEq, String.toList_append]
        rfl
      rw [parse_of_split split]
      rfl
  | .error (.invalidElementType _ element), ⟨former, after, textEq, rfl, isWrong⟩ =>
      have split : text.toList = former.text.toList ++ 'v' :: element :: after.toList := by
        rw [textEq, String.toList_append, String.toList_append, String.toList_append,
          String.toList_singleton, List.append_assoc, List.append_assoc, List.singleton_append]
        rfl
      rw [parse_of_split split, parseFrom_wrongElement _ _ isWrong]
      rfl

theorem exists_describes (text : String) : ∃ outcome, Describes text outcome := by
  obtain ⟨kinds, rest, split, stopped⟩ := exists_stopped text.toList
  generalize formerEq : Signature.mk kinds = former
  have textEq : text = former.text ++ String.ofList rest := by
    rw [← String.toList_inj, String.toList_append, String.toList_ofList, text_toList, ← formerEq]
    exact split
  cases stopped with
  | finished => exact ⟨.ok former, (textEq.trans String.append_empty).symm⟩
  | lonelyMarker => exact ⟨.error (.missingElementType _), former, textEq, rfl⟩
  | wrongElement element after isWrong =>
      refine ⟨.error (.invalidElementType _ element), former, String.ofList after, ?_, rfl, isWrong⟩
      rw [textEq, ofList_cons, ofList_cons, String.append_assoc, String.append_assoc]
      rfl
  | wrongCode code after isWrong =>
      refine ⟨.error (.unknownType _ code), former, String.ofList after, ?_, rfl, isWrong⟩
      rw [textEq, ofList_cons, String.append_assoc]

theorem parse_eq_iff (text : String) (outcome : Except SignatureError Signature) :
    parse text = outcome ↔ Describes text outcome := by
  constructor
  · intro parsed
    obtain ⟨described, describes⟩ := exists_describes text
    rw [← parsed, parse_of_describes describes]
    exact describes
  · exact parse_of_describes

theorem parses_iff (text : String) :
    (∃ former, parse text = .ok former) ↔ ∃ former : Signature, former.text = text :=
  exists_congr fun former => parse_eq_iff text (.ok former)

/-- A text is read as a signature if and only if it is the text of this signature, and every
signature is read from its text.  A text that is refused begins with a signature, and the error
says at which byte the signature ends and what stands there: a character that is no code, a marker
at the end of the text, or, one byte further, a character behind a marker that is no element.  Every
text is described in one of these four ways only. -/
theorem parse_reads_texts_exactly :
    (∀ signature : Signature, parse signature.text = .ok signature) ∧
    (∀ text signature, parse text = .ok signature ↔ signature.text = text) ∧
    (∀ text position code, parse text = .error (.unknownType position code) ↔
      ∃ before after, text = before ++ String.singleton code ++ after ∧
        before.utf8ByteSize = position ∧ (∃ former, parse before = .ok former) ∧
        code ≠ 'v' ∧ ∀ kind : ArgumentKind, kind.code ≠ [code]) ∧
    (∀ text position, parse text = .error (.missingElementType position) ↔
      ∃ before, text = before ++ "v" ∧ before.utf8ByteSize = position ∧
        ∃ former, parse before = .ok former) ∧
    (∀ text position code, parse text = .error (.invalidElementType position code) ↔
      ∃ before after, text = before ++ "v" ++ String.singleton code ++ after ∧
        before.utf8ByteSize + 1 = position ∧ (∃ former, parse before = .ok former) ∧
        code ∉ ['i', 'h', 'f', 'd']) ∧
    ∀ text, ∃! outcome, Describes text outcome := by
  refine ⟨?_, ?_, ?_, ?_, ?_, ?_⟩
  · intro signature
    exact (parse_eq_iff _ (.ok signature)).mpr rfl
  · intro text signature
    exact parse_eq_iff text (.ok signature)
  · intro text position code
    rw [parse_eq_iff]
    constructor
    · rintro ⟨former, after, textEq, size, isWrong⟩
      rw [List.mem_cons, not_or, mem_scalarCodes_iff, not_exists] at isWrong
      exact ⟨former.text, after, textEq, size, (parses_iff _).mpr ⟨former, rfl⟩, isWrong⟩
    · rintro ⟨before, after, textEq, size, parses, isWrong⟩
      obtain ⟨former, rfl⟩ := (parses_iff before).mp parses
      refine ⟨former, after, textEq, size, ?_⟩
      rw [List.mem_cons, not_or, mem_scalarCodes_iff, not_exists]
      exact isWrong
  · intro text position
    rw [parse_eq_iff]
    constructor
    · rintro ⟨former, textEq, size⟩
      exact ⟨former.text, textEq, size, (parses_iff _).mpr ⟨former, rfl⟩⟩
    · rintro ⟨before, textEq, size, parses⟩
      obtain ⟨former, rfl⟩ := (parses_iff before).mp parses
      exact ⟨former, textEq, size⟩
  · intro text position code
    rw [parse_eq_iff]
    constructor
    · rintro ⟨former, after, textEq, size, isWrong⟩
      exact ⟨former.text, after, textEq, size, (parses_iff _).mpr ⟨former, rfl⟩, isWrong⟩
    · rintro ⟨before, after, textEq, size, parses, isWrong⟩
      obtain ⟨former, rfl⟩ := (parses_iff before).mp parses
      exact ⟨former, after, textEq, size, isWrong⟩
  · intro text
    obtain ⟨outcome, describes⟩ := exists_describes text
    refine ⟨outcome, describes, ?_⟩
    intro other otherDescribes
    rw [← parse_of_describes describes, parse_of_describes otherDescribes]

example : parse "hvä" = .error (.invalidElementType 2 'ä') := by rfl

end Signature

end AudioBus
