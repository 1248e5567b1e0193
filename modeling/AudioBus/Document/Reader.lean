import AudioBus.Document.Basic

/-!
Reading documents from JSON text.
-/

namespace AudioBus.Document

abbrev TextReader (α : Type) := List Char → Option (α × List Char)

def isBlank (c : Char) : Bool :=
  c = ' ' || c = '\n' || c = '\t' || c = '\r'

def skipBlanks (text : List Char) : List Char :=
  text.dropWhile isBlank

def hexValue? (c : Char) : Option Nat :=
  if '0' ≤ c ∧ c ≤ '9' then some (c.toNat - '0'.toNat)
  else if 'a' ≤ c ∧ c ≤ 'f' then some (c.toNat - 'a'.toNat + 10)
  else if 'A' ≤ c ∧ c ≤ 'F' then some (c.toNat - 'A'.toNat + 10)
  else none

def hexNumber? (digits : List Char) : Option Nat :=
  digits.foldl
    (fun value digit => do
      let value ← value
      let next ← hexValue? digit
      return 16 * value + next)
    (some 0)

def readCodeUnit : TextReader Nat
  | a :: b :: c :: d :: rest => (hexNumber? [a, b, c, d]).map fun value => (value, rest)
  | _ => none

theorem readCodeUnit_length {text rest : List Char} {unit : Nat}
    (read : readCodeUnit text = some (unit, rest)) : rest.length < text.length := by
  unfold readCodeUnit at read
  split at read
  · obtain ⟨_, _, same⟩ := Option.map_eq_some_iff.mp read
    cases same
    simp only [List.length_cons]
    omega
  · cases read

def simpleEscape? : Char → Option Char
  | '"' => some '"'
  | '\\' => some '\\'
  | '/' => some '/'
  | 'b' => some '\x08'
  | 'f' => some '\x0c'
  | 'n' => some '\n'
  | 'r' => some '\r'
  | 't' => some '\t'
  | _ => none

def readSecondUnit : TextReader Nat
  | '\\' :: 'u' :: rest =>
      (readCodeUnit rest).filter fun read => decide (0xDC00 ≤ read.1 ∧ read.1 < 0xE000)
  | _ => none

theorem readSecondUnit_length {text rest : List Char} {unit : Nat}
    (read : readSecondUnit text = some (unit, rest)) : rest.length < text.length := by
  unfold readSecondUnit at read
  split at read
  · have shorter := readCodeUnit_length (Option.filter_eq_some_iff.mp read).1
    simp only [List.length_cons]
    omega
  · cases read

/-- The character an escape stands for, its backslash already read.  Characters beyond the first
plane are written as two code units. -/
def readEscape : TextReader Char
  | 'u' :: rest =>
      match readCodeUnit rest with
      | none => none
      | some (unit, rest) =>
          if 0xD800 ≤ unit ∧ unit < 0xDC00 then
            (readSecondUnit rest).map fun (second, rest) =>
              (Char.ofNat (0x10000 + (unit - 0xD800) * 0x400 + (second - 0xDC00)), rest)
          else if 0xDC00 ≤ unit ∧ unit < 0xE000 then none
          else some (Char.ofNat unit, rest)
  | c :: rest => (simpleEscape? c).map fun value => (value, rest)
  | [] => none

theorem readEscape_length {text rest : List Char} {c : Char}
    (read : readEscape text = some (c, rest)) : rest.length < text.length := by
  unfold readEscape at read
  split at read
  · split at read
    · cases read
    · rename_i unit afterUnit unitRead
      have unitShorter := readCodeUnit_length unitRead
      rw [List.length_cons]
      split at read
      · obtain ⟨⟨second, afterSecond⟩, secondRead, same⟩ := Option.map_eq_some_iff.mp read
        have secondShorter := readSecondUnit_length secondRead
        rw [← (Prod.mk.inj same).2]
        omega
      · split at read
        · cases read
        · rw [← (Prod.mk.inj (Option.some.inj read)).2]
          omega
  · obtain ⟨_, _, same⟩ := Option.map_eq_some_iff.mp read
    cases same
    exact Nat.lt_succ_self _
  · cases read

def readQuoted (text : List Char) : Option (List Char × List Char) :=
  match text with
  | [] => none
  | '"' :: rest => some ([], rest)
  | '\\' :: rest =>
      match _escape : readEscape rest with
      | none => none
      | some (c, behind) => (readQuoted behind).map fun (others, rest) => (c :: others, rest)
  | c :: rest => (readQuoted rest).map fun (others, rest) => (c :: others, rest)
termination_by text.length
decreasing_by
  · have shorter := readEscape_length _escape
    simp only [List.length_cons]
    omega
  · simp only [List.length_cons]
    omega

def digitsValue (digits : List Char) : Nat :=
  digits.foldl (fun value digit => 10 * value + (digit.toNat - '0'.toNat)) 0

def takeDigits (text : List Char) : List Char × List Char :=
  (text.takeWhile Char.isDigit, text.dropWhile Char.isDigit)

def readFraction : TextReader (Option (List Char))
  | '.' :: rest =>
      let (digits, rest) := takeDigits rest
      if digits.isEmpty then none else some (some digits, rest)
  | text => some (none, text)

def readExponent (text : List Char) : Option (Option Int × List Char) :=
  match text with
  | mark :: rest =>
      if mark = 'e' || mark = 'E' then
        let (negative, rest) :=
          match rest with
          | '-' :: rest => (true, rest)
          | '+' :: rest => (false, rest)
          | rest => (false, rest)
        let (digits, rest) := takeDigits rest
        let size : Int := digitsValue digits
        if digits.isEmpty then none else some (some (if negative then -size else size), rest)
      else some (none, text)
  | [] => some (none, text)

/-- What a number literal stands for.  It is whole when it has neither a point nor a power of ten
and fits into 64 bits; the negative zero is not whole. -/
def ofLiteral (negative : Bool) (digits : List Char) (fraction : Option (List Char))
    (exponent : Option Int) : Document :=
  let value := digitsValue digits
  let fits :=
    if negative then 0 < value && value ≤ 0x8000_0000_0000_0000
    else value < 0x1_0000_0000_0000_0000
  if fraction.isNone && exponent.isNone && fits then
    .whole (if negative then -(value : Int) else value)
  else
    let places := fraction.getD []
    .real (Binary.ofDecimal negative (digitsValue (digits ++ places))
      (exponent.getD 0 - places.length))

def readNumber : TextReader Document := fun text => do
  let (negative, text) :=
    match text with
    | '-' :: rest => (true, rest)
    | rest => (false, rest)
  let (digits, rest) := takeDigits text
  if digits.isEmpty then none
  else
    let (fraction, rest) ← readFraction rest
    let (exponent, rest) ← readExponent rest
    return (ofLiteral negative digits fraction exponent, rest)

def readWord (word : List Char) (text : List Char) : Option (List Char) :=
  if word.isPrefixOf text then some (text.drop word.length) else none

mutual

/-- The value at the front of a text.  Every step reads at least one character. -/
def readValue : Nat → TextReader Document
  | 0, _ => none
  | steps + 1, text =>
      match skipBlanks text with
      | '\x7b' :: rest =>
          match skipBlanks rest with
          | '\x7d' :: rest => some (.object [], rest)
          | rest => (readFields steps rest).map fun (fields, rest) => (.object fields, rest)
      | '[' :: rest =>
          match skipBlanks rest with
          | ']' :: rest => some (.list [], rest)
          | rest => (readItems steps rest).map fun (items, rest) => (.list items, rest)
      | '"' :: rest =>
          (readQuoted rest).map fun (value, rest) =>
            (.string (String.ofList value), rest)
      | 'n' :: rest => (readWord ['u', 'l', 'l'] rest).map fun rest => (.null, rest)
      | 't' :: rest => (readWord ['r', 'u', 'e'] rest).map fun rest => (.bool true, rest)
      | 'f' :: rest => (readWord ['a', 'l', 's', 'e'] rest).map fun rest => (.bool false, rest)
      | text => readNumber text

def readItems : Nat → TextReader (List Document)
  | 0, _ => none
  | steps + 1, text => do
      let (item, rest) ← readValue steps text
      match skipBlanks rest with
      | ']' :: rest => return ([item], rest)
      | ',' :: rest =>
          let (items, rest) ← readItems steps rest
          return (item :: items, rest)
      | _ => none

def readFields : Nat → TextReader (List (String × Document))
  | 0, _ => none
  | steps + 1, text =>
      match skipBlanks text with
      | '"' :: rest => do
          let (name, rest) ← readQuoted rest
          match skipBlanks rest with
          | ':' :: rest =>
              let (value, rest) ← readValue steps rest
              match skipBlanks rest with
              | '\x7d' :: rest => return ([(String.ofList name, value)], rest)
              | ',' :: rest =>
                  let (fields, rest) ← readFields steps rest
                  return ((String.ofList name, value) :: fields, rest)
              | _ => none
          | _ => none
      | _ => none

end

def ofText? (text : String) : Option Document := do
  let characters := text.toList
  let (document, rest) ← readValue characters.length characters
  if (skipBlanks rest).isEmpty then return document else none

end AudioBus.Document
