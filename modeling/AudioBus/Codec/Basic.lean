/-!
Codecs: how a value is written as bytes and read back from the front of a byte string.
-/

namespace AudioBus

inductive DecodeError where
  | unexpectedEnd
  | badVarint
  | badBool
  | badUtf8
  | badChar
  | badOption
  | badValue
deriving DecidableEq

def DecodeError.message : DecodeError → String
  | .unexpectedEnd => "Hit the end of buffer, expected more data"
  | .badVarint => "Found a varint that didn't terminate. Is the usize too big for this platform?"
  | .badBool => "Found a bool that wasn't 0 or 1"
  | .badUtf8 => "Tried to parse invalid utf-8"
  | .badChar => "Found an invalid unicode char"
  | .badOption => "Found an Option discriminant that wasn't 0 or 1"
  | .badValue => "Serde Deserialization Error"

/-- Reads a value from the front of a byte string and hands back the bytes behind it. -/
abbrev Reader (α : Type) := List UInt8 → Except DecodeError (α × List UInt8)

structure Codec (α : Type) where
  write : α → List UInt8
  read : Reader α

variable {α β : Type}

namespace Reader

def pure (value : α) : Reader α :=
  fun bytes => .ok (value, bytes)

def fail (cause : DecodeError) : Reader α :=
  fun _ => .error cause

def bind (reader : Reader α) (next : α → Reader β) : Reader β :=
  fun bytes =>
    match reader bytes with
    | .error cause => .error cause
    | .ok (value, rest) => next value rest

def map (reader : Reader α) (change : α → β) : Reader β :=
  reader.bind fun value => pure (change value)

def mapOption (reader : Reader α) (change : α → Option β) (cause : DecodeError) : Reader β :=
  reader.bind fun value =>
    match change value with
    | none => fail cause
    | some result => pure result

def byte : Reader UInt8
  | [] => .error .unexpectedEnd
  | first :: rest => .ok (first, rest)

def many (reader : Reader α) : Nat → Reader (List α)
  | 0 => pure []
  | count + 1 => reader.bind fun first => (many reader count).map (first :: ·)

def bytes (count : Nat) : Reader (List UInt8) :=
  many byte count

def run (reader : Reader α) (bytes : List UInt8) : Except DecodeError α :=
  (reader bytes).map Prod.fst

end Reader

namespace Codec

def imap (codec : Codec α) (forth : α → β) (back : β → α) : Codec β where
  write value := codec.write (back value)
  read := codec.read.map forth

def refine (codec : Codec α) (forth : α → Option β) (back : β → α) : Codec β where
  write value := codec.write (back value)
  read := codec.read.mapOption forth .badValue

def pair (first : Codec α) (second : Codec β) : Codec (α × β) where
  write value := first.write value.1 ++ second.write value.2
  read := first.read.bind fun left => second.read.map fun right => (left, right)

def dependent {γ : α → Type} (first : Codec α) (second : (a : α) → Codec (γ a)) :
    Codec ((a : α) × γ a) where
  write value := first.write value.1 ++ (second value.1).write value.2
  read := first.read.bind fun left => (second left).read.map fun right => ⟨left, right⟩

end Codec

end AudioBus
