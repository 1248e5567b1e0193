import AudioBus.Binary.Arithmetic

/-!
Documents: the values of JSON texts.  Whole numbers are kept apart from all others, so that a
setting that counts something can refuse `1.0`.
-/

namespace AudioBus

inductive Document where
  | null
  | bool (value : Bool)
  | whole (value : Int)
  | real (value : Binary64)
  | string (value : String)
  | list (items : List Document)
  | object (fields : List (String × Document))
deriving Inhabited

namespace Document

def asNat? : Document → Option Nat
  | .whole value => if 0 ≤ value then some value.toNat else none
  | _ => none

def asSeconds? : Document → Option Seconds
  | .whole value => some (Binary.ofDecimal (decide (value < 0)) value.natAbs 0)
  | .real value => some value
  | _ => none

def lookup (name : String) : List (String × Document) → Option Document
  | [] => none
  | field :: rest =>
      match lookup name rest with
      | some value => some value
      | none => if field.1 = name then some field.2 else none

def field? (document : Document) (name : String) : Option Document :=
  match document with
  | .object fields => lookup name fields
  | _ => none

/-- A record with these fields, given by name in an object or by position in a list.  In an object
other names are passed over; a list may be too short, but not too long. -/
def record? (names : List String) : Document → Option (List (Option Document))
  | .object fields => some (names.map fun name => lookup name fields)
  | .list items =>
      if items.length ≤ names.length then
        some (items.map some ++ List.replicate (names.length - items.length) none)
      else none
  | _ => none

end Document

end AudioBus
