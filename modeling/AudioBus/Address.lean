import AudioBus.Text.Quoted

/-!
Addresses: slash-separated segments, none of them empty.  The first segment of a message's path
names a service, the others a method of that service.
-/

namespace AudioBus

def segments : List Char → List (List Char)
  | [] => [[]]
  | c :: rest =>
      if c = '/' then [] :: segments rest
      else
        match segments rest with
        | [] => [[c]]
        | first :: others => (c :: first) :: others

/-- Whether text is a sequence of non-empty segments, at least one. -/
def isAddress (text : String) : Bool :=
  (segments text.toList).all fun segment => !segment.isEmpty

def firstSegment (text : String) : String :=
  String.ofList (text.toList.takeWhile (· ≠ '/'))

def belowFirstSegment? (text : String) : Option String :=
  match text.toList.dropWhile (· ≠ '/') with
  | [] => none
  | _ :: rest => some (String.ofList rest)

/-- A path as its service and the method below it; nothing when the path is not an address or
has no method. -/
def splitPath? (path : String) : Option (String × String) :=
  if isAddress path then
    (belowFirstSegment? path).map fun method => (firstSegment path, method)
  else none

def joinAddresses (address method : String) : String :=
  address ++ "/" ++ method

def isServiceName (text : String) : Bool :=
  !text.isEmpty && !text.toList.contains '/'

end AudioBus
