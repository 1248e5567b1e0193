/-!
Hexadecimal text, in lower case.
-/

namespace AudioBus

def hexDigit (value : Nat) : Char :=
  ['0', '1', '2', '3', '4', '5', '6', '7', '8', '9', 'a', 'b', 'c', 'd', 'e', 'f'].getD value '0'

def hexFixed (value : Nat) : Nat → List Char
  | 0 => []
  | width + 1 => hexFixed (value / 16) width ++ [hexDigit (value % 16)]

def hexDigits (value : Nat) : List Char :=
  hexFixed value (value.log2 / 4 + 1)

end AudioBus
