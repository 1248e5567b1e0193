import AudioBus.Binary.Decimal

/-!
Floating-point numbers as text.  Messages and log lines write a number positionally whatever its
size; descriptions of values use powers of ten for the very large and the very small.
-/

namespace AudioBus

structure DecimalLayout where
  positional : Int → Bool
  pointZero : Bool

namespace DecimalLayout

/-- Numbers within messages: `100`, `0.00000001`. -/
def message : DecimalLayout where
  positional := fun _ => true
  pointZero := false

/-- Numbers within descriptions: `100.0`, `1e-8`. -/
def description : DecimalLayout where
  positional := fun exponent => decide (-4 ≤ exponent ∧ exponent < 16)
  pointZero := true

def zeros (count : Nat) : List Char :=
  List.replicate count '0'

def positionalDigits (layout : DecimalLayout) (digits : List Char) (exponent : Int) : List Char :=
  let whole := (digits.length : Int) + exponent
  if 0 ≤ exponent then
    digits ++ zeros exponent.toNat ++ (if layout.pointZero then ['.', '0'] else [])
  else if 0 < whole then
    digits.take whole.toNat ++ '.' :: digits.drop whole.toNat
  else
    '0' :: '.' :: (zeros (-whole).toNat ++ digits)

def scientificDigits (digits : List Char) (leading : Int) : List Char :=
  let fraction := digits.drop 1
  digits.take 1 ++ (if fraction.isEmpty then [] else '.' :: fraction) ++
    'e' :: (toString leading).toList

def render (layout : DecimalLayout) (decimal : Decimal) : List Char :=
  let digits := (toString decimal.digits).toList
  let leading := (digits.length : Int) + decimal.exponent - 1
  if decimal.digits = 0 || layout.positional leading then
    layout.positionalDigits digits decimal.exponent
  else scientificDigits digits leading

end DecimalLayout

namespace Binary

variable {F : Format}

def text (layout : DecimalLayout) (x : Binary F) : String :=
  if x.isNaN then "NaN"
  else
    let sign := if x.negative then ['-'] else []
    let size :=
      if x.isInfinite then ['i', 'n', 'f']
      else layout.render x.shortest
    String.ofList (sign ++ size)

instance : ToString (Binary F) where
  toString := text DecimalLayout.message

end Binary

end AudioBus
