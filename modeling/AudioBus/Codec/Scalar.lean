import AudioBus.Binary.Basic
import AudioBus.Codec.Varint

/-!
Codecs of truth values, floating-point numbers, text and optional values.
-/

namespace AudioBus

def littleEndian (value : Nat) : Nat → List UInt8
  | 0 => []
  | count + 1 => UInt8.ofNat (value % 256) :: littleEndian (value / 256) count

def ofLittleEndian : List UInt8 → Nat
  | [] => 0
  | byte :: rest => byte.toNat + 256 * ofLittleEndian rest

theorem ofLittleEndian_littleEndian (value count : Nat) :
    ofLittleEndian (littleEndian value count) = value % Nat.pow 256 count := by
  induction count generalizing value with
  | zero => simp [littleEndian, ofLittleEndian, Nat.mod_one]
  | succ count inductionHypothesis =>
      have lowByte : (UInt8.ofNat (value % 256)).toNat = value % 256 := by
        simp [UInt8.toNat_ofNat']
      have oneMoreByte : Nat.pow 256 (count + 1) = 256 * Nat.pow 256 count :=
        Nat.mul_comm (Nat.pow 256 count) 256
      rw [littleEndian, ofLittleEndian, inductionHypothesis, lowByte, oneMoreByte, Nat.mod_mul]

def textOfBytes? (bytes : List UInt8) : Option String :=
  String.fromUTF8? bytes.toByteArray

def bytesOfText (text : String) : List UInt8 :=
  text.toUTF8.toList

def charOfBytes? (bytes : List UInt8) : Option Char :=
  (textOfBytes? bytes).bind fun text => text.toList.head?

namespace Codec

def bool : Codec Bool where
  write value := [if value then 1 else 0]
  read := Reader.byte.mapOption
    (fun byte => if byte = 0 then some false else if byte = 1 then some true else none) .badBool

def binary32 : Codec Binary32 where
  write value := littleEndian value.toBits 4
  read := (Reader.bytes 4).map fun bytes => Binary.ofBits (ofLittleEndian bytes)

def binary64 : Codec Binary64 where
  write value := littleEndian value.toBits 8
  read := (Reader.bytes 8).map fun bytes => Binary.ofBits (ofLittleEndian bytes)

def string : Codec String where
  write text := writeVarint (bytesOfText text).length ++ bytesOfText text
  read := varint64.read.bind fun count =>
    (Reader.bytes count).mapOption textOfBytes? .badUtf8

/-- A character as the text of that character.  No longer text is looked at. -/
def char : Codec Char where
  write c := string.write (String.singleton c)
  read := varint64.read.bind fun count =>
    if 4 < count then Reader.fail .badChar
    else (Reader.bytes count).mapOption charOfBytes? .badChar

def option {α : Type} (codec : Codec α) : Codec (Option α) where
  write
    | none => [0]
    | some value => 1 :: codec.write value
  read := Reader.byte.bind fun byte =>
    if byte = 0 then Reader.pure none
    else if byte = 1 then codec.read.map some
    else Reader.fail .badOption

end Codec

end AudioBus
