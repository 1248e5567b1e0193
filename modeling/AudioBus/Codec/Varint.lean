import AudioBus.Codec.Basic

/-!
Numbers in groups of seven bits, lowest group first; every byte but the last has its top bit set.

A number may be written with more groups than it needs, up to as many as the widest number of its
width takes, but no bit beyond the width may be set.
-/

namespace AudioBus

def writeVarint (value : Nat) : List UInt8 :=
  if value < 128 then [UInt8.ofNat value]
  else UInt8.ofNat (value % 128 + 128) :: writeVarint (value / 128)
termination_by value
decreasing_by omega

def readVarint (lastLimit : Nat) : Nat → Reader Nat
  | 0 => Reader.fail .badVarint
  | groups + 1 =>
      Reader.byte.bind fun byte =>
        if byte.toNat < 128 then
          if groups = 0 ∧ lastLimit < byte.toNat then Reader.fail .badVarint
          else Reader.pure byte.toNat
        else
          (readVarint lastLimit groups).map fun higher => byte.toNat % 128 + 128 * higher

namespace Codec

def varint32 : Codec Nat where
  write := writeVarint
  read := readVarint 15 5

def varint64 : Codec Nat where
  write := writeVarint
  read := readVarint 1 10

end Codec

/-- A signed number as an unsigned one: zero, minus one, one, minus two, two, … -/
def zigzag (value : Int) : Nat :=
  if 0 ≤ value then 2 * value.toNat else 2 * (-value - 1).toNat + 1

def unzigzag (value : Nat) : Int :=
  if value % 2 = 0 then (value / 2 : Nat) else -((value / 2 : Nat) : Int) - 1

theorem unzigzag_zigzag (value : Int) : unzigzag (zigzag value) = value := by
  unfold unzigzag zigzag
  split <;> split <;> omega

namespace Codec

def int32 : Codec Int32 :=
  varint32.imap (fun code => Int32.ofInt (unzigzag code)) (fun value => zigzag value.toInt)

def int64 : Codec Int64 :=
  varint64.imap (fun code => Int64.ofInt (unzigzag code)) (fun value => zigzag value.toInt)

def list {α : Type} (codec : Codec α) : Codec (List α) where
  write values := writeVarint values.length ++ values.flatMap codec.write
  read := varint64.read.bind fun count => codec.read.many count

end Codec

end AudioBus
