import AudioBus.Codec.Scalar
import AudioBus.Message

/-!
Frames: messages as bytes.  A frame is a timestamp, a path and a list of arguments, each argument
behind the number of its type.
-/

namespace AudioBus

def ArgumentKind.Value : ArgumentKind → Type
  | .int32 => Int32
  | .int64 => Int64
  | .float => Binary32
  | .double => Binary64
  | .time => Seconds
  | .bool => Bool
  | .string => String
  | .symbol => String
  | .int32s => List Int32
  | .int64s => List Int64
  | .floats => List Binary32
  | .doubles => List Binary64

def Argument.toTyped : Argument → (kind : ArgumentKind) × kind.Value
  | .int32 value => ⟨.int32, value⟩
  | .int64 value => ⟨.int64, value⟩
  | .float value => ⟨.float, value⟩
  | .double value => ⟨.double, value⟩
  | .time value => ⟨.time, value⟩
  | .bool value => ⟨.bool, value⟩
  | .string value => ⟨.string, value⟩
  | .symbol value => ⟨.symbol, value⟩
  | .int32s values => ⟨.int32s, values⟩
  | .int64s values => ⟨.int64s, values⟩
  | .floats values => ⟨.floats, values⟩
  | .doubles values => ⟨.doubles, values⟩

def Argument.ofTyped : (kind : ArgumentKind) × kind.Value → Argument
  | ⟨.int32, value⟩ => .int32 value
  | ⟨.int64, value⟩ => .int64 value
  | ⟨.float, value⟩ => .float value
  | ⟨.double, value⟩ => .double value
  | ⟨.time, value⟩ => .time value
  | ⟨.bool, value⟩ => .bool value
  | ⟨.string, value⟩ => .string value
  | ⟨.symbol, value⟩ => .symbol value
  | ⟨.int32s, values⟩ => .int32s values
  | ⟨.int64s, values⟩ => .int64s values
  | ⟨.floats, values⟩ => .floats values
  | ⟨.doubles, values⟩ => .doubles values

theorem Argument.ofTyped_toTyped (argument : Argument) :
    Argument.ofTyped argument.toTyped = argument := by
  cases argument <;> rfl

def ArgumentKind.number : ArgumentKind → Nat
  | .int32 => 0
  | .int64 => 1
  | .float => 2
  | .double => 3
  | .time => 4
  | .bool => 5
  | .string => 6
  | .symbol => 7
  | .int32s => 8
  | .int64s => 9
  | .floats => 10
  | .doubles => 11

theorem ArgumentKind.all_getElem?_number (kind : ArgumentKind) :
    ArgumentKind.all[kind.number]? = some kind := by
  cases kind <;> rfl

namespace Codec

def argumentKind : Codec ArgumentKind :=
  varint32.refine (fun number => ArgumentKind.all[number]?) ArgumentKind.number

def argumentValue : (kind : ArgumentKind) → Codec kind.Value
  | .int32 => int32
  | .int64 => int64
  | .float => binary32
  | .double => binary64
  | .time => binary64
  | .bool => bool
  | .string => string
  | .symbol => string
  | .int32s => int32.list
  | .int64s => int64.list
  | .floats => binary32.list
  | .doubles => binary64.list

def argument : Codec Argument :=
  (dependent argumentKind argumentValue).imap Argument.ofTyped Argument.toTyped

def message : Codec Message :=
  (binary64.pair (string.pair argument.list)).imap
    (fun fields =>
      { timestamp := fields.1, path := fields.2.1, arguments := fields.2.2 })
    (fun message => (message.timestamp, message.path, message.arguments))

end Codec

def Message.encode (message : Message) : List UInt8 :=
  Codec.message.write message

def Message.decode (frame : List UInt8) : Except DecodeError Message :=
  Codec.message.read.run frame

end AudioBus
