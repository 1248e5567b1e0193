import AudioBus.Text.Hex

/-!
Identities of streams.
-/

namespace AudioBus

structure StreamId where
  value : Int64
deriving DecidableEq, Inhabited

namespace StreamId

def text (id : StreamId) : String :=
  String.ofList (hexFixed id.value.toUInt64.toNat 16)

instance : ToString StreamId where
  toString := text

end StreamId

end AudioBus
