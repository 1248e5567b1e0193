import AudioBus.Codec.Basic
import AudioBus.Signature
import AudioBus.Text.Quoted

/-!
Why a bus operation is refused.
-/

namespace AudioBus

inductive BusError where
  | undecodable (cause : DecodeError)
  | invalidSignature (cause : SignatureError)
  | invalidPath (path : String)
  | methodExists (path : String)
deriving DecidableEq

def BusError.message : BusError → String
  | .undecodable cause => s!"failed to decode message: {cause.message}"
  | .invalidSignature cause => s!"invalid typestring: {cause.message}"
  | .invalidPath path => s!"invalid path: {quoted path}"
  | .methodExists path => s!"method already implemented: {path}"

end AudioBus
