import AudioBus.Argument

/-!
Signatures: the argument types a method declares, written as one code after another.
-/

namespace AudioBus

structure Signature where
  kinds : List ArgumentKind
deriving DecidableEq, Inhabited

/-- Why text is not a signature.  Positions count bytes. -/
inductive SignatureError where
  | unknownType (position : Nat) (code : Char)
  | missingElementType (position : Nat)
  | invalidElementType (position : Nat) (code : Char)
deriving DecidableEq

def SignatureError.message : SignatureError → String
  | .unknownType position code =>
      s!"unknown type code '{code}' at position {position}"
  | .missingElementType position =>
      s!"vector marker at position {position} has no element type"
  | .invalidElementType position code =>
      s!"invalid vector element type '{code}' at position {position}"

namespace Signature

def parseFrom (position : Nat) : List Char → Except SignatureError (List ArgumentKind)
  | [] => .ok []
  | code :: rest =>
      if code = 'v' then
        match rest with
        | [] => .error (.missingElementType position)
        | element :: rest =>
            match ArgumentKind.ofElementCode? element with
            | none => .error (.invalidElementType (position + 1) element)
            | some kind =>
                (parseFrom (position + 1 + element.utf8Size) rest).map (kind :: ·)
      else
        match ArgumentKind.ofScalarCode? code with
        | none => .error (.unknownType position code)
        | some kind => (parseFrom (position + code.utf8Size) rest).map (kind :: ·)

/-- The signature that a text writes.  The empty text is the signature without arguments. -/
def parse (text : String) : Except SignatureError Signature :=
  (parseFrom 0 text.toList).map Signature.mk

def codes (signature : Signature) : List Char :=
  signature.kinds.flatMap ArgumentKind.code

def text (signature : Signature) : String :=
  String.ofList signature.codes

instance : ToString Signature where
  toString := text

def ofArguments (arguments : List Argument) : Signature where
  kinds := arguments.map Argument.kind

def matchKinds : List ArgumentKind → List Argument → Bool
  | [], [] => true
  | expected :: kinds, argument :: arguments =>
      ArgumentKind.accepts expected argument.kind && matchKinds kinds arguments
  | _, _ => false

def accepts (signature : Signature) (arguments : List Argument) : Bool :=
  matchKinds signature.kinds arguments

end Signature

end AudioBus
