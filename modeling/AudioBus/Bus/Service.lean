import AudioBus.Bus.Basic

/-!
Services provided by the local peer.  A service that is dropped takes the methods it implemented
with it, and no others.
-/

namespace AudioBus

structure Service where
  name : String
  methods : List String
deriving DecidableEq

def joinPath (address method : String) : Except BusError String :=
  let path := joinAddresses address method
  if isAddress path then .ok path else .error (.invalidPath path)

namespace Service

variable {η : Type}

def provide (bus : Bus η) (name : String) : Except BusError (Service × Bus η) :=
  if isServiceName name then .ok ({ name := name, methods := [] }, bus.acquire name)
  else .error (.invalidPath name)

/-- Binds a handler to a method below the service.  The signature is read first, then the path is
checked. -/
def implement (service : Service) (bus : Bus η) (method signature : String) (handler : η) :
    Except BusError (Service × Bus η) :=
  match Signature.parse signature with
  | .error cause => .error (.invalidSignature cause)
  | .ok signature =>
      match joinPath service.name method with
      | .error cause => .error cause
      | .ok path =>
          match bus.bind path signature handler with
          | .error cause => .error cause
          | .ok bound =>
              .ok ({ service with methods := service.methods ++ [path] },
                bound.note (.methodImplemented path))

def implementAll (service : Service) (bus : Bus η) :
    List (String × String × η) → Service × Bus η × Except BusError Unit
  | [] => (service, bus, .ok ())
  | (method, signature, handler) :: rest =>
      match service.implement bus method signature handler with
      | .error cause => (service, bus, .error cause)
      | .ok (extended, bound) => extended.implementAll bound rest

def drop (service : Service) (bus : Bus η) : Bus η :=
  (service.methods.foldl Bus.unbind bus).release service.name

end Service

end AudioBus
