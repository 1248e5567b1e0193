import AudioBus.Proofs.Bus.Providers
import AudioBus.Proofs.Mixer.Run
import AudioBus.Proofs.Receiver.Ownership
import Mathlib.Data.List.Find

/-!
Creating a receiver is all or nothing.  One that is refused leaves the bus as it was, whatever was
bound there before, and one that is created and dropped at once leaves nothing behind.  Which of the
two it will be can be read off the names, the configuration and the table of methods.
-/

namespace AudioBus

namespace Bus

variable {η : Type} {former later : Bus η}

def SameButNotes (former later : Bus η) : Prop :=
  ∃ journal, later = { former with journal := journal }

theorem SameButRegistry.sameButNotes (same : former.SameButRegistry later)
    (services : later.services = former.services)
    (methods : later.methods.entries = former.methods.entries) : former.SameButNotes later := by
  have sameMethods := Table.eq_of_entries methods
  obtain ⟨_, _, journal, laterEq⟩ := same
  subst laterEq
  subst services
  subst sameMethods
  exact ⟨journal, rfl⟩

theorem SameButNotes.status (same : former.SameButNotes later) (name : String) :
    later.status name = former.status name := by
  obtain ⟨_, laterEq⟩ := same
  rw [laterEq]
  rfl

end Bus

theorem Service.drop_services {η : Type} {service : Service} {bus held : Bus η} (room : bus.HasRoom)
    (acquired : held.services = (bus.acquire service.name).services) :
    (service.drop held).services = bus.services :=
  room.release_services ((held.unbindAll_spec service.methods).2.1.trans acquired)

/-! ### What refuses a receiver -/

def Bus.firstBound? {η : Type} (bus : Bus η) (paths : List String) : Option String :=
  paths.find? bus.methods.contains

namespace Service

variable {η : Type}

def pathOf (service : Service) (method : String × String × η) : String :=
  joinAddresses service.name method.1

theorem implement_of_invalid {service : Service} {method text : String} {signature : Signature}
    (readable : Signature.parse text = .ok signature)
    (invalid : isAddress (joinAddresses service.name method) = false) (bus : Bus η) (handler : η) :
    service.implement bus method text handler =
      .error (.invalidPath (joinAddresses service.name method)) := by
  simp [implement, joinPath, readable, invalid]

theorem implement_of_bound {service : Service} {bus : Bus η} {method text : String}
    {signature : Signature} (readable : Signature.parse text = .ok signature)
    (valid : isAddress (joinAddresses service.name method) = true)
    (taken : bus.methods.contains (joinAddresses service.name method) = true) (handler : η) :
    service.implement bus method text handler =
      .error (.methodExists (joinAddresses service.name method)) := by
  simp [implement, joinPath, readable, valid, Bus.bind, taken]

theorem implement_of_free {service : Service} {bus : Bus η} {method text : String}
    {signature : Signature} (readable : Signature.parse text = .ok signature)
    (valid : isAddress (joinAddresses service.name method) = true)
    (free : bus.methods.contains (joinAddresses service.name method) = false) (handler : η) :
    ∃ extended next, service.implement bus method text handler = .ok (extended, next) ∧
      extended.name = service.name ∧
      ∀ path, path ≠ joinAddresses service.name method →
        next.methods.contains path = bus.methods.contains path := by
  have implemented : ∃ result, service.implement bus method text handler = .ok result := by
    simp [implement, joinPath, readable, valid, Bus.bind, free]
  obtain ⟨⟨extended, next⟩, implemented⟩ := implemented
  obtain ⟨extendedEq, _, _, _, _, adds⟩ := implement_spec implemented
  have sameName : extended.name = service.name := by rw [extendedEq]
  exact ⟨extended, next, implemented, sameName,
    fun path different => congrArg Option.isSome (adds.find?_of_ne different)⟩

/-- Methods that can be read, at distinct addresses, are all bound unless one of the paths is
already: then the first such path is to blame. -/
theorem implementAll_result {service : Service} (bus : Bus η)
    {methods : List (String × String × η)}
    (readable : ∀ method ∈ methods, ∃ signature, Signature.parse method.2.1 = .ok signature)
    (valid : ∀ method ∈ methods, isAddress (service.pathOf method) = true)
    (distinct : (methods.map service.pathOf).Nodup) :
    (service.implementAll bus methods).2.2 =
      (bus.firstBound? (methods.map service.pathOf)).elim (.ok ())
        fun path => .error (.methodExists path) := by
  induction methods generalizing service bus with
  | nil => rfl
  | cons first rest inductionHypothesis =>
      obtain ⟨method, text, handler⟩ := first
      obtain ⟨signature, parsed⟩ := readable _ List.mem_cons_self
      have isValid := valid _ List.mem_cons_self
      rw [List.map_cons, List.nodup_cons] at distinct
      unfold implementAll Bus.firstBound?
      rw [List.map_cons]
      cases taken : bus.methods.contains (service.pathOf (method, text, handler)) with
      | true =>
          rw [implement_of_bound parsed isValid taken, List.find?_cons_of_pos taken]
          rfl
      | false =>
          obtain ⟨extended, next, implemented, sameName, others⟩ :=
            implement_of_free parsed isValid taken handler
          have samePaths :
              (service.pathOf : String × String × η → String) = extended.pathOf := by
            funext other
            exact congrArg (joinAddresses · other.1) sameName.symm
          -- What was bound just now is none of the later paths, so it is in nobody's way.
          have sameBound : (rest.map service.pathOf).find? bus.methods.contains =
              (rest.map service.pathOf).find? next.methods.contains := by
            apply List.find?_congr
            intro path isPath
            have different : path ≠ service.pathOf (method, text, handler) := by
              intro same
              rw [same] at isPath
              exact distinct.1 isPath
            exact (others path different).symm
          rw [implemented, List.find?_cons_of_neg (Bool.eq_false_iff.mp taken), sameBound]
          rw [samePaths] at valid distinct ⊢
          exact inductionHypothesis next
            (fun other isMember => readable other (List.mem_cons_of_mem _ isMember))
            (fun other isMember => valid other (List.mem_cons_of_mem _ isMember)) distinct.2

end Service

namespace Receiver

variable {η : Type}

/-- What refuses a receiver: its configuration, the name of its service, its endpoint, or a path
that is bound already. -/
def refusal? (bus : Bus η) (service endpoint : String) (config : ReceiverConfig) :
    Option EndpointError :=
  match config.validate with
  | .error cause => some (.config cause)
  | .ok () =>
      if !isServiceName service then some (.bus (.invalidPath service))
      else if !isAddress endpoint then
        some (.bus (.invalidPath
          (joinAddresses (joinAddresses service endpoint) StreamMethod.sync.name)))
      else
        (bus.firstBound? (paths (joinAddresses service endpoint))).map fun path =>
          .bus (.methodExists path)

theorem paths_nodup (address : String) : (paths address).Nodup := by
  apply List.Nodup.map_on
  · intro method _ other _ same
    exact (joinAddresses_inj same).2
  · decide

theorem methodsOf_paths (handler : StreamMethod → η) (service endpoint : String) :
    (methodsOf handler endpoint).map (Service.pathOf { name := service, methods := [] }) =
      paths (joinAddresses service endpoint) := by
  unfold methodsOf paths
  rw [List.map_map]
  apply List.map_congr_left
  intro method _
  exact joinAddresses_assoc service endpoint method.name

theorem implementAll_methodsOf (handler : StreamMethod → η) (bus : Bus η)
    {service endpoint : String} (isName : isServiceName service = true)
    (isEndpoint : isAddress endpoint = true) :
    (Service.implementAll { name := service, methods := [] } bus
        (methodsOf handler endpoint)).2.2 =
      (bus.firstBound? (paths (joinAddresses service endpoint))).elim (.ok ())
        fun path => .error (.methodExists path) := by
  rw [← methodsOf_paths handler]
  apply Service.implementAll_result
  case readable =>
    intro method isMember
    obtain ⟨stream, _, methodEq⟩ := List.mem_map.mp isMember
    rw [← methodEq]
    exact ⟨_, stream.parse_signature⟩
  case valid =>
    intro method isMember
    obtain ⟨stream, _, methodEq⟩ := List.mem_map.mp isMember
    rw [← methodEq]
    refine (isAddress_joinAddresses _ _).mpr ⟨isAddress_of_isServiceName isName, ?_⟩
    exact (isAddress_joinAddresses _ _).mpr ⟨isEndpoint, stream.isAddress_name⟩
  case distinct =>
    rw [methodsOf_paths]
    exact paths_nodup _

theorem implementAll_methodsOf_of_invalid (handler : StreamMethod → η) (bus : Bus η)
    (service : String) {endpoint : String} (invalid : isAddress endpoint = false) :
    (Service.implementAll { name := service, methods := [] } bus
        (methodsOf handler endpoint)).2.2 =
      .error (.invalidPath
        (joinAddresses (joinAddresses service endpoint) StreamMethod.sync.name)) := by
  let provided : Service := { name := service, methods := [] }
  have isInvalid : isAddress
      (joinAddresses provided.name (joinAddresses endpoint StreamMethod.sync.name)) = false := by
    rw [← Bool.not_eq_true, isAddress_joinAddresses, isAddress_joinAddresses, invalid]
    simp
  have refused := Service.implement_of_invalid StreamMethod.sync.parse_signature isInvalid bus
    (handler .sync)
  rw [joinAddresses_assoc] at refused
  change (Service.implementAll _ bus (_ :: _)).2.2 = _
  unfold Service.implementAll
  rw [refused]

theorem create_error_iff (handler : StreamMethod → η) (bus : Bus η) (service endpoint : String)
    (config : ReceiverConfig) (cause : EndpointError) :
    (create handler bus service endpoint config).2 = .error cause ↔
      refusal? bus service endpoint config = some cause := by
  have sameBound (paths : List String) :
      (bus.acquire service).firstBound? paths = bus.firstBound? paths := by
    unfold Bus.firstBound?
    rw [(bus.acquire_spec service).2.1]
  unfold create Service.provide refusal? Mixer.create
  cases validated : config.validate with
  | error fault => simp [Except.map]
  | ok done =>
      cases isName : isServiceName service with
      | false => simp [Except.map]
      | true =>
          simp only [Except.map, if_true, Bool.not_true, Bool.false_eq_true, if_false]
          cases outcome : Service.implementAll { name := service, methods := [] }
              (bus.acquire service) (methodsOf handler endpoint) with
          | mk extended rest =>
              obtain ⟨held, result⟩ := rest
              cases isEndpoint : isAddress endpoint with
              | false =>
                  have blamed := implementAll_methodsOf_of_invalid handler (bus.acquire service)
                    service isEndpoint
                  rw [outcome] at blamed
                  rw [blamed]
                  simp
              | true =>
                  have begun := implementAll_methodsOf handler (bus.acquire service) isName
                    isEndpoint
                  rw [outcome, sameBound] at begun
                  rw [begun]
                  cases bus.firstBound? (paths (joinAddresses service endpoint)) with
                  | none => simp
                  | some path => simp

/-! ### All or nothing -/

theorem create_refused {handler : StreamMethod → η} {bus next : Bus η} (room : bus.HasRoom)
    {service endpoint : String} {config : ReceiverConfig} {cause : EndpointError}
    (refused : create handler bus service endpoint config = (next, .error cause)) :
    bus.SameButNotes next := by
  obtain ⟨changed, entries, atOnce | ⟨extended, held, name, acquired, dropped⟩⟩ :=
    create_error refused
  · exact ⟨_, atOnce⟩
  · -- Methods come and go without the services, so the drop finds the count as it was acquired.
    rw [← name] at acquired
    have services : next.services = bus.services := by
      rw [dropped]
      exact Service.drop_services room acquired
    exact changed.sameButNotes services entries

variable {handler : StreamMethod → η} {bus next : Bus η} {service endpoint : String}
  {config : ReceiverConfig} {receiver : Receiver} {mixer : Mixer Seconds}

theorem Created.drop
    (created : Created handler bus next service endpoint config receiver mixer)
    (room : bus.HasRoom) : bus.SameButNotes (receiver.drop next) := by
  obtain ⟨dropped, entries⟩ := receiver.service.drop_spec next
  have acquired : next.services = (bus.acquire receiver.service.name).services := by
    rw [created.adds.services, created.name]
  have left : (receiver.drop next).methods.entries = bus.methods.entries := by
    have nodup := next.methods.nodup
    rw [created.entries] at nodup
    refine entries.trans ?_
    rw [created.entries, created.methods, ← holding_keys handler]
    exact filter_added Prod.fst nodup
  exact (created.frame.trans dropped).sameButNotes (Service.drop_services room acquired) left

/-- Creating a receiver is all or nothing, and dropping it undoes it.  It is refused for just the
reason that can be read off beforehand, and then the bus is as it was, with every binding, every
count and every status.  Otherwise its three methods are added to what is bound, its service has one
more provider, and nothing else changes; when the receiver is dropped at once, the bus is again as
it was. -/
theorem creation_is_all_or_nothing (handler : StreamMethod → η) {bus : Bus η} (room : bus.HasRoom)
    (service endpoint : String) (config : ReceiverConfig) :
    (∀ cause, (create handler bus service endpoint config).2 = .error cause ↔
      refusal? bus service endpoint config = some cause) ∧
    (∀ next cause, create handler bus service endpoint config = (next, .error cause) →
      bus.SameButNotes next ∧ ∀ name, next.status name = bus.status name) ∧
    ∀ next receiver mixer,
      create handler bus service endpoint config = (next, .ok (receiver, mixer)) →
      bus.SameButRegistry next ∧
      next.methods.entries =
        bus.methods.entries ++ holding handler (joinAddresses service endpoint) ∧
      (∀ name, next.services.find? name =
        if name = service then some ((bus.services.find? service).getD 0 + 1)
        else bus.services.find? name) ∧
      bus.SameButNotes (receiver.drop next) := by
  refine ⟨create_error_iff handler bus service endpoint config, ?_, ?_⟩
  · intro next cause refused
    have same := create_refused room refused
    exact ⟨same, same.status⟩
  · intro next receiver mixer opened
    have created := create_ok opened
    have entries := created.entries
    rw [created.address] at entries
    refine ⟨created.frame, entries, ?_, created.drop room⟩
    intro name
    rw [created.adds.services, room.acquire_services]
    exact bus.services.find?_insert service name _

end Receiver

/-- A bus where the service of a mixer is provided already, and a handler is bound to the path of
the second method of an endpoint below it. -/
def Bus.occupied : Bus StreamMethod :=
  { (Bus.create "peer" Binary.zero : Bus StreamMethod) with
    services := Table.empty.insert "mixer" 1
    methods := Table.empty.insert "mixer/0/push"
      { signature := StreamMethod.push.signature, handler := .push } }

/-- The endpoint that is taken in part is refused as a whole, and the one beside it is created and
dropped without a trace. -/
theorem Bus.occupied_is_kept :
    Bus.occupied.HasRoom ∧
    (∃ next, Receiver.create (fun method => method) Bus.occupied "mixer" "0" Mixer.fourSlotConfig =
        (next, .error (.bus (.methodExists "mixer/0/push"))) ∧ Bus.occupied.SameButNotes next) ∧
    ∃ next receiver mixer,
      Receiver.create (fun method => method) Bus.occupied "mixer" "1" Mixer.fourSlotConfig =
        (next, .ok (receiver, mixer)) ∧
      next.services.find? "mixer" = some 2 ∧ Bus.occupied.SameButNotes (receiver.drop next) := by
  have room : Bus.occupied.HasRoom := by decide +kernel
  obtain ⟨reason, refused, _⟩ := Receiver.creation_is_all_or_nothing (fun method => method) room
    "mixer" "0" Mixer.fourSlotConfig
  obtain ⟨otherReason, _, created⟩ := Receiver.creation_is_all_or_nothing (fun method => method)
    room "mixer" "1" Mixer.fourSlotConfig
  have taken : Receiver.refusal? Bus.occupied "mixer" "0" Mixer.fourSlotConfig =
      some (.bus (.methodExists "mixer/0/push")) := by
    decide +kernel
  have free : Receiver.refusal? Bus.occupied "mixer" "1" Mixer.fourSlotConfig = none := by
    decide +kernel
  have isRefused := Prod.ext_iff.mpr ⟨rfl, (reason _).mpr taken⟩
  refine ⟨room, ⟨_, isRefused, (refused _ _ isRefused).1⟩, ?_⟩
  cases outcome : Receiver.create (fun method => method) Bus.occupied "mixer" "1"
      Mixer.fourSlotConfig with
  | mk next result =>
      cases result with
      | error cause =>
          have isReason := (otherReason cause).mp (congrArg Prod.snd outcome)
          rw [free] at isReason
          cases isReason
      | ok made =>
          obtain ⟨_, _, counts, restored⟩ := created next made.1 made.2 outcome
          refine ⟨next, made.1, made.2, rfl, ?_, restored⟩
          rw [counts]
          rfl

end AudioBus
