import AudioBus.Proofs.Address
import AudioBus.Proofs.Stream.Event
import AudioBus.Proofs.Table
import AudioBus.Stream.Receiver
import Mathlib.Data.List.Nodup

/-!
What services and receivers do to a bus: which entries they add to the table of methods, which they
take away, and that they touch nothing but the registry and the journal.
-/

namespace AudioBus

theorem filter_added {α : Type} (key : α → String) {former added : List α}
    (nodup : ((former ++ added).map key).Nodup) :
    (former ++ added).filter (fun item => decide (key item ∉ added.map key)) = former := by
  rw [List.map_append] at nodup
  have apart := List.disjoint_of_nodup_append nodup
  have formerStays :
      former.filter (fun item => decide (key item ∉ added.map key)) = former := by
    apply List.filter_eq_self.mpr
    intro item isFormer
    exact decide_eq_true fun isAdded => apart (List.mem_map_of_mem isFormer) isAdded
  have addedGoes : added.filter (fun item => decide (key item ∉ added.map key)) = [] := by
    apply List.filter_eq_nil_iff.mpr
    intro item isAdded notAdded
    exact of_decide_eq_true notAdded (List.mem_map_of_mem isAdded)
  rw [List.filter_append, formerStays, addedGoes, List.append_nil]

namespace Bus

variable {η : Type} {first second third former later bus : Bus η}

/-- Whether two buses differ in nothing but what is provided and bound on them, and in their
journals. -/
def SameButRegistry (former later : Bus η) : Prop :=
  ∃ services methods journal,
    later = { former with services := services, methods := methods, journal := journal }

theorem SameButRegistry.refl (bus : Bus η) : bus.SameButRegistry bus :=
  ⟨_, _, _, rfl⟩

theorem SameButRegistry.trans (onward : first.SameButRegistry second)
    (further : second.SameButRegistry third) : first.SameButRegistry third := by
  obtain ⟨_, _, _, secondEq⟩ := onward
  obtain ⟨services, methods, journal, thirdEq⟩ := further
  refine ⟨services, methods, journal, ?_⟩
  rw [thirdEq, secondEq]

theorem SameButRegistry.mail (same : former.SameButRegistry later) :
    later.clock = former.clock ∧ later.isSynchronized = former.isSynchronized ∧
      later.pending = former.pending ∧ later.sent = former.sent := by
  obtain ⟨_, _, _, laterEq⟩ := same
  rw [laterEq]
  exact ⟨rfl, rfl, rfl, rfl⟩

/-- Whether a bus becomes another when these entries, and nothing else, are added to its table of
methods; its journal may grow. -/
structure Adds (former later : Bus η) (added : List (String × Method η)) : Prop where
  frame : former.SameButRegistry later
  services : later.services = former.services
  entries : later.methods.entries = former.methods.entries ++ added

namespace Adds

variable {added more : List (String × Method η)}

theorem refl (bus : Bus η) : bus.Adds bus [] where
  frame := SameButRegistry.refl bus
  services := rfl
  entries := (List.append_nil _).symm

theorem trans (onward : first.Adds second added) (further : second.Adds third more) :
    first.Adds third (added ++ more) where
  frame := onward.frame.trans further.frame
  services := further.services.trans onward.services
  entries := by rw [further.entries, onward.entries, List.append_assoc]

theorem note (adds : former.Adds later added) (notice : Notice) :
    former.Adds (later.note notice) added where
  frame := adds.frame.trans ⟨_, _, _, rfl⟩
  services := adds.services
  entries := adds.entries

theorem find?_of_mem (adds : former.Adds later added) {path : String} {method : Method η}
    (isAdded : (path, method) ∈ added) : later.methods.find? path = some method := by
  apply Table.find?_eq_some_iff.mpr
  rw [adds.entries]
  exact List.mem_append_right _ isAdded

theorem find?_of_ne {path other : String} {method : Method η}
    (adds : former.Adds later [(path, method)]) (different : other ≠ path) :
    later.methods.find? other = former.methods.find? other := by
  change Table.findIn other later.methods.entries = _
  rw [adds.entries, Table.findIn_append_of_ne different]
  rfl

end Adds

theorem acquire_spec (bus : Bus η) (service : String) :
    bus.SameButRegistry (bus.acquire service) ∧ (bus.acquire service).methods = bus.methods ∧
      (bus.acquire service).services.contains service = true := by
  have isThere (providers : Nat) :
      (bus.services.insert service providers).contains service = true := by
    unfold Table.contains
    rw [Table.find?_insert_self]
    rfl
  unfold acquire
  cases bus.services.find? service with
  | none => exact ⟨⟨_, _, _, rfl⟩, rfl, isThere 1⟩
  | some providers => exact ⟨⟨_, _, _, rfl⟩, rfl, isThere _⟩

theorem release_spec (bus : Bus η) (service : String) :
    bus.SameButRegistry (bus.release service) ∧ (bus.release service).methods = bus.methods := by
  unfold release
  cases bus.services.find? service with
  | none => exact ⟨SameButRegistry.refl bus, rfl⟩
  | some providers =>
      simp only
      split
      · exact ⟨⟨_, _, _, rfl⟩, rfl⟩
      · exact ⟨⟨_, _, _, rfl⟩, rfl⟩

theorem bind_spec {bound : Bus η} {path : String} {signature : Signature} {handler : η}
    (isBound : bus.bind path signature handler = .ok bound) :
    path ∉ bus.methods.keys ∧
      bus.Adds bound [(path, { signature := signature, handler := handler })] := by
  unfold bind at isBound
  by_cases taken : bus.methods.contains path = true
  · rw [if_pos taken] at isBound
    contradiction
  · rw [if_neg taken] at isBound
    have isFree : path ∉ bus.methods.keys := mt (bus.methods.contains_iff path).mpr taken
    cases isBound
    exact ⟨isFree, ⟨_, _, _, rfl⟩, rfl, Table.insert_entries_of_absent isFree _⟩

theorem unbindAll_spec (bus : Bus η) (paths : List String) :
    bus.SameButRegistry (paths.foldl unbind bus) ∧
      (paths.foldl unbind bus).services = bus.services ∧
      (paths.foldl unbind bus).methods.entries =
        bus.methods.entries.filter fun entry => decide (entry.1 ∉ paths) := by
  induction paths generalizing bus with
  | nil =>
      refine ⟨SameButRegistry.refl bus, rfl, ?_⟩
      exact (List.filter_eq_self.mpr fun entry _ => decide_eq_true List.not_mem_nil).symm
  | cons path rest inductionHypothesis =>
      obtain ⟨frame, services, entries⟩ := inductionHypothesis (bus.unbind path)
      have unbound : bus.SameButRegistry (bus.unbind path) := ⟨_, _, _, rfl⟩
      refine ⟨unbound.trans frame, services, ?_⟩
      rw [List.foldl_cons, entries]
      change (bus.methods.entries.filter _).filter _ = _
      rw [List.filter_filter]
      apply List.filter_congr
      intro entry _
      rw [← Bool.decide_and]
      apply decide_eq_decide.mpr
      rw [List.mem_cons, not_or]
      exact and_comm

end Bus

/-! ### Services -/

namespace Service

variable {η : Type} {service extended : Service} {bus next : Bus η}

theorem implement_spec {method text : String} {handler : η}
    (implemented : service.implement bus method text handler = .ok (extended, next)) :
    extended = { service with methods := service.methods ++ [joinAddresses service.name method] } ∧
      isAddress (joinAddresses service.name method) = true ∧
      joinAddresses service.name method ∉ bus.methods.keys ∧
      ∃ signature, Signature.parse text = .ok signature ∧
        bus.Adds next [(joinAddresses service.name method,
          { signature := signature, handler := handler })] := by
  unfold implement joinPath at implemented
  cases parsed : Signature.parse text with
  | error cause =>
      rw [parsed] at implemented
      contradiction
  | ok signature =>
      by_cases valid : isAddress (joinAddresses service.name method) = true
      · simp only [parsed, valid, if_true] at implemented
        cases outcome : bus.bind (joinAddresses service.name method) signature handler with
        | error cause =>
            rw [outcome] at implemented
            contradiction
        | ok bound =>
            obtain ⟨isFree, adds⟩ := Bus.bind_spec outcome
            rw [outcome] at implemented
            cases implemented
            exact ⟨rfl, valid, isFree, signature, rfl, adds.note _⟩
      · simp only [parsed, valid] at implemented
        contradiction

def Binds (name : String) (method : String × String × η) (entry : String × Method η) : Prop :=
  entry.1 = joinAddresses name method.1 ∧ Signature.parse method.2.1 = .ok entry.2.signature ∧
    entry.2.handler = method.2.2

/-- However far a list of methods gets, the service lists exactly what is bound. -/
theorem implementAll_spec (service : Service) (bus : Bus η)
    (methods : List (String × String × η)) :
    ∃ added : List (String × Method η),
      (service.implementAll bus methods).1 =
          { service with methods := service.methods ++ added.map Prod.fst } ∧
        bus.Adds (service.implementAll bus methods).2.1 added ∧
        (∀ path ∈ added.map Prod.fst, isAddress path = true) ∧
        ((service.implementAll bus methods).2.2 = .ok () →
          List.Forall₂ (Binds service.name) methods added) := by
  induction methods generalizing service bus with
  | nil =>
      refine ⟨[], ?_, Bus.Adds.refl bus, fun _ isPath => absurd isPath List.not_mem_nil,
        fun _ => List.Forall₂.nil⟩
      rw [List.map_nil, List.append_nil]
      rfl
  | cons first rest inductionHypothesis =>
      obtain ⟨method, text, handler⟩ := first
      unfold implementAll
      cases outcome : service.implement bus method text handler with
      | error cause =>
          refine ⟨[], ?_, Bus.Adds.refl bus, fun _ isPath => absurd isPath List.not_mem_nil, ?_⟩
          · rw [List.map_nil, List.append_nil]
          · intro isWhole
            cases isWhole
      | ok result =>
          obtain ⟨extended, held⟩ := result
          obtain ⟨extendedEq, valid, _, signature, parsed, adds⟩ := implement_spec outcome
          obtain ⟨added, addedEq, addsRest, restValid, binds⟩ := inductionHypothesis extended held
          subst extendedEq
          refine ⟨_, ?_, adds.trans addsRest, List.forall_mem_cons.mpr ⟨valid, restValid⟩, ?_⟩
          · refine addedEq.trans ?_
            rw [List.append_assoc]
            rfl
          · intro isWhole
            exact List.Forall₂.cons ⟨rfl, parsed, rfl⟩ (binds isWhole)

theorem drop_spec (service : Service) (bus : Bus η) :
    bus.SameButRegistry (service.drop bus) ∧
      (service.drop bus).methods.entries =
        bus.methods.entries.filter fun entry => decide (entry.1 ∉ service.methods) := by
  obtain ⟨frame, _, entries⟩ := bus.unbindAll_spec service.methods
  obtain ⟨released, sameMethods⟩ :=
    (service.methods.foldl Bus.unbind bus).release_spec service.name
  refine ⟨frame.trans released, ?_⟩
  rw [← entries]
  exact congrArg Table.entries sameMethods

end Service

/-! ### Receivers -/

namespace Receiver

variable {η : Type} {handler : StreamMethod → η} {bus next : Bus η} {service endpoint : String}
  {config : ReceiverConfig} {receiver : Receiver} {mixer : Mixer Seconds}

/-- What a receiver at an address binds. -/
def holding (handler : StreamMethod → η) (address : String) : List (String × Method η) :=
  StreamMethod.all.map fun method =>
    (joinAddresses address method.name,
      { signature := method.signature, handler := handler method })

def paths (address : String) : List String :=
  StreamMethod.all.map fun method => joinAddresses address method.name

theorem holding_keys (handler : StreamMethod → η) (address : String) :
    (holding handler address).map Prod.fst = paths address :=
  rfl

theorem mem_holding (handler : StreamMethod → η) (address : String) (method : StreamMethod) :
    (joinAddresses address method.name,
      { signature := method.signature, handler := handler method }) ∈ holding handler address :=
  List.mem_map.mpr ⟨method, method.mem_all, rfl⟩

theorem holding_of_binds {added : List (String × Method η)}
    (binds : List.Forall₂ (Service.Binds service) (methodsOf handler endpoint) added) :
    added = holding handler (joinAddresses service endpoint) := by
  have named : List.Forall₂ (fun method entry =>
      (joinAddresses (joinAddresses service endpoint) method.name,
        { signature := method.signature, handler := handler method }) = entry)
      StreamMethod.all added := by
    apply List.Forall₂.imp _ (List.forall₂_map_left_iff.mp binds)
    rintro method ⟨path, signature, bound⟩ ⟨pathEq, parsed, handlerEq⟩
    have signatureEq : method.signature = signature :=
      Except.ok.inj (method.parse_signature.symm.trans parsed)
    rw [← joinAddresses_assoc, signatureEq]
    exact congrArg₂ (fun path handler => (path, Method.mk signature handler)) pathEq.symm
      handlerEq.symm
  have same := List.forall₂_map_left_iff.mpr named
  rw [List.forall₂_eq_eq_eq] at same
  exact same.symm

/-- A receiver is refused at once, or when one of its methods is, which takes the others with it, or
it is created with what was implemented. -/
theorem create_cases (handler : StreamMethod → η) (bus : Bus η) (service endpoint : String)
    (config : ReceiverConfig) :
    (∃ cause, create handler bus service endpoint config = (bus, .error cause)) ∨
      ∃ mixer extended held,
        Mixer.create config = .ok mixer ∧ isServiceName service = true ∧
          ((∃ cause,
              Service.implementAll { name := service, methods := [] } (bus.acquire service)
                  (methodsOf handler endpoint) = (extended, held, .error cause) ∧
                create handler bus service endpoint config =
                  (extended.drop held, .error (.bus cause))) ∨
            Service.implementAll { name := service, methods := [] } (bus.acquire service)
                (methodsOf handler endpoint) = (extended, held, .ok ()) ∧
              create handler bus service endpoint config =
                (held.note (.receiving extended.name endpoint config.sampleRate mixer.capacity),
                  .ok ({ service := extended, endpoint := endpoint }, mixer))) := by
  unfold create Service.provide
  cases mixed : Mixer.create config with
  | error cause => exact Or.inl ⟨_, rfl⟩
  | ok mixer =>
      by_cases isName : isServiceName service = true
      · right
        simp only [isName, if_true]
        cases outcome : Service.implementAll { name := service, methods := [] }
            (bus.acquire service) (methodsOf handler endpoint) with
        | mk extended rest =>
            obtain ⟨held, result⟩ := rest
            refine ⟨mixer, extended, held, rfl, trivial, ?_⟩
            cases result with
            | error cause => exact Or.inl ⟨cause, rfl, rfl⟩
            | ok done => exact Or.inr ⟨rfl, rfl⟩
      · left
        simp only [isName]
        exact ⟨_, rfl⟩

def Bound (bus : Bus η) (handler : StreamMethod → η) (address : String) : Prop :=
  ∀ method : StreamMethod,
    bus.methods.find? (joinAddresses address method.name) =
      some { signature := method.signature, handler := handler method }

/-- What a receiver that is created comes to.  It owns three methods, all of them bound. -/
structure Created (handler : StreamMethod → η) (bus next : Bus η) (service endpoint : String)
    (config : ReceiverConfig) (receiver : Receiver) (mixer : Mixer Seconds) : Prop where
  mixed : Mixer.create config = .ok mixer
  isName : isServiceName service = true
  name : receiver.service.name = service
  address : receiver.address = joinAddresses service endpoint
  methods : receiver.service.methods = paths receiver.address
  valid : ∀ method : StreamMethod,
    isAddress (joinAddresses (joinAddresses service endpoint) method.name) = true
  adds : (bus.acquire service).Adds next (holding handler receiver.address)

theorem create_ok
    (created : create handler bus service endpoint config = (next, .ok (receiver, mixer))) :
    Created handler bus next service endpoint config receiver mixer := by
  obtain ⟨added, addedEq, adds, valid, binds⟩ := Service.implementAll_spec
    { name := service, methods := [] } (bus.acquire service) (methodsOf handler endpoint)
  rcases create_cases handler bus service endpoint config with ⟨_, refused⟩ |
    ⟨made, extended, held, mixed, isName, ⟨_, _, refused⟩ | ⟨outcome, opened⟩⟩
  · rw [refused] at created
    cases created
  · rw [refused] at created
    cases created
  · rw [outcome] at addedEq adds binds
    rw [holding_of_binds (binds rfl)] at addedEq adds valid
    cases addedEq
    rw [opened] at created
    cases created
    exact ⟨mixed, isName, rfl, rfl, rfl,
      fun method => valid _ (List.mem_map_of_mem (mem_holding handler _ method)), adds.note _⟩

theorem create_error {cause : EndpointError}
    (refused : create handler bus service endpoint config = (next, .error cause)) :
    bus.SameButRegistry next ∧ next.methods.entries = bus.methods.entries ∧
      (next = bus ∨ ∃ (extended : Service) (held : Bus η),
        extended.name = service ∧ held.services = (bus.acquire service).services ∧
          next = extended.drop held) := by
  obtain ⟨acquired, sameMethods, _⟩ := bus.acquire_spec service
  obtain ⟨added, addedEq, adds, _⟩ := Service.implementAll_spec
    { name := service, methods := [] } (bus.acquire service) (methodsOf handler endpoint)
  rcases create_cases handler bus service endpoint config with ⟨_, atOnce⟩ |
    ⟨_, extended, held, _, _, ⟨_, outcome, dropped⟩ | ⟨_, opened⟩⟩
  · rw [atOnce] at refused
    cases refused
    exact ⟨Bus.SameButRegistry.refl _, rfl, Or.inl rfl⟩
  · rw [outcome] at addedEq adds
    cases addedEq
    rw [dropped] at refused
    cases refused
    obtain ⟨frame, entries⟩ := Service.drop_spec { name := service, methods := added.map Prod.fst }
      held
    refine ⟨acquired.trans (adds.frame.trans frame), entries.trans ?_,
      Or.inr ⟨_, held, rfl, adds.services, rfl⟩⟩
    have nodup := held.methods.nodup
    rw [adds.entries, sameMethods] at nodup ⊢
    exact filter_added Prod.fst nodup
  · rw [opened] at refused
    cases refused

namespace Created

variable (created : Created handler bus next service endpoint config receiver mixer)

include created

theorem frame : bus.SameButRegistry next :=
  (bus.acquire_spec service).1.trans created.adds.frame

theorem entries :
    next.methods.entries = bus.methods.entries ++ holding handler receiver.address := by
  rw [created.adds.entries, (bus.acquire_spec service).2.1]

theorem bound : Bound next handler receiver.address :=
  fun method => created.adds.find?_of_mem (mem_holding handler _ method)

end Created

end Receiver

end AudioBus
