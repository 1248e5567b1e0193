import AudioBus.Proofs.Bus.Delivery
import AudioBus.Proofs.Bus.Providers
import AudioBus.Proofs.Venue.Isolation

/-!
The registry of a venue: which services are there, and whose methods are bound.  The bus counts the
providers that are alive, name by name, and every path that it has bound stands below the name of
one of them.
-/

namespace AudioBus

theorem Bus.perform_services {η : Type} (bus : Bus η) (request : Request η) :
    (bus.perform request).services = bus.services := by
  cases request with
  | send message => rfl
  | unbind path => rfl
  | advanceClock length => rfl
  | bind path signature handler =>
      cases outcome : bus.bind path signature handler with
      | error cause => simp only [perform, outcome]
      | ok bound =>
          simp only [perform, outcome]
          exact (bind_spec outcome).2.services

theorem Bus.services_persist {η : Type} (former : Bus η) :
    Persists (fun bus : Bus η => bus.services = former.services) fun _ => True where
  note _ _ same := same
  perform bus request _ same := (bus.perform_services request).trans same

theorem Peer.poll_services {η ω : Type} (behaviour : Behaviour η ω) (peer : Peer η ω) :
    (peer.poll behaviour).1.bus.services = peer.bus.services := by
  have any : Asks (fun _ => True) behaviour := fun _ _ _ _ _ _ => trivial
  have relieved : peer.relieved.bus.services = peer.bus.services := rfl
  exact (peer.bus.services_persist.deliverAll any relieved (peer.dispatched .poll)).1

namespace Service

variable {η : Type}

/-- Whether a service has the name of one, and its methods are addresses below this name. -/
structure InOrder (service : Service) : Prop where
  named : isServiceName service.name = true
  below : ∀ path ∈ service.methods, isAddress path = true ∧ firstSegment path = service.name

theorem InOrder.begin {name : String} (isName : isServiceName name = true) :
    InOrder { name := name, methods := [] } where
  named := isName
  below _ isMember := absurd isMember List.not_mem_nil

theorem InOrder.implement {service extended : Service} {bus next : Bus η} {method text : String}
    {handler : η} (inOrder : service.InOrder)
    (implemented : service.implement bus method text handler = .ok (extended, next)) :
    extended.InOrder := by
  obtain ⟨extendedEq, valid, _⟩ := implement_spec implemented
  rw [extendedEq]
  refine ⟨inOrder.named, ?_⟩
  intro path isMember
  rcases List.mem_append.mp isMember with isFormer | isAdded
  · exact inOrder.below path isFormer
  · rw [List.mem_singleton.mp isAdded]
    exact ⟨valid, firstSegment_joinAddresses inOrder.named method⟩

theorem InOrder.implementAll {service : Service} (inOrder : service.InOrder) (bus : Bus η)
    (methods : List (String × String × η)) : (service.implementAll bus methods).1.InOrder := by
  induction methods generalizing service bus with
  | nil => exact inOrder
  | cons first rest inductionHypothesis =>
      obtain ⟨method, text, handler⟩ := first
      unfold Service.implementAll
      cases outcome : service.implement bus method text handler with
      | error cause => exact inOrder
      | ok result => exact inductionHypothesis (inOrder.implement outcome) result.2

def sharing (name : String) (providers : List Service) : Nat :=
  providers.countP fun provider => decide (provider.name = name)

theorem sharing_cons (name : String) (service : Service) (others : List Service) :
    sharing name (service :: others) =
      sharing name others + if service.name = name then 1 else 0 := by
  simp [sharing, List.countP_cons]

theorem sharing_le (name : String) (providers : List Service) :
    sharing name providers ≤ providers.length :=
  List.countP_le_length

theorem sharing_eq_zero_iff {name : String} {providers : List Service} :
    sharing name providers = 0 ↔ ∀ provider ∈ providers, provider.name ≠ name := by
  simp [sharing, List.countP_eq_zero]

end Service

/-! ### Counting the providers -/

namespace Bus

variable {η : Type}

/-- Whether a bus counts just these providers, and they are in order. -/
structure Enrolls (bus : Bus η) (providers : List Service) : Prop where
  counted : ∀ name, bus.services.find? name = tally? (Service.sharing name providers)
  inOrder : ∀ provider ∈ providers, provider.InOrder

namespace Enrolls

variable {bus next : Bus η} {service extended : Service} {others providers : List Service}

theorem of_same (enrolls : bus.Enrolls providers) (services : next.services = bus.services) :
    next.Enrolls providers where
  counted := by
    rw [services]
    exact enrolls.counted
  inOrder := enrolls.inOrder

theorem perm (enrolls : bus.Enrolls providers) {rearranged : List Service}
    (same : providers.Perm rearranged) : bus.Enrolls rearranged where
  counted name := by
    rw [enrolls.counted, Service.sharing, Service.sharing, same.countP_eq]
  inOrder provider isMember := enrolls.inOrder provider (same.mem_iff.mpr isMember)

theorem join (enrolls : bus.Enrolls providers) (fits : providers.length < mostProviders)
    (services : next.services = (bus.acquire service.name).services)
    (inOrder : service.InOrder) : next.Enrolls (service :: providers) where
  counted name := by
    rw [services, acquire_find?, Service.sharing_cons]
    by_cases same : name = service.name
    · have isMore : Service.sharing name providers + 1 ≤ mostProviders :=
        Nat.le_trans (Nat.succ_le_succ (Service.sharing_le name providers)) fits
      rw [if_pos same, if_pos same.symm, ← same, enrolls.counted, tally?_getD,
        Nat.min_eq_left isMore]
      exact (if_neg (Nat.succ_ne_zero _)).symm
    · rw [if_neg same, if_neg (Ne.symm same), Nat.add_zero]
      exact enrolls.counted name
  inOrder provider isMember := by
    rcases List.mem_cons.mp isMember with isNew | isFormer
    · rw [isNew]
      exact inOrder
    · exact enrolls.inOrder provider isFormer

theorem extend (enrolls : bus.Enrolls (service :: others))
    (services : next.services = bus.services) (sameName : extended.name = service.name)
    (inOrder : extended.InOrder) : next.Enrolls (extended :: others) where
  counted name := by
    have counted := enrolls.counted name
    rw [Service.sharing_cons] at counted ⊢
    rw [services, sameName]
    exact counted
  inOrder provider isMember := by
    rcases List.mem_cons.mp isMember with isExtended | isOther
    · rw [isExtended]
      exact inOrder
    · exact enrolls.inOrder provider (List.mem_cons_of_mem _ isOther)

theorem drop (enrolls : bus.Enrolls (service :: others)) : (service.drop bus).Enrolls others where
  counted name := by
    have counted := enrolls.counted
    have former := fun other => congrArg (Table.find? · other)
      (bus.unbindAll_spec service.methods).2.1
    unfold Service.drop
    rw [release_find?, former, former, counted, counted, tally?_getD, Service.sharing_cons,
      Service.sharing_cons, if_pos rfl, Nat.add_sub_cancel]
    by_cases same : name = service.name
    · rw [if_pos same, same]
    · rw [if_neg same, if_neg (Ne.symm same), Nat.add_zero]
  inOrder provider isOther := enrolls.inOrder provider (List.mem_cons_of_mem _ isOther)

theorem status_eq_unknown_iff (enrolls : bus.Enrolls providers) (name : String) :
    bus.status name = .unknown ↔ ∀ provider ∈ providers, provider.name ≠ name := by
  have isThere : bus.services.contains name = decide (Service.sharing name providers ≠ 0) := by
    unfold Table.contains
    rw [enrolls.counted]
    unfold tally?
    split <;> simp [*]
  rw [← Service.sharing_eq_zero_iff]
  unfold status
  rw [isThere]
  by_cases isZero : Service.sharing name providers = 0
  · simp [isZero]
  · cases bus.isSynchronized <;> simp [isZero]

end Enrolls

end Bus

/-- A receiver that is created is one more provider.  One that is refused leaves the providers as
they were. -/
theorem Receiver.create_enrolls {η : Type} (handler : StreamMethod → η) {bus : Bus η}
    {providers : List Service} (enrolls : bus.Enrolls providers)
    (fits : providers.length < Bus.mostProviders) (service endpoint : String)
    (config : ReceiverConfig) :
    match create handler bus service endpoint config with
    | (next, .error _) => next.Enrolls providers
    | (next, .ok (receiver, _)) => next.Enrolls (receiver.service :: providers) := by
  rcases create_cases handler bus service endpoint config with ⟨_, refused⟩ |
    ⟨_, extended, held, _, isName, implemented⟩
  · rw [refused]
    exact enrolls
  · have begun := Service.InOrder.begin isName
    have joined : (bus.acquire service).Enrolls ({ name := service, methods := [] } :: providers) :=
      enrolls.join fits rfl begun
    have inOrder := begun.implementAll (bus.acquire service) (methodsOf handler endpoint)
    obtain ⟨_, extendedEq, adds, _⟩ := Service.implementAll_spec { name := service, methods := [] }
      (bus.acquire service) (methodsOf handler endpoint)
    have sameName := congrArg Service.name extendedEq
    have stillJoined := joined.extend adds.services sameName inOrder
    rcases implemented with ⟨_, outcome, refused⟩ | ⟨outcome, opened⟩
    · rw [outcome] at stillJoined
      rw [refused]
      exact stillJoined.drop
    · rw [outcome] at stillJoined
      rw [opened]
      exact stillJoined.of_same rfl

namespace Venue

variable {η ω : Type} {venue : Venue η ω}

/-! ### The registry of a venue -/

def providers (venue : Venue η ω) : List Service :=
  providersOf venue.receivers venue.services

/-- Whether there are fewer services than a bus can count. -/
def Modest (venue : Venue η ω) : Prop :=
  venue.providers.length < Bus.mostProviders

instance (venue : Venue η ω) : Decidable venue.Modest :=
  inferInstanceAs (Decidable (_ < _))

/-- Whether the bus of a venue counts the services that are alive there. -/
def Enrolled (venue : Venue η ω) : Prop :=
  venue.bus.Enrolls venue.providers

namespace Enrolled

theorem create (peerName : String) (clock : Seconds) (beyond : ω) :
    (Venue.create (η := η) peerName clock beyond).Enrolled where
  counted _ := rfl
  inOrder _ isMember := absurd isMember List.not_mem_nil

theorem openReceiver (enrolled : venue.Enrolled) (inTune : venue.InTune) (modest : venue.Modest)
    (service endpoint : String) (config : ReceiverConfig) :
    (venue.openReceiver service endpoint config).Enrolled := by
  have created := Receiver.create_enrolls (VenueHandler.receiver venue.receptions.length)
    enrolled modest service endpoint config
  unfold Venue.openReceiver
  dsimp only
  cases outcome : Receiver.create (VenueHandler.receiver venue.receptions.length) venue.bus
      service endpoint config with
  | mk bus result =>
      rw [outcome] at created
      cases result with
      | error cause => exact created
      | ok made =>
          have isNew : venue.receptions.length ∉ venue.receivers.keys :=
            fun isKey => Nat.lt_irrefl _ (inTune.receiverNumbers _ isKey)
          exact created.perm (providersOf_insert_receiver made.1 isNew)

theorem dropReceiver (enrolled : venue.Enrolled) (number : Nat) :
    (venue.dropReceiver number).Enrolled := by
  unfold Venue.dropReceiver
  cases found : venue.receivers.find? number with
  | none => exact enrolled
  | some receiver => exact (enrolled.perm (providersOf_erase_receiver found)).drop

theorem provide (enrolled : venue.Enrolled) (inTune : venue.InTune) (modest : venue.Modest)
    (name : String) : (venue.provide name).Enrolled := by
  unfold Venue.provide Service.provide
  by_cases isName : isServiceName name = true
  · have isNew : venue.serviceCount ∉ venue.services.keys :=
      fun isKey => Nat.lt_irrefl _ (inTune.serviceNumbers _ isKey)
    have joins : List.Perm (_ :: providersOf venue.receivers _)
        (providersOf venue.receivers (venue.services.insert venue.serviceCount _)) :=
      providersOf_insert_service { name := name, methods := [] }
    rw [Table.erase_of_absent isNew] at joins
    rw [if_pos isName]
    exact (enrolled.join modest rfl (Service.InOrder.begin isName)).perm joins
  · rw [if_neg isName]
    exact enrolled

theorem implement (enrolled : venue.Enrolled) (number : Nat) (method signature : String)
    (handler : η) : (venue.implement number method signature handler).Enrolled := by
  unfold Venue.implement
  cases found : venue.services.find? number with
  | none => exact enrolled
  | some service =>
      simp only
      cases outcome : service.implement venue.bus method signature (.other handler) with
      | error cause => exact enrolled
      | ok made =>
          obtain ⟨extended, bus⟩ := made
          have rearranged := enrolled.perm (providersOf_erase_service found)
          have inOrder := rearranged.inOrder service List.mem_cons_self
          obtain ⟨extendedEq, _, _, _, _, adds⟩ := Service.implement_spec outcome
          have sameName := congrArg Service.name extendedEq
          exact (rearranged.extend adds.services sameName (inOrder.implement outcome)).perm
            (providersOf_insert_service extended)

theorem dropService (enrolled : venue.Enrolled) (number : Nat) :
    (venue.dropService number).Enrolled := by
  unfold Venue.dropService
  cases found : venue.services.find? number with
  | none => exact enrolled
  | some service => exact (enrolled.perm (providersOf_erase_service found)).drop

theorem openTransmitter (enrolled : venue.Enrolled) (id : StreamId) (service endpoint : String)
    (config : TransmitterConfig) :
    (venue.openTransmitter id service endpoint config).Enrolled := by
  unfold Venue.openTransmitter
  cases created : Sender.create venue.bus id service endpoint config with
  | error cause => exact enrolled
  | ok sender =>
      obtain ⟨_, client, senderEq⟩ := Sender.create_ok created
      rw [senderEq]
      exact enrolled.of_same rfl

theorem transmit (enrolled : venue.Enrolled) (index : Nat) (call : TransmitterCall) :
    (venue.transmit index call).Enrolled := by
  unfold Venue.transmit
  cases venue.voices[index]? with
  | none => exact enrolled
  | some voice =>
      simp only
      split
      · exact enrolled.of_same ((voice.sender venue.bus).perform_alike call).services
      · exact enrolled

theorem dropTransmitter (enrolled : venue.Enrolled) (index : Nat) :
    (venue.dropTransmitter index).Enrolled := by
  unfold Venue.dropTransmitter
  cases venue.voices[index]? with
  | none => exact enrolled
  | some voice =>
      have alike := ((voice.sender venue.bus).perform_alike .close).trans
        (voice.sender venue.bus).drop_alike.1
      simp only
      split
      · exact enrolled.of_same alike.services
      · exact enrolled

theorem callMixer (enrolled : venue.Enrolled) (number : Nat) (call : MixerCall Seconds) :
    (venue.callMixer number call).Enrolled := by
  unfold Venue.callMixer
  cases venue.receptions[number]? with
  | none => exact enrolled
  | some reception => exact enrolled

theorem advance (enrolled : venue.Enrolled) (inTune : venue.InTune) (modest : venue.Modest)
    (manners : Manners η ω) (step : VenueStep η) : (venue.advance manners step).Enrolled := by
  cases step with
  | send message => exact enrolled.of_same rfl
  | setClock time => exact enrolled.of_same rfl
  | synchronize isSynchronized => exact enrolled.of_same rfl
  | poll => exact enrolled.of_same (venue.peer.poll_services _)
  | openReceiver service endpoint config =>
      exact enrolled.openReceiver inTune modest service endpoint config
  | dropReceiver number => exact enrolled.dropReceiver number
  | callMixer number call => exact enrolled.callMixer number call
  | provide name => exact enrolled.provide inTune modest name
  | implement number method signature handler =>
      exact enrolled.implement number method signature handler
  | dropService number => exact enrolled.dropService number
  | openTransmitter id service endpoint config =>
      exact enrolled.openTransmitter id service endpoint config
  | transmit index call => exact enrolled.transmit index call
  | dropTransmitter index => exact enrolled.dropTransmitter index

/-- The counts are right at the end if no venue on the way is too full to count one more. -/
theorem run (enrolled : venue.Enrolled) (inTune : venue.InTune) (manners : Manners η ω)
    (steps : List (VenueStep η))
    (modest : ∀ before, before <+: steps → (venue.run manners before).Modest) :
    (venue.run manners steps).Enrolled := by
  induction steps generalizing venue with
  | nil => exact enrolled
  | cons step rest inductionHypothesis =>
      apply inductionHypothesis
      · exact enrolled.advance inTune (modest [] List.nil_prefix) manners step
      · exact inTune.advance manners step
      · intro before isPrefix
        exact modest (step :: before) (List.cons_prefix_cons.mpr ⟨rfl, isPrefix⟩)

end Enrolled

theorem advance_implement (venue : Venue η ω) (manners : Manners η ω) {number : Nat}
    {service : Service} (isLive : venue.services.find? number = some service)
    (method signature : String) (handler : η) :
    let path := joinAddresses service.name method
    let next := venue.advance manners (.implement number method signature handler)
    match service.implement venue.bus method signature (.other handler) with
    | .error _ => next = venue
    | .ok _ =>
        isAddress path = true ∧ path ∉ venue.bus.methods.keys ∧
          next.bus.methods.keys = venue.bus.methods.keys ++ [path] ∧
          next.services.find? number =
            some { service with methods := service.methods ++ [path] } := by
  intro path next
  have nextEq : next = venue.implement number method signature handler := rfl
  unfold Venue.implement at nextEq
  rw [isLive] at nextEq
  cases outcome : service.implement venue.bus method signature (.other handler) with
  | error cause =>
      simp only [outcome] at nextEq
      exact nextEq
  | ok made =>
      obtain ⟨extended, bus⟩ := made
      obtain ⟨extendedEq, valid, isFree, _, _, adds⟩ := Service.implement_spec outcome
      simp only [outcome] at nextEq
      refine ⟨valid, isFree, ?_, ?_⟩
      · rw [nextEq]
        change bus.methods.entries.map Prod.fst = _
        rw [adds.entries, List.map_append]
        rfl
      · rw [nextEq, ← extendedEq]
        exact Table.find?_insert_self _ _ _

/-- Whatever is done at a venue, its bus holds for every name how many services of this name are
alive, so that a service is unknown just when there are none.  The bound paths are those that the
living services list, each listed once; every one is an address below the name of its owner.  An
`implement` that is refused changes neither the table nor the service. -/
theorem registry_is_exact (manners : Manners η ω) (peerName : String) (clock : Seconds)
    (beyond : ω) (steps : List (VenueStep η))
    (modest : ∀ before, before <+: steps →
      ((create peerName clock beyond).run manners before).Modest) :
    let last := (create peerName clock beyond).run manners steps
    (∀ name, last.bus.services.find? name = Bus.tally? (Service.sharing name last.providers)) ∧
      (∀ name, last.bus.status name = .unknown ↔
        ∀ provider ∈ last.providers, provider.name ≠ name) ∧
      last.bus.methods.keys.Perm (last.providers.flatMap Service.methods) ∧
      (last.providers.flatMap Service.methods).Nodup ∧
      (∀ path ∈ last.bus.methods.keys, isAddress path = true ∧
        ∃ owner ∈ last.providers, path ∈ owner.methods ∧ firstSegment path = owner.name ∧
          last.bus.status owner.name ≠ .unknown) ∧
      ∀ number service method signature handler,
        last.services.find? number = some service →
        let path := joinAddresses service.name method
        let next := last.advance manners (.implement number method signature handler)
        match service.implement last.bus method signature (.other handler) with
        | .error _ => next = last
        | .ok _ =>
            isAddress path = true ∧ path ∉ last.bus.methods.keys ∧
              next.bus.methods.keys = last.bus.methods.keys ++ [path] ∧
              next.services.find? number =
                some { service with methods := service.methods ++ [path] } := by
  intro last
  have inTune : last.InTune := (InTune.create peerName clock beyond).run manners steps
  have enrolled : last.Enrolled := (Enrolled.create peerName clock beyond).run
    (InTune.create peerName clock beyond) manners steps modest
  have registers : last.bus.methods.keys.Perm (last.providers.flatMap Service.methods) :=
    inTune.registers
  refine ⟨enrolled.counted, enrolled.status_eq_unknown_iff, registers,
    registers.nodup_iff.mp last.bus.methods.nodup, ?_, ?_⟩
  · intro path isBound
    obtain ⟨owner, isLive, isOwn⟩ := List.mem_flatMap.mp (registers.mem_iff.mp isBound)
    obtain ⟨valid, first⟩ := (enrolled.inOrder owner isLive).below path isOwn
    refine ⟨valid, owner, isLive, isOwn, first, ?_⟩
    intro isUnknown
    exact (enrolled.status_eq_unknown_iff owner.name).mp isUnknown owner isLive rfl
  · intro number service method signature handler isLive
    exact last.advance_implement manners isLive method signature handler

/-- A receiver is refused for its second method, which another provider of its service has bound.
The next gets all of its methods, none of which can be bound again. -/
def clashingSteps : List (VenueStep Unit) :=
  [.provide "mixer", .implement 0 "0/push" "hvf" (),
    .openReceiver "mixer" "0" Mixer.fourSlotConfig, .openReceiver "mixer" "1" Mixer.fourSlotConfig,
    .implement 0 "1/close" "h" (), .provide "desk", .implement 1 "0/mute" "h" (), .dropService 1]

theorem clashingSteps_register :
    let last := (create "peer" Binary.zero ()).run idleManners clashingSteps
    last.bus.methods.keys = ["mixer/0/push", "mixer/1/sync", "mixer/1/push", "mixer/1/close"] ∧
      last.bus.services.find? "mixer" = some 2 ∧ last.bus.status "desk" = .unknown ∧
      last.bus.methods.keys.Perm (last.providers.flatMap Service.methods) := by
  intro last
  have modest : ∀ before ∈ clashingSteps.inits,
      ((create "peer" Binary.zero ()).run idleManners before).Modest := by
    decide +kernel
  obtain ⟨counted, unknown, registers, _⟩ :=
    registry_is_exact idleManners "peer" Binary.zero () clashingSteps
      fun before isPrefix => modest before ((List.mem_inits _ _).mpr isPrefix)
  refine ⟨?_, ?_, ?_, registers⟩
  · decide +kernel
  · have two : Service.sharing "mixer" last.providers = 2 := by decide +kernel
    rw [counted, two]
    rfl
  · rw [unknown]
    decide +kernel

end Venue

end AudioBus
