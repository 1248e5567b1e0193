import AudioBus.Proofs.Mixer.Run
import AudioBus.Proofs.Receiver.Ownership
import AudioBus.Proofs.Transmitter.Protocol

/-!
Where a transmitter and a receiver meet.  Both make addresses of the same two names: a transmitter
sends its events to the methods that the receiver of these names binds, and waits for the clock of
the receiver's service.  Receivers of other names bind other methods.
-/

namespace AudioBus

theorem joinAddresses_inj_of_isServiceName {service other endpoint otherEndpoint : String}
    (isName : isServiceName service = true) (otherIsName : isServiceName other = true)
    (same : joinAddresses service endpoint = joinAddresses other otherEndpoint) :
    service = other ∧ endpoint = otherEndpoint := by
  have first := congrArg firstSegment same
  have below := congrArg belowFirstSegment? same
  rw [firstSegment_joinAddresses isName, firstSegment_joinAddresses otherIsName] at first
  rw [belowFirstSegment?_joinAddresses isName, belowFirstSegment?_joinAddresses otherIsName]
    at below
  exact ⟨first, Option.some.inj below⟩

theorem StreamEvent.call_service? {service endpoint : String} (event : StreamEvent)
    (isName : isServiceName service = true)
    (valid : isAddress (joinAddresses (joinAddresses service endpoint) event.method.name) = true)
    (timestamp : Seconds) :
    (event.call (joinAddresses service endpoint) timestamp).service? = some service := by
  have pathEq : (event.call (joinAddresses service endpoint) timestamp).path =
      joinAddresses service (joinAddresses endpoint event.method.name) :=
    (joinAddresses_assoc _ _ _).symm
  rw [← joinAddresses_assoc, isAddress_joinAddresses] at valid
  have split := splitPath?_eq_some_iff.mpr ⟨pathEq, isName, valid.2⟩
  unfold Message.service?
  rw [split]
  rfl

theorem Receiver.paths_disjoint {address other : String} (different : address ≠ other) :
    (Receiver.paths address).Disjoint (Receiver.paths other) := by
  intro path isPath isOther
  obtain ⟨method, _, pathEq⟩ := List.mem_map.mp isPath
  obtain ⟨otherMethod, _, otherEq⟩ := List.mem_map.mp isOther
  exact different (joinAddresses_inj (pathEq.trans otherEq.symm)).1

theorem Receiver.mem_paths (address : String) (method : StreamMethod) :
    joinAddresses address method.name ∈ Receiver.paths address :=
  List.mem_map.mpr ⟨method, method.mem_all, rfl⟩

namespace Sender

variable {κ : Type} [Link κ]

theorem create_of_isAddress (link : κ) (id : StreamId) {service endpoint : String}
    {config : TransmitterConfig} (validated : config.validate = .ok ())
    (valid : isAddress (joinAddresses service endpoint) = true) :
    ∃ sender, create link id service endpoint config = .ok sender := by
  unfold create Client.create
  rw [validated, dif_pos valid]
  exact ⟨_, rfl⟩

/-- Whether a transmitter still sends to the address of a client, and never sent elsewhere. -/
structure Steadfast (destination : Client) (past : List (Occurrence κ)) (sender : Sender κ) :
    Prop where
  client : sender.transmitter.client = destination
  sent : ∀ speaker timestamp event, .sent speaker timestamp event ∈ past →
    speaker.transmitter.client = destination

namespace Steadfast

variable {destination : Client} {past : List (Occurrence κ)} {sender next : Sender κ}

omit [Link κ] in
theorem begin (sender : Sender κ) : Steadfast sender.transmitter.client [] sender where
  client := rfl
  sent _ _ _ isMember := absurd isMember List.not_mem_nil

omit [Link κ] in
theorem say (steadfast : Steadfast destination past sender) (speaker : Sender κ)
    (timestamp : Seconds) (event : StreamEvent)
    (same : speaker.transmitter.client = sender.transmitter.client)
    (kept : next.transmitter.client = sender.transmitter.client) :
    Steadfast destination (past ++ [.sent speaker timestamp event]) next where
  client := kept.trans steadfast.client
  sent other _ _ isMember := by
    rcases List.mem_append.mp isMember with isEarlier | isLast
    · exact steadfast.sent _ _ _ isEarlier
    · cases List.mem_singleton.mp isLast
      exact same.trans steadfast.client

theorem move {happened : List (Occurrence κ)} (steadfast : Steadfast destination past sender)
    (move : Move sender happened next) : Steadfast destination (past ++ happened) next := by
  cases move with
  | looked | awaited | noted | begun | led =>
      rw [List.append_nil]
      exact ⟨steadfast.client, steadfast.sent⟩
  | declared | restarted | delivered | ended => exact steadfast.say _ _ _ rfl rfl
  | refused time timed =>
      refine ⟨steadfast.client, ?_⟩
      intro speaker timestamp event isMember
      rcases List.mem_append.mp isMember with isEarlier | isLast
      · exact steadfast.sent _ _ _ isEarlier
      · cases List.mem_singleton.mp isLast

theorem perform (steadfast : Steadfast destination past sender) (call : TransmitterCall) :
    Steadfast destination (past ++ sender.history call) (sender.perform call) :=
  (sender.path_perform call).preserves (fun _ _ _ _ holds move => holds.move move) past steadfast

theorem run (steadfast : Steadfast destination past sender) (steps : List (Step κ)) :
    Steadfast destination (past ++ sender.chronicle steps) (sender.run steps) :=
  run_preserves (fun _ _ _ _ holds move => holds.move move)
    (fun _ _ _ holds => ⟨holds.client, holds.sent⟩) sender steps past steadfast

theorem message_eq (steadfast : Steadfast destination past sender) {message : Message}
    (isSent : message ∈ past.filterMap Occurrence.message?) :
    ∃ (event : StreamEvent) (timestamp : Seconds),
      message = event.call destination.address timestamp := by
  obtain ⟨occurrence, isMember, messageEq⟩ := List.mem_filterMap.mp isSent
  cases occurrence with
  | sent speaker timestamp event =>
      rw [← Option.some.inj messageEq, ← steadfast.sent _ _ _ isMember]
      exact ⟨event, _, rfl⟩
  | restartRefused time => cases messageEq

theorem paths (steadfast : Steadfast destination past sender) :
    (past.filterMap Occurrence.message?).map Message.path =
      (spoken past).map fun method => joinAddresses destination.address method.name := by
  unfold spoken
  rw [List.map_filterMap, List.map_filterMap]
  apply List.filterMap_congr
  intro occurrence isMember
  cases occurrence with
  | sent speaker timestamp event =>
      rw [← steadfast.sent _ _ _ isMember]
      rfl
  | restartRefused time => rfl

end Steadfast

theorem client_run (sender : Sender κ) (steps : List (Step κ)) :
    (sender.run steps).transmitter.client = sender.transmitter.client :=
  ((Steadfast.begin sender).run steps).client

theorem steadfast_run (sender : Sender κ) (steps : List (Step κ)) :
    Steadfast sender.transmitter.client
      (sender.chronicle steps ++ (sender.run steps).history .close)
      ((sender.run steps).perform .close) :=
  ((Steadfast.begin sender).run steps).perform .close

/-! ### Which service a transmitter waits for -/

/-- A log that a link keeps of the services whose status it is asked for, and of nothing else. -/
structure Inquires (log : κ → List String) : Prop where
  looked : ∀ link service, log (Link.status link service).2 = log link ++ [service]
  awaited : ∀ link service seen, Link.awaitSynchronized link service = some seen →
    ∃ times, log seen = log link ++ List.replicate times service
  noted : ∀ link notice, log (Link.note link notice) = log link
  taken : ∀ link message next, Link.send link message = .ok next → log next = log link

/-- Whether a service is all that was asked for since a log was as it was before. -/
def AskedFor (service : String) (before after : List String) : Prop :=
  ∃ times, after = before ++ List.replicate times service

theorem AskedFor.refl (service : String) (asked : List String) : AskedFor service asked asked :=
  ⟨0, (List.append_nil asked).symm⟩

theorem AskedFor.trans {service : String} {first second third : List String}
    (onward : AskedFor service first second) (further : AskedFor service second third) :
    AskedFor service first third := by
  obtain ⟨times, secondEq⟩ := onward
  obtain ⟨more, thirdEq⟩ := further
  refine ⟨times + more, ?_⟩
  rw [thirdEq, secondEq, List.append_assoc, List.replicate_append_replicate]

theorem Move.asked {log : κ → List String} (inquires : Inquires log) {sender next : Sender κ}
    {happened : List (Occurrence κ)} (move : Move sender happened next) :
    AskedFor sender.transmitter.client.service (log sender.link) (log next.link) := by
  cases move with
  | looked => exact ⟨1, inquires.looked _ _⟩
  | awaited link seen => exact inquires.awaited _ _ _ seen
  | noted notice =>
      rw [note, inquires.noted]
      exact AskedFor.refl _ _
  | begun | led | refused => exact AskedFor.refl _ _
  | declared link timed taken =>
      rw [← inquires.taken _ _ _ taken]
      exact AskedFor.refl _ _
  | restarted time link timed taken =>
      rw [← inquires.taken _ _ _ taken]
      exact AskedFor.refl _ _
  | delivered block link isOpen nonempty taken =>
      rw [← inquires.taken _ _ _ taken]
      exact AskedFor.refl _ _
  | ended link isOpen notClosed taken =>
      rw [← inquires.taken _ _ _ taken]
      exact AskedFor.refl _ _

theorem perform_asked {log : κ → List String} (inquires : Inquires log) (sender : Sender κ)
    (call : TransmitterCall) :
    AskedFor sender.transmitter.client.service (log sender.link)
      (log (sender.perform call).link) := by
  have moveKeeps : ∀ (past : List (Occurrence κ)) (current : Sender κ)
      (happened : List (Occurrence κ)) (next : Sender κ),
      current.transmitter.client = sender.transmitter.client ∧
          AskedFor sender.transmitter.client.service (log sender.link) (log current.link) →
        Move current happened next →
          next.transmitter.client = sender.transmitter.client ∧
            AskedFor sender.transmitter.client.service (log sender.link) (log next.link) := by
    rintro past current happened next ⟨client, asked⟩ move
    have kept : Steadfast current.transmitter.client ([] ++ happened) next :=
      (Steadfast.begin current).move move
    have further := move.asked inquires
    rw [client] at kept further
    exact ⟨kept.client, asked.trans further⟩
  exact ((sender.path_perform call).preserves moveKeeps [] ⟨rfl, AskedFor.refl _ _⟩).2

theorem drop_asked {log : κ → List String} (inquires : Inquires log) (sender : Sender κ) :
    AskedFor sender.transmitter.client.service (log sender.link) (log sender.drop) := by
  have closing := sender.perform_asked inquires .close
  unfold drop
  unfold perform at closing
  cases outcome : sender.close with
  | ok closed =>
      rw [outcome] at closing
      exact closing
  | error cause =>
      simp only [inquires.noted]
      exact AskedFor.refl _ _

end Sender

theorem Ledger.inquires {κ : Type} [Link κ] {log : κ → List String}
    (inquires : Sender.Inquires log) :
    Sender.Inquires fun ledger : Ledger κ => log ledger.link where
  looked _ _ := inquires.looked _ _
  awaited ledger service seen found := by
    obtain ⟨link, isSeen, seenEq⟩ := Option.map_eq_some_iff.mp found
    rw [← seenEq]
    exact inquires.awaited _ _ _ isSeen
  noted _ _ := inquires.noted _ _
  taken ledger message next isTaken := by
    obtain ⟨link, isSent, nextEq⟩ := send_ok isTaken
    rw [nextEq]
    exact inquires.taken _ _ _ isSent

theorem Recorder.inquires : Sender.Inquires Recorder.queries where
  looked recorder service := (recorder.look_spec service).2
  awaited recorder service seen found := by
    have lookAsks (current : Recorder)
        (asked : Sender.AskedFor service recorder.queries current.queries) :
        Sender.AskedFor service recorder.queries (current.look service).2.queries :=
      asked.trans ⟨1, (current.look_spec service).2⟩
    exact lookAlong_preserves lookAsks found (Sender.AskedFor.refl service recorder.queries)
  noted _ _ := rfl
  taken _ _ _ taken := (record_spec taken).2

/-! ### The meeting -/

/-- What a transmitter has in common with a receiver for as long as it is there: it sends events
only, each to the receiver's method of its kind, its link takes all of them, and it waits only for
the receiver's service. -/
structure Sender.Meets {κ : Type} [Link κ] (sender : Sender (Ledger κ)) (receiver : Receiver) :
    Prop where
  service : sender.transmitter.client.service = receiver.service.name
  reaches : ∀ method : StreamMethod,
    joinPath sender.transmitter.client.address method.name =
      .ok (joinAddresses receiver.address method.name)
  sent : ∀ steps, ∀ message ∈ (sender.run (sender.ledgerSteps steps)).drop.taken,
    (∃ (event : StreamEvent) (timestamp : Seconds),
        message = event.call receiver.address timestamp) ∧
      message.path ∈ receiver.service.methods ∧
      message.service? = some receiver.service.name
  taken : ∀ steps,
    let last := sender.run (sender.ledgerSteps steps)
    last.drop.taken.map Message.path =
      (spoken (sender.chronicle (sender.ledgerSteps steps) ++ last.history .close)).map
        fun method => joinAddresses receiver.address method.name
  asked : ∀ log : κ → List String, Inquires log → ∀ steps,
    let last := sender.run (sender.ledgerSteps steps)
    (∀ call, AskedFor receiver.service.name (log last.link.link)
        (log (last.perform call).link.link)) ∧
      AskedFor receiver.service.name (log last.link.link) (log last.drop.link)

namespace Receiver

variable {η : Type} {handler : StreamMethod → η} {bus next : Bus η} {service endpoint : String}
  {config : ReceiverConfig} {receiver : Receiver} {mixer : Mixer Seconds}

theorem meets (created : create handler bus service endpoint config = (next, .ok (receiver, mixer)))
    {κ : Type} [Link κ] {link : κ} {id : StreamId} {transmitting : TransmitterConfig}
    {sender : Sender (Ledger κ)}
    (opened : Sender.create (Ledger.blank link) id service endpoint transmitting = .ok sender) :
    sender.Meets receiver := by
  obtain ⟨_, isName, name, address, methods, valid, _⟩ := create_ok created
  have clientAddress := Sender.address_of_create opened
  have clientService : sender.transmitter.client.service = service := by
    unfold Client.service
    rw [clientAddress]
    exact firstSegment_joinAddresses isName endpoint
  constructor
  case service => rw [clientService, name]
  case reaches =>
    intro method
    unfold joinPath
    rw [clientAddress, address]
    exact if_pos (valid method)
  case sent =>
    intro steps message isTaken
    rw [Sender.drop_taken opened] at isTaken
    obtain ⟨event, timestamp, messageEq⟩ := (sender.steadfast_run _).message_eq isTaken
    rw [clientAddress, ← address] at messageEq
    refine ⟨⟨event, timestamp, messageEq⟩, ?_, ?_⟩
    · rw [methods, messageEq]
      exact mem_paths _ _
    · rw [messageEq, name, address]
      exact event.call_service? isName (valid event.method) timestamp
  case taken =>
    intro steps last
    rw [Sender.drop_taken opened, (sender.steadfast_run _).paths, clientAddress, address]
  case asked =>
    intro log inquires steps last
    have service : last.transmitter.client.service = receiver.service.name := by
      rw [Sender.client_run, clientService, name]
    rw [← service]
    exact ⟨fun call => last.perform_asked (Ledger.inquires inquires) call,
      last.drop_asked (Ledger.inquires inquires)⟩

theorem create_of_isOk (isOk : (create handler bus service endpoint config).2.isOk = true) :
    ∃ next receiver mixer,
      create handler bus service endpoint config = (next, .ok (receiver, mixer)) := by
  cases outcome : create handler bus service endpoint config with
  | mk next result =>
      rw [outcome] at isOk
      cases result with
      | error cause => contradiction
      | ok made => exact ⟨next, made.1, made.2, rfl⟩

end Receiver

/-- Both ends make the same addresses.  What is joined by a slash is an address if and only if both
sides are, and a path is taken apart into a name without slashes and the address below it.  So
wherever a receiver can be created, a transmitter to the same names can be, and the two meet;
receivers of other names bind other paths. -/
theorem endpoints_meet :
    (∀ address method, isAddress (joinAddresses address method) = true ↔
      isAddress address = true ∧ isAddress method = true) ∧
    (∀ path service method, splitPath? path = some (service, method) ↔
      path = joinAddresses service method ∧ (service ≠ "" ∧ '/' ∉ service.toList) ∧
        isAddress method = true) ∧
    (∀ (η : Type) (handler : StreamMethod → η) (bus next : Bus η) (service endpoint : String)
        (config : ReceiverConfig) (receiver : Receiver) (mixer : Mixer Seconds),
      Receiver.create handler bus service endpoint config = (next, .ok (receiver, mixer)) →
      next.methods.entries = bus.methods.entries ++ Receiver.holding handler receiver.address ∧
      receiver.service.methods = Receiver.paths receiver.address ∧
      receiver.service.name = service ∧
      ∀ (κ : Type) [Link κ] (link : κ) (id : StreamId) (transmitting : TransmitterConfig),
        transmitting.validate = .ok () →
        (∃ sender, Sender.create link id service endpoint transmitting = .ok sender) ∧
        ∃ sender, Sender.create (Ledger.blank link) id service endpoint transmitting = .ok sender ∧
          sender.Meets receiver) ∧
    (∀ (η ζ : Type) (handler : StreamMethod → η) (otherHandler : StreamMethod → ζ)
        (bus next : Bus η) (otherBus otherNext : Bus ζ)
        (service endpoint otherService otherEndpoint : String)
        (config otherConfig : ReceiverConfig) (receiver other : Receiver)
        (mixer otherMixer : Mixer Seconds),
      Receiver.create handler bus service endpoint config = (next, .ok (receiver, mixer)) →
      Receiver.create otherHandler otherBus otherService otherEndpoint otherConfig =
        (otherNext, .ok (other, otherMixer)) →
      (service, endpoint) ≠ (otherService, otherEndpoint) →
      receiver.service.methods.Disjoint other.service.methods) := by
  refine ⟨isAddress_joinAddresses, ?_, ?_, ?_⟩
  · intro path service method
    rw [← isServiceName_iff]
    exact splitPath?_eq_some_iff
  · intro η handler bus next service endpoint config receiver mixer created
    have made := Receiver.create_ok created
    refine ⟨made.entries, made.methods, made.name, ?_⟩
    intro κ _ link id transmitting validated
    have valid : isAddress (joinAddresses service endpoint) = true := by
      have isWhole := made.valid .sync
      rw [isAddress_joinAddresses] at isWhole
      exact isWhole.1
    obtain ⟨sender, opened⟩ :=
      Sender.create_of_isAddress (Ledger.blank link) id validated valid
    exact ⟨Sender.create_of_isAddress link id validated valid, sender, opened,
      Receiver.meets created opened⟩
  · intro η ζ handler otherHandler bus next otherBus otherNext service endpoint otherService
      otherEndpoint config otherConfig receiver other mixer otherMixer created otherCreated
      different
    have made := Receiver.create_ok created
    have otherMade := Receiver.create_ok otherCreated
    rw [made.methods, otherMade.methods, made.address, otherMade.address]
    apply Receiver.paths_disjoint
    intro same
    obtain ⟨sameService, sameEndpoint⟩ :=
      joinAddresses_inj_of_isServiceName made.isName otherMade.isName same
    exact different (Prod.ext sameService sameEndpoint)

def receiverCreation : Bus StreamMethod × Except EndpointError (Receiver × Mixer Seconds) :=
  Receiver.create (fun method => method) (Bus.create "peer" Binary.zero) "mixer" "0"
    Mixer.fourSlotConfig

/-- A receiver right below the address of a method of the first. -/
def nestedCreation : Bus StreamMethod × Except EndpointError (Receiver × Mixer Seconds) :=
  Receiver.create (fun method => method) receiverCreation.1 "mixer" "0/sync" Mixer.fourSlotConfig

theorem limitedLedgerSender_meets_receiver :
    let last := Sender.limitedLedgerSender.run
      (Sender.limitedLedgerSender.ledgerSteps Sender.refusedCloseSteps)
    ∃ (receiver other : Receiver) (mixer otherMixer : Mixer Seconds),
      receiverCreation.2 = .ok (receiver, mixer) ∧ nestedCreation.2 = .ok (other, otherMixer) ∧
      Sender.limitedLedgerSender.Meets receiver ∧
      last.drop.taken.map Message.path =
        ["mixer/0/sync", "mixer/0/push", "mixer/0/push", "mixer/0/close", "mixer/0/sync",
          "mixer/0/close"] ∧
      Sender.AskedFor "mixer" last.link.link.queries last.drop.link.queries ∧
      receiver.service.methods.Disjoint other.service.methods := by
  intro last
  have creationIsOk : receiverCreation.2.isOk = true := by decide +kernel
  have nestedIsOk : nestedCreation.2.isOk = true := by decide +kernel
  unfold receiverCreation at creationIsOk
  unfold nestedCreation at nestedIsOk
  obtain ⟨next, receiver, mixer, created⟩ := Receiver.create_of_isOk creationIsOk
  obtain ⟨otherNext, other, otherMixer, otherCreated⟩ := Receiver.create_of_isOk nestedIsOk
  have opened : Sender.create (Ledger.blank (Sender.limitedRecorder (some 2))) { value := 0 }
      "mixer" "0" Sender.promptConfig = .ok Sender.limitedLedgerSender :=
    Sender.create_freshSender rfl _
  have made := Receiver.create_ok created
  obtain ⟨_, _, meet, apart⟩ := endpoints_meet
  obtain ⟨_, _, _, found⟩ := meet _ _ _ _ _ _ _ _ _ created
  obtain ⟨_, sender, sameOpened, meets⟩ :=
    found Recorder (Sender.limitedRecorder (some 2)) { value := 0 } Sender.promptConfig rfl
  rw [opened] at sameOpened
  rw [← Except.ok.inj sameOpened] at meets
  have paths : last.drop.taken.map Message.path =
      [StreamMethod.sync, .push, .push, .close, .sync, .close].map
        fun method => joinAddresses receiver.address method.name :=
    (meets.taken Sender.refusedCloseSteps).trans
      (congrArg (List.map _) Sender.spoken_refusedCloseSteps)
  rw [made.address] at paths
  have asked := (meets.asked Recorder.queries Recorder.inquires Sender.refusedCloseSteps).2
  rw [made.name] at asked
  refine ⟨receiver, other, mixer, otherMixer, ?_, ?_, meets, paths.trans ?_, asked, ?_⟩
  · exact congrArg Prod.snd created
  · exact congrArg Prod.snd otherCreated
  · decide +kernel
  · exact apart _ _ _ _ _ _ _ _ _ _ _ _ _ _ _ _ _ _ created otherCreated (by simp)

end AudioBus
