import AudioBus.Proofs.Venue.Basic

/-!
Receivers among others.  Whatever goes on at a venue, the mixer of a receiver is in the state to
which the calls of its consumer and the events that were dispatched to it bring a mixer that stands
alone.
-/

namespace AudioBus

/-- What a mixer makes of a message when it listens at an address, or nowhere. -/
def Reception.overhear (reception : Reception) (address : Option String) (message : Message) :
    Reception :=
  match address.bind fun address => StreamEvent.carried? address message with
  | none => reception
  | some event => reception.hear event

/-! ### A mixer that stands alone -/

/-- A mixer that stands alone, and the address at which it is to be fed, until its receiver goes. -/
structure Standing where
  reception : Reception
  address : Option String

namespace Standing

/-- What a report means for the mixer of the receiver with a number. -/
def after (number : Nat) (standing : Option Standing) : Report → Option Standing
  | .opened other address config =>
      if other = number then
        (Mixer.create config).toOption.map fun mixer =>
          { reception := { mixer := mixer, outcomes := [] }, address := some address }
      else standing
  | .dropped other =>
      if other = number then standing.map fun fed => { fed with address := none } else standing
  | .called other call =>
      if other = number then
        standing.map fun fed => { fed with reception := fed.reception.call call }
      else standing
  | .dispatched message =>
      standing.map fun fed => { fed with reception := fed.reception.overhear fed.address message }

def told (number : Nat) (reports : List Report) : Option Standing :=
  reports.foldl (after number) none

theorem told_append (number : Nat) (reports more : List Report) :
    told number (reports ++ more) = more.foldl (after number) (told number reports) :=
  List.foldl_append

theorem told_dispatched (number : Nat) (standing : Option Standing) (messages : List Message) :
    (messages.map Report.dispatched).foldl (after number) standing =
      standing.map fun fed =>
        { fed with
          reception :=
            messages.foldl (fun heard message => heard.overhear fed.address message)
              fed.reception } := by
  induction messages generalizing standing with
  | nil => exact Option.map_id'.symm
  | cons message rest inductionHypothesis =>
      rw [List.map_cons, List.foldl_cons, inductionHypothesis]
      cases standing with
      | none => rfl
      | some fed => rfl

end Standing

/-! ### Bound methods and the receivers behind them -/

/-- Whether the methods of receivers are bound, each to its path with its signature, and no others
to receivers. -/
structure Tuned {η : Type} (methods : Table String (Method (VenueHandler η)))
    (receivers : Table Nat Receiver) : Prop where
  bound : ∀ number receiver, receivers.find? number = some receiver →
    ∀ entry ∈ Receiver.holding (VenueHandler.receiver number) receiver.address,
      entry ∈ methods.entries
  owned : ∀ entry ∈ methods.entries, ∀ number method,
    entry.2.handler = .receiver number method →
      ∃ receiver, receivers.find? number = some receiver ∧
        entry ∈ Receiver.holding (VenueHandler.receiver number) receiver.address

namespace Tuned

variable {η : Type} {methods : Table String (Method (VenueHandler η))}
  {receivers : Table Nat Receiver}

theorem find?_of_carried? (tuned : Tuned methods receivers) {number : Nat} {receiver : Receiver}
    (isLive : receivers.find? number = some receiver) {message : Message} {event : StreamEvent}
    (carries : StreamEvent.carried? receiver.address message = some event) :
    methods.find? message.path =
        some { signature := event.method.signature, handler := .receiver number event.method } ∧
      event.method.signature.accepts message.arguments = true := by
  have isPath := StreamEvent.path_of_carried? carries
  constructor
  · rw [Table.find?_eq_some_iff, isPath]
    apply tuned.bound number receiver isLive
    exact List.mem_map.mpr ⟨event.method, event.method.mem_all, rfl⟩
  · rw [StreamEvent.carried?_eq isPath] at carries
    rcases StreamEvent.ofCall?_cases event.method message.arguments with
      ⟨_, none⟩ | ⟨_, accepts, _⟩
    · rw [none] at carries
      contradiction
    · exact accepts

theorem carried?_of_find? (tuned : Tuned methods receivers) {message : Message}
    {method : Method (VenueHandler η)} (found : methods.find? message.path = some method)
    (accepts : method.signature.accepts message.arguments = true) {number : Nat}
    {spoken : StreamMethod} (isReceiver : method.handler = .receiver number spoken) :
    ∃ receiver event, receivers.find? number = some receiver ∧
      StreamEvent.carried? receiver.address message = some event ∧
      StreamEvent.ofArguments spoken message.arguments = .ok event := by
  obtain ⟨receiver, isLive, holds⟩ :=
    tuned.owned _ (Table.find?_eq_some_iff.mp found) number spoken isReceiver
  obtain ⟨other, _, entryEq⟩ := List.mem_map.mp holds
  obtain ⟨pathEq, methodEq⟩ := Prod.mk.inj entryEq
  rw [← methodEq] at accepts isReceiver
  cases isReceiver
  rcases StreamEvent.ofCall?_cases spoken message.arguments with
    ⟨refused, _⟩ | ⟨event, _, read, called⟩
  · rw [refused] at accepts
    contradiction
  · refine ⟨receiver, event, isLive, ?_, read⟩
    rw [StreamEvent.carried?_eq pathEq.symm]
    exact called

end Tuned

def addressOf? (receivers : Table Nat Receiver) (number : Nat) : Option String :=
  (receivers.find? number).map Receiver.address

namespace Reception

theorem overhear_nothing (reception : Reception) {address : Option String} {message : Message}
    (nothing : ∀ place, address = some place → StreamEvent.carried? place message = none) :
    reception.overhear address message = reception := by
  unfold overhear
  cases address with
  | none => rfl
  | some place =>
      change (match StreamEvent.carried? place message with
        | none => reception
        | some event => reception.hear event) = reception
      rw [nothing place rfl]

theorem overhear_event (reception : Reception) {address : String} {message : Message}
    {event : StreamEvent} (carries : StreamEvent.carried? address message = some event) :
    reception.overhear (some address) message = reception.hear event := by
  unfold overhear
  change (match StreamEvent.carried? address message with
    | none => reception
    | some event => reception.hear event) = reception.hear event
  rw [carries]

end Reception

theorem listening_hear {spoken : StreamMethod} {message : Message} {event : StreamEvent}
    (read : StreamEvent.ofArguments spoken message.arguments = .ok event) (now : Seconds)
    (reception : Reception) :
    (listening spoken message now reception).outside = reception.hear event := by
  unfold listening Mixer.receive
  change Reception.mk _ _ = _
  rw [read]
  rfl

namespace Tuned

variable {η ω : Type} {receivers : Table Nat Receiver}
  {peer : Peer (VenueHandler η) (Hall ω)}

theorem overhear_elsewhere (tuned : Tuned peer.bus.methods receivers) {message : Message}
    {number : Nat}
    (elsewhere : ∀ method spoken, peer.bus.methods.find? message.path = some method →
      method.signature.accepts message.arguments = true →
        method.handler ≠ .receiver number spoken)
    (reception : Reception) :
    reception.overhear (addressOf? receivers number) message = reception := by
  apply reception.overhear_nothing
  intro place isPlace
  obtain ⟨receiver, isLive, placeEq⟩ := Option.map_eq_some_iff.mp isPlace
  rw [← placeEq]
  cases carries : StreamEvent.carried? receiver.address message with
  | none => rfl
  | some event =>
      obtain ⟨found, accepts⟩ := tuned.find?_of_carried? isLive carries
      exact absurd rfl (elsewhere _ event.method found accepts)

/-- A dispatched message is heard by the receiver that it carries an event to, and by no other. -/
theorem deliver (tuned : Tuned peer.bus.methods receivers) (manners : Manners η ω)
    {frame : List UInt8} {message : Message} (decoded : Message.decode frame = .ok message)
    (number : Nat) :
    (peer.deliver (VenueHandler.react manners) frame).1.outside.receptions[number]? =
      (peer.outside.receptions[number]?).map fun reception =>
        reception.overhear (addressOf? receivers number) message := by
  have verdict := peer.bus.judge_of_decoded decoded
  -- Where the receiver's methods are not called, its reception stays as it is.
  have unheard (same :
        (peer.deliver (VenueHandler.react manners) frame).1.outside.receptions[number]? =
          peer.outside.receptions[number]?)
      (elsewhere : ∀ method spoken, peer.bus.methods.find? message.path = some method →
        method.signature.accepts message.arguments = true →
          method.handler ≠ .receiver number spoken) :
      (peer.deliver (VenueHandler.react manners) frame).1.outside.receptions[number]? =
        (peer.outside.receptions[number]?).map fun reception =>
          reception.overhear (addressOf? receivers number) message := by
    rw [same]
    simp only [tuned.overhear_elsewhere elsewhere]
    exact Option.map_id'.symm
  cases found : peer.bus.methods.find? message.path with
  | none =>
      rw [found] at verdict
      apply unheard
      · unfold Peer.deliver
        rw [verdict]
      · intro method spoken isFound
        rw [found] at isFound
        contradiction
  | some method =>
      rw [found] at verdict
      by_cases accepts : method.signature.accepts message.arguments = true
      · simp only [accepts, if_true] at verdict
        cases isHandler : method.handler with
        | other handler =>
            apply unheard
            · unfold Peer.deliver
              rw [verdict, isHandler]
              rfl
            · intro otherMethod spoken isFound _
              rw [found] at isFound
              cases isFound
              rw [isHandler]
              exact nofun
        | receiver listener spoken =>
            obtain ⟨receiver, event, isLive, carries, read⟩ :=
              tuned.carried?_of_find? found accepts isHandler
            have reached : (peer.deliver (VenueHandler.react manners) frame).1.outside =
                (VenueHandler.react manners (.receiver listener spoken) message peer.bus.clock
                  peer.outside).outside := by
              unfold Peer.deliver
              rw [verdict, isHandler]
            by_cases isListener : listener = number
            · subst isListener
              rw [reached, VenueHandler.react_receiver, if_pos rfl]
              unfold addressOf?
              simp only [isLive, Option.map_some, Reception.overhear_event _ carries,
                listening_hear read]
            · apply unheard
              · rw [reached, VenueHandler.react_receiver, if_neg isListener]
              · intro otherMethod otherSpoken isFound _ isReceiver
                rw [found] at isFound
                cases isFound
                rw [isHandler] at isReceiver
                cases isReceiver
                exact isListener rfl
      · simp only [accepts] at verdict
        apply unheard
        · unfold Peer.deliver
          rw [verdict]
          rfl
        · intro otherMethod spoken isFound isTaken
          rw [found] at isFound
          cases isFound
          exact absurd isTaken accepts

theorem deliverAll (tuned : Tuned peer.bus.methods receivers) (manners : Manners η ω)
    (batch : List Pending) (number : Nat) :
    (peer.deliverAll (VenueHandler.react manners) batch).1.bus.methods = peer.bus.methods ∧
      (peer.deliverAll (VenueHandler.react manners) batch).1.outside.receptions[number]? =
        (peer.outside.receptions[number]?).map fun reception =>
          (batch.filterMap Pending.message?).foldl
            (fun heard message => heard.overhear (addressOf? receivers number) message)
            reception := by
  induction batch generalizing peer with
  | nil => exact ⟨rfl, Option.map_id'.symm⟩
  | cons entry rest inductionHypothesis =>
      have sameMethods := VenueHandler.deliver_methods manners peer entry.frame
      have stillTuned := tuned
      rw [← sameMethods] at stillTuned
      obtain ⟨restMethods, restHeard⟩ := inductionHypothesis stillTuned
      refine ⟨restMethods.trans sameMethods, restHeard.trans ?_⟩
      cases decoded : Message.decode entry.frame with
      | error cause =>
          have unmoved : (peer.deliver (VenueHandler.react manners) entry.frame).1.outside =
              peer.outside := by
            unfold Peer.deliver Bus.judge
            rw [decoded]
          have empty : entry.message? = none := congrArg Except.toOption decoded
          rw [unmoved, List.filterMap_cons_none empty]
      | ok message =>
          have holds : entry.message? = some message := congrArg Except.toOption decoded
          rw [tuned.deliver manners decoded number, Option.map_map,
            List.filterMap_cons_some holds]
          rfl

end Tuned

namespace Tuned

variable {η : Type} {methods changed : Table String (Method (VenueHandler η))}
  {receivers left : Table Nat Receiver}

theorem add_receiver (tuned : Tuned methods receivers) {number : Nat} {receiver : Receiver}
    (isNew : number ∉ receivers.keys)
    (entries : changed.entries = methods.entries ++
      Receiver.holding (VenueHandler.receiver number) receiver.address) :
    Tuned changed (receivers.insert number receiver) := by
  have former {other : Nat} {live : Receiver} (isLive : receivers.find? other = some live) :
      (receivers.insert number receiver).find? other = some live := by
    rw [← isLive]
    apply Table.find?_insert_of_ne
    intro same
    rw [same, (receivers.find?_eq_none_iff number).mpr isNew] at isLive
    contradiction
  constructor
  case bound =>
    intro other live isLive entry holds
    rw [entries]
    by_cases isOpened : other = number
    · rw [isOpened, Table.find?_insert_self] at isLive
      cases isLive
      rw [isOpened] at holds
      exact List.mem_append_right _ holds
    · rw [Table.find?_insert_of_ne _ isOpened] at isLive
      exact List.mem_append_left _ (tuned.bound other live isLive entry holds)
  case owned =>
    intro entry isEntry other method isReceiver
    rw [entries] at isEntry
    rcases List.mem_append.mp isEntry with wasEntry | holds
    · obtain ⟨live, isLive, held⟩ := tuned.owned entry wasEntry other method isReceiver
      exact ⟨live, former isLive, held⟩
    · obtain ⟨spoken, _, entryEq⟩ := List.mem_map.mp holds
      rw [← entryEq] at isReceiver
      cases isReceiver
      exact ⟨receiver, Table.find?_insert_self _ _ _, holds⟩

theorem add_other (tuned : Tuned methods receivers) {path : String} {signature : Signature}
    {handler : η}
    (entries : changed.entries = methods.entries ++
      [(path, { signature := signature, handler := .other handler })]) :
    Tuned changed receivers := by
  constructor
  case bound =>
    intro number receiver isLive entry holds
    rw [entries]
    exact List.mem_append_left _ (tuned.bound number receiver isLive entry holds)
  case owned =>
    intro entry isEntry number method isReceiver
    rw [entries] at isEntry
    rcases List.mem_append.mp isEntry with wasEntry | isAdded
    · exact tuned.owned entry wasEntry number method isReceiver
    · rw [List.mem_singleton.mp isAdded] at isReceiver
      contradiction

/-- When paths are unbound, the receivers that own none of them stay, and those that own all of
theirs may go. -/
theorem unbind (tuned : Tuned methods receivers) {gone : List String}
    (entries : changed.entries = methods.entries.filter fun entry => decide (entry.1 ∉ gone))
    (stays : ∀ number receiver, left.find? number = some receiver →
      receivers.find? number = some receiver ∧
        ∀ path ∈ Receiver.paths receiver.address, path ∉ gone)
    (goes : ∀ number receiver, receivers.find? number = some receiver →
      left.find? number = some receiver ∨
        ∀ path ∈ Receiver.paths receiver.address, path ∈ gone) :
    Tuned changed left := by
  have isPath {number : Nat} {receiver : Receiver} {entry : String × Method (VenueHandler η)}
      (holds : entry ∈ Receiver.holding (VenueHandler.receiver number) receiver.address) :
      entry.1 ∈ Receiver.paths receiver.address := by
    have isKey := List.mem_map_of_mem (f := Prod.fst) holds
    rw [Receiver.holding_keys] at isKey
    exact isKey
  constructor
  case bound =>
    intro number receiver isLeft entry holds
    obtain ⟨isLive, apart⟩ := stays number receiver isLeft
    rw [entries]
    exact List.mem_filter.mpr ⟨tuned.bound number receiver isLive entry holds,
      decide_eq_true (apart _ (isPath holds))⟩
  case owned =>
    intro entry isEntry number method isReceiver
    rw [entries] at isEntry
    obtain ⟨wasEntry, stayed⟩ := List.mem_filter.mp isEntry
    obtain ⟨receiver, isLive, holds⟩ := tuned.owned entry wasEntry number method isReceiver
    rcases goes number receiver isLive with isLeft | isGone
    · exact ⟨receiver, isLeft, holds⟩
    · exact absurd (isGone _ (isPath holds)) (of_decide_eq_true stayed)

end Tuned

/-! ### Standings at a venue -/

def standingOf (receptions : List Reception) (receivers : Table Nat Receiver) (number : Nat) :
    Option Standing :=
  (receptions[number]?).map fun reception =>
    { reception := reception, address := addressOf? receivers number }

section Standings

variable {receptions : List Reception} {receivers : Table Nat Receiver}

theorem standingOf_append (reception : Reception) (receiver : Receiver) (number : Nat) :
    standingOf (receptions ++ [reception]) (receivers.insert receptions.length receiver) number =
      if receptions.length = number then
        some { reception := reception, address := some receiver.address }
      else standingOf receptions receivers number := by
  unfold standingOf addressOf?
  by_cases isOpened : receptions.length = number
  · rw [if_pos isOpened, ← isOpened, List.getElem?_concat_length, Table.find?_insert_self]
    rfl
  · rw [if_neg isOpened, Table.find?_insert_of_ne _ (Ne.symm isOpened)]
    have sameReception : (receptions ++ [reception])[number]? = receptions[number]? := by
      rcases Nat.lt_or_gt_of_ne isOpened with beyond | within
      · rw [List.getElem?_eq_none (Nat.le_of_lt beyond), List.getElem?_eq_none]
        rw [List.length_append, List.length_singleton]
        omega
      · exact List.getElem?_append_left within
    rw [sameReception]

theorem standingOf_erase (number other : Nat) :
    standingOf receptions (receivers.erase number) other =
      if number = other then
        (standingOf receptions receivers other).map fun fed => { fed with address := none }
      else standingOf receptions receivers other := by
  unfold standingOf addressOf?
  by_cases isDropped : number = other
  · rw [if_pos isDropped, isDropped, Table.find?_erase_self, Option.map_map]
    rfl
  · rw [if_neg isDropped, Table.find?_erase_of_ne _ (Ne.symm isDropped)]

theorem standingOf_set {number : Nat} {reception : Reception}
    (inHall : receptions[number]? = some reception) (change : Reception → Reception)
    (other : Nat) :
    standingOf (receptions.set number (change reception)) receivers other =
      if number = other then
        (standingOf receptions receivers other).map fun fed =>
          { fed with reception := change fed.reception }
      else standingOf receptions receivers other := by
  unfold standingOf
  by_cases isChanged : number = other
  · subst isChanged
    obtain ⟨inRange, _⟩ := List.getElem?_eq_some_iff.mp inHall
    rw [if_pos rfl, List.getElem?_set_self inRange, inHall]
    rfl
  · rw [if_neg isChanged, List.getElem?_set_ne isChanged]

end Standings

def providersOf (receivers : Table Nat Receiver) (services : Table Nat Service) : List Service :=
  receivers.values.map Receiver.service ++ services.values

section Providers

variable {receivers : Table Nat Receiver} {services : Table Nat Service} {number : Nat}

theorem providersOf_insert_receiver (receiver : Receiver) (isNew : number ∉ receivers.keys) :
    (receiver.service :: providersOf receivers services).Perm
      (providersOf (receivers.insert number receiver) services) := by
  have inserted := (receivers.insert_values_perm number receiver).symm
  rw [Table.erase_of_absent isNew] at inserted
  exact (inserted.map Receiver.service).append_right services.values

theorem providersOf_erase_receiver {receiver : Receiver}
    (found : receivers.find? number = some receiver) :
    (providersOf receivers services).Perm
      (receiver.service :: providersOf (receivers.erase number) services) :=
  ((Table.values_perm_of_find? found).map Receiver.service).append_right services.values

theorem providersOf_insert_service (service : Service) :
    (service :: providersOf receivers (services.erase number)).Perm
      (providersOf receivers (services.insert number service)) :=
  List.perm_middle.symm.trans
    ((services.insert_values_perm number service).symm.append_left _)

theorem providersOf_erase_service {service : Service}
    (found : services.find? number = some service) :
    (providersOf receivers services).Perm
      (service :: providersOf receivers (services.erase number)) :=
  ((Table.values_perm_of_find? found).append_left _).trans List.perm_middle

theorem mem_providersOf {receiver : Receiver} (isLive : receivers.find? number = some receiver) :
    receiver.service ∈ providersOf receivers services :=
  List.mem_append_left _ (List.mem_map_of_mem (Table.mem_values_of_find? isLive))

end Providers

/-! ### The invariant -/

namespace Venue

variable {η ω : Type}

def standing? (venue : Venue η ω) (number : Nat) : Option Standing :=
  standingOf venue.receptions venue.receivers number

structure InTune (venue : Venue η ω) : Prop where
  registers : venue.bus.Registers (providersOf venue.receivers venue.services)
  paths : ∀ number receiver, venue.receivers.find? number = some receiver →
    receiver.service.methods = Receiver.paths receiver.address
  tuned : Tuned venue.bus.methods venue.receivers
  receiverNumbers : ∀ number ∈ venue.receivers.keys, number < venue.receptions.length
  serviceNumbers : ∀ number ∈ venue.services.keys, number < venue.serviceCount
  standing : ∀ number, venue.standing? number = Standing.told number venue.reports
  dispatched : venue.reports.filterMap Report.message? = venue.taken.filterMap Pending.message?

namespace InTune

variable {venue next : Venue η ω}

theorem create (peerName : String) (clock : Seconds) (beyond : ω) :
    (Venue.create (η := η) peerName clock beyond).InTune := by
  constructor
  case registers => exact List.Perm.refl _
  case paths => exact nofun
  case tuned =>
    constructor
    · exact nofun
    · exact fun _ isEntry => absurd isEntry List.not_mem_nil
  case receiverNumbers => exact fun _ isKey => absurd isKey List.not_mem_nil
  case serviceNumbers => exact fun _ isKey => absurd isKey List.not_mem_nil
  case standing => exact fun _ => rfl
  case dispatched => rfl

theorem of_same (inTune : venue.InTune)
    (methods : next.bus.methods.entries = venue.bus.methods.entries)
    (receivers : next.receivers = venue.receivers) (services : next.services = venue.services)
    (serviceCount : next.serviceCount = venue.serviceCount)
    (receptions : next.receptions = venue.receptions) (reports : next.reports = venue.reports)
    (taken : next.taken = venue.taken) : next.InTune := by
  have sameMethods := Table.eq_of_entries methods
  constructor
  case registers =>
    rw [receivers, services]
    exact inTune.registers.of_same (congrArg Table.keys sameMethods)
  case paths =>
    rw [receivers]
    exact inTune.paths
  case tuned =>
    rw [sameMethods, receivers]
    exact inTune.tuned
  case receiverNumbers =>
    rw [receivers, receptions]
    exact inTune.receiverNumbers
  case serviceNumbers =>
    rw [services, serviceCount]
    exact inTune.serviceNumbers
  case standing =>
    unfold standing?
    rw [receptions, receivers, reports]
    exact inTune.standing
  case dispatched =>
    rw [reports, taken]
    exact inTune.dispatched

theorem dispatched_silent (inTune : venue.InTune) {report : Report}
    (silent : report.message? = none) :
    (venue.reports ++ [report]).filterMap Report.message? =
      venue.taken.filterMap Pending.message? := by
  rw [List.filterMap_append, List.filterMap_cons_none silent, List.filterMap_nil, List.append_nil]
  exact inTune.dispatched

theorem poll_heard (inTune : venue.InTune) (manners : Manners η ω) (number : Nat) :
    (venue.poll manners).bus.methods = venue.bus.methods ∧
      (venue.poll manners).receptions[number]? =
        (venue.receptions[number]?).map fun reception =>
          ((venue.peer.dispatched .poll).filterMap Pending.message?).foldl
            (fun heard message => heard.overhear (addressOf? venue.receivers number) message)
            reception := by
  have relieved : Tuned venue.peer.relieved.bus.methods venue.receivers := inTune.tuned
  exact relieved.deliverAll manners (venue.peer.dispatched .poll) number

theorem poll (inTune : venue.InTune) (manners : Manners η ω) : (venue.poll manners).InTune := by
  have methods := (inTune.poll_heard manners 0).1
  constructor
  case registers => exact inTune.registers.of_same (congrArg Table.keys methods)
  case paths => exact inTune.paths
  case tuned =>
    rw [methods]
    exact inTune.tuned
  case receiverNumbers =>
    intro number isKey
    have inHall := List.getElem?_eq_getElem (inTune.receiverNumbers number isKey)
    have stillThere := (inTune.poll_heard manners number).2
    rw [inHall] at stillThere
    exact (List.getElem?_eq_some_iff.mp stillThere).1
  case serviceNumbers => exact inTune.serviceNumbers
  case standing =>
    intro number
    change standingOf (venue.poll manners).receptions venue.receivers number =
      Standing.told number (venue.reports ++ _)
    rw [Standing.told_append, Standing.told_dispatched, ← inTune.standing]
    unfold standing? standingOf
    rw [(inTune.poll_heard manners number).2, Option.map_map, Option.map_map]
    rfl
  case dispatched =>
    have readBack (messages : List Message) :
        (messages.map Report.dispatched).filterMap Report.message? = messages := by
      rw [List.filterMap_map]
      exact List.filterMap_some
    change (venue.reports ++ (_ : List Message).map Report.dispatched).filterMap _ =
      (venue.taken ++ _).filterMap _
    rw [List.filterMap_append, List.filterMap_append, readBack, inTune.dispatched]

theorem openReceiver (inTune : venue.InTune) (service endpoint : String)
    (config : ReceiverConfig) : (venue.openReceiver service endpoint config).InTune := by
  unfold Venue.openReceiver
  dsimp only
  cases outcome : Receiver.create (VenueHandler.receiver venue.receptions.length) venue.bus
      service endpoint config with
  | mk bus result =>
      cases result with
      | error cause =>
          exact inTune.of_same (Receiver.create_error outcome).2.1 rfl rfl rfl rfl rfl rfl
      | ok made =>
          obtain ⟨receiver, mixer⟩ := made
          have created := Receiver.create_ok outcome
          have isNew : venue.receptions.length ∉ venue.receivers.keys :=
            fun isKey => Nat.lt_irrefl _ (inTune.receiverNumbers _ isKey)
          constructor
          case registers =>
            exact (inTune.registers.join created.entries created.methods).perm
              (providersOf_insert_receiver receiver isNew)
          case paths =>
            intro number live isLive
            change (venue.receivers.insert venue.receptions.length receiver).find? number =
              some live at isLive
            by_cases isOpened : number = venue.receptions.length
            · rw [isOpened, Table.find?_insert_self] at isLive
              cases isLive
              exact created.methods
            · rw [Table.find?_insert_of_ne _ isOpened] at isLive
              exact inTune.paths number live isLive
          case tuned => exact inTune.tuned.add_receiver isNew created.entries
          case receiverNumbers =>
            have longer (opened : Reception) :
                venue.receptions.length < (venue.receptions ++ [opened]).length := by
              rw [List.length_append]
              exact Nat.lt_succ_self _
            exact Table.keys_lt_of_insert inTune.receiverNumbers (longer _)
              (Nat.le_of_lt (longer _))
          case serviceNumbers => exact inTune.serviceNumbers
          case standing =>
            intro number
            change standingOf (venue.receptions ++ [_])
              (venue.receivers.insert venue.receptions.length receiver) number =
                Standing.told number (venue.reports ++ [_])
            rw [Standing.told_append, ← inTune.standing, standingOf_append]
            simp only [List.foldl_cons, List.foldl_nil, Standing.after, created.mixed,
              created.address]
            rfl
          case dispatched => exact inTune.dispatched_silent rfl

theorem dropReceiver (inTune : venue.InTune) (number : Nat) :
    (venue.dropReceiver number).InTune := by
  unfold Venue.dropReceiver
  cases found : venue.receivers.find? number with
  | none => exact inTune
  | some receiver =>
      have registers := inTune.registers.perm (providersOf_erase_receiver found)
      have ownPaths := inTune.paths number receiver found
      have former {other : Nat} {live : Receiver}
          (isLeft : (venue.receivers.erase number).find? other = some live) :
          venue.receivers.find? other = some live := by
        rw [← isLeft]
        symm
        apply Table.find?_erase_of_ne
        intro same
        rw [same, Table.find?_erase_self] at isLeft
        contradiction
      constructor
      case registers => exact registers.drop
      case paths => exact fun other live isLeft => inTune.paths other live (former isLeft)
      case tuned =>
        apply inTune.tuned.unbind (receiver.service.drop_spec venue.bus).2
        · intro other live isLeft
          refine ⟨former isLeft, ?_⟩
          rw [← inTune.paths other live (former isLeft)]
          exact fun path isPath => registers.apart (mem_providersOf isLeft) isPath
        · intro other live isLive
          by_cases isDropped : other = number
          · rw [isDropped, found] at isLive
            cases isLive
            right
            rw [ownPaths]
            exact fun path isPath => isPath
          · left
            rw [← isLive]
            exact Table.find?_erase_of_ne _ isDropped
      case receiverNumbers =>
        exact fun other isKey => inTune.receiverNumbers other (Table.mem_keys_of_erase isKey)
      case serviceNumbers => exact inTune.serviceNumbers
      case standing =>
        intro other
        change standingOf venue.receptions (venue.receivers.erase number) other =
          Standing.told other (venue.reports ++ [_])
        rw [Standing.told_append, ← inTune.standing, standingOf_erase]
        rfl
      case dispatched => exact inTune.dispatched_silent rfl

theorem callMixer (inTune : venue.InTune) (number : Nat) (call : MixerCall Seconds) :
    (venue.callMixer number call).InTune := by
  unfold Venue.callMixer
  cases inHall : venue.receptions[number]? with
  | none => exact inTune
  | some reception =>
      constructor
      case registers => exact inTune.registers
      case paths => exact inTune.paths
      case tuned => exact inTune.tuned
      case receiverNumbers =>
        intro other isKey
        change other < (venue.receptions.set number _).length
        rw [List.length_set]
        exact inTune.receiverNumbers other isKey
      case serviceNumbers => exact inTune.serviceNumbers
      case standing =>
        intro other
        change
          standingOf (venue.receptions.set number (reception.call call)) venue.receivers other =
            Standing.told other (venue.reports ++ [.called number call])
        rw [Standing.told_append, ← inTune.standing,
          standingOf_set inHall fun called => called.call call]
        rfl
      case dispatched => exact inTune.dispatched_silent rfl

theorem provide (inTune : venue.InTune) (name : String) : (venue.provide name).InTune := by
  unfold Venue.provide Service.provide
  by_cases isName : isServiceName name = true
  · obtain ⟨_, sameMethods, _⟩ := venue.bus.acquire_spec name
    have isNew : venue.serviceCount ∉ venue.services.keys :=
      fun isKey => Nat.lt_irrefl _ (inTune.serviceNumbers _ isKey)
    have entries : (venue.bus.acquire name).methods.entries = venue.bus.methods.entries ++ [] := by
      rw [sameMethods, List.append_nil]
    rw [if_pos isName]
    constructor
    case registers =>
      have listed : ({ name := name, methods := [] } : Service).methods = [] := rfl
      have joins : List.Perm (_ :: providersOf venue.receivers _)
          (providersOf venue.receivers (venue.services.insert venue.serviceCount _)) :=
        providersOf_insert_service { name := name, methods := [] }
      rw [Table.erase_of_absent isNew] at joins
      exact (inTune.registers.join entries listed).perm joins
    case paths => exact inTune.paths
    case tuned =>
      change Tuned (venue.bus.acquire name).methods venue.receivers
      rw [sameMethods]
      exact inTune.tuned
    case receiverNumbers => exact inTune.receiverNumbers
    case serviceNumbers =>
      exact Table.keys_lt_of_insert inTune.serviceNumbers (Nat.lt_succ_self _) (Nat.le_succ _)
    case standing => exact inTune.standing
    case dispatched => exact inTune.dispatched
  · rw [if_neg isName]
    exact inTune

theorem implement (inTune : venue.InTune) (number : Nat) (method signature : String)
    (handler : η) : (venue.implement number method signature handler).InTune := by
  unfold Venue.implement
  cases found : venue.services.find? number with
  | none => exact inTune
  | some service =>
      simp only
      cases outcome : service.implement venue.bus method signature (.other handler) with
      | error cause => exact inTune
      | ok made =>
          obtain ⟨extended, bus⟩ := made
          obtain ⟨extendedEq, _, _, _, _, adds⟩ := Service.implement_spec outcome
          constructor
          case registers =>
            have registers := inTune.registers.perm (providersOf_erase_service found)
            have grown := registers.extend adds.entries
            rw [List.map_singleton, ← extendedEq] at grown
            exact grown.perm (providersOf_insert_service extended)
          case paths => exact inTune.paths
          case tuned => exact inTune.tuned.add_other adds.entries
          case receiverNumbers => exact inTune.receiverNumbers
          case serviceNumbers =>
            have isBelow := inTune.serviceNumbers number (Table.mem_keys_of_find? found)
            exact Table.keys_lt_of_insert inTune.serviceNumbers isBelow (Nat.le_refl _)
          case standing => exact inTune.standing
          case dispatched => exact inTune.dispatched

theorem dropService (inTune : venue.InTune) (number : Nat) : (venue.dropService number).InTune := by
  unfold Venue.dropService
  cases found : venue.services.find? number with
  | none => exact inTune
  | some service =>
      have registers := inTune.registers.perm (providersOf_erase_service found)
      constructor
      case registers => exact registers.drop
      case paths => exact inTune.paths
      case tuned =>
        apply inTune.tuned.unbind (service.drop_spec venue.bus).2
        · intro other live isLive
          refine ⟨isLive, ?_⟩
          rw [← inTune.paths other live isLive]
          exact fun path isPath => registers.apart (mem_providersOf isLive) isPath
        · exact fun other live isLive => Or.inl isLive
      case receiverNumbers => exact inTune.receiverNumbers
      case serviceNumbers =>
        exact fun other isKey => inTune.serviceNumbers other (Table.mem_keys_of_erase isKey)
      case standing => exact inTune.standing
      case dispatched => exact inTune.dispatched

theorem openTransmitter (inTune : venue.InTune) (id : StreamId) (service endpoint : String)
    (config : TransmitterConfig) : (venue.openTransmitter id service endpoint config).InTune := by
  unfold Venue.openTransmitter
  cases created : Sender.create venue.bus id service endpoint config with
  | error cause => exact inTune
  | ok sender =>
      obtain ⟨_, client, senderEq⟩ := Sender.create_ok created
      rw [senderEq]
      exact inTune.of_same rfl rfl rfl rfl rfl rfl rfl

theorem transmit (inTune : venue.InTune) (index : Nat) (call : TransmitterCall) :
    (venue.transmit index call).InTune := by
  unfold Venue.transmit
  cases venue.voices[index]? with
  | none => exact inTune
  | some voice =>
      have alike := (voice.sender venue.bus).perform_alike call
      simp only
      split
      · exact inTune.of_same (congrArg Table.entries alike.methods) rfl rfl rfl rfl rfl rfl
      · exact inTune

theorem dropTransmitter (inTune : venue.InTune) (index : Nat) :
    (venue.dropTransmitter index).InTune := by
  unfold Venue.dropTransmitter
  cases venue.voices[index]? with
  | none => exact inTune
  | some voice =>
      have alike := ((voice.sender venue.bus).perform_alike .close).trans
        (voice.sender venue.bus).drop_alike.1
      simp only
      split
      · exact inTune.of_same (congrArg Table.entries alike.methods) rfl rfl rfl rfl rfl rfl
      · exact inTune

theorem advance (inTune : venue.InTune) (manners : Manners η ω) (step : VenueStep η) :
    (venue.advance manners step).InTune := by
  cases step with
  | send message => exact inTune.of_same rfl rfl rfl rfl rfl rfl rfl
  | setClock time => exact inTune.of_same rfl rfl rfl rfl rfl rfl rfl
  | synchronize isSynchronized => exact inTune.of_same rfl rfl rfl rfl rfl rfl rfl
  | poll => exact inTune.poll manners
  | openReceiver service endpoint config => exact inTune.openReceiver service endpoint config
  | dropReceiver number => exact inTune.dropReceiver number
  | callMixer number call => exact inTune.callMixer number call
  | provide name => exact inTune.provide name
  | implement number method signature handler =>
      exact inTune.implement number method signature handler
  | dropService number => exact inTune.dropService number
  | openTransmitter id service endpoint config =>
      exact inTune.openTransmitter id service endpoint config
  | transmit index call => exact inTune.transmit index call
  | dropTransmitter index => exact inTune.dropTransmitter index

theorem run (inTune : venue.InTune) (manners : Manners η ω) (steps : List (VenueStep η)) :
    (venue.run manners steps).InTune := by
  induction steps generalizing venue with
  | nil => exact inTune
  | cons step rest inductionHypothesis => exact inductionHypothesis (inTune.advance manners step)

theorem unheard (inTune : venue.InTune) (manners : Manners η ω) {number : Nat}
    (isGone : venue.receivers.find? number = none) :
    (venue.poll manners).receptions[number]? = venue.receptions[number]? := by
  have nowhere : addressOf? venue.receivers number = none := congrArg _ isGone
  have deaf (messages : List Message) (reception : Reception) :
      messages.foldl (fun heard message => heard.overhear none message) reception = reception := by
    induction messages with
    | nil => rfl
    | cons message rest inductionHypothesis => exact inductionHypothesis
  rw [(inTune.poll_heard manners number).2, nowhere]
  simp only [deaf]
  exact Option.map_id'

end InTune

/-- Whatever is done at a venue, the mixer of every receiver is in the state of one that stands
alone and gets the calls of the consumer and, for as long as the receiver is alive, the events that
messages carry to its address, in the order in which the schedule gave them out.  No message carries
events to two live receivers, and once a receiver is gone its mixer hears nothing more, whatever
still waits. -/
theorem receivers_stand_alone (manners : Manners η ω) (peerName : String) (clock : Seconds)
    (beyond : ω) (steps : List (VenueStep η)) :
    let last := (create peerName clock beyond).run manners steps
    (∀ number, last.standing? number = Standing.told number last.reports) ∧
      last.reports.filterMap Report.message? = last.taken.filterMap Pending.message? ∧
      (∀ number receiver, last.receivers.find? number = some receiver →
        ∃ reception, last.standing? number =
          some { reception := reception, address := some receiver.address }) ∧
      (∀ message number other receiver otherReceiver event otherEvent,
        last.receivers.find? number = some receiver →
        last.receivers.find? other = some otherReceiver →
        StreamEvent.carried? receiver.address message = some event →
        StreamEvent.carried? otherReceiver.address message = some otherEvent → number = other) ∧
      ∀ number, last.receivers.find? number = none →
        (last.advance manners .poll).receptions[number]? = last.receptions[number]? := by
  intro last
  have inTune : last.InTune := (InTune.create peerName clock beyond).run manners steps
  refine ⟨inTune.standing, inTune.dispatched, ?_, ?_, fun _ isGone => inTune.unheard manners isGone⟩
  · intro number receiver isLive
    have inHall := inTune.receiverNumbers number (Table.mem_keys_of_find? isLive)
    refine ⟨last.receptions[number], ?_⟩
    unfold standing? standingOf addressOf?
    rw [List.getElem?_eq_getElem inHall, isLive]
    rfl
  · intro message number other receiver otherReceiver event otherEvent isLive isOther carries
      carriesOther
    have found := (inTune.tuned.find?_of_carried? isLive carries).1
    rw [(inTune.tuned.find?_of_carried? isOther carriesOther).1] at found
    have sameHandler := congrArg Method.handler (Option.some.inj found)
    exact (VenueHandler.receiver.inj sameHandler).1.symm

/-- Of two receivers the first gets a sync, whose time is a double, and a block.  A block that
still waits when it goes, and calls that are not of its signatures, reach neither. -/
def twoReceiverSteps : List (VenueStep Unit) :=
  [.openReceiver "mixer" "0" Mixer.fourSlotConfig, .openReceiver "mixer" "1" Mixer.fourSlotConfig,
    .send
      { timestamp := Binary.zero
        path := "mixer/0/sync"
        arguments := [.int64 7, .double Binary.zero] },
    .send
      { timestamp := Binary.zero
        path := "mixer/0/push"
        arguments := [.int64 7, .floats [Binary.zero]] },
    .send { timestamp := Binary.zero, path := "mixer/1/close", arguments := [.int32 7] },
    .poll, .callMixer 0 (.gap 1),
    .send
      { timestamp := Binary.zero
        path := "mixer/0/push"
        arguments := [.int64 7, .floats [Binary.zero]] },
    .dropReceiver 0, .poll]

theorem twoReceiverSteps_stand_alone :
    let last := (create "peer" Binary.zero ()).run idleManners twoReceiverSteps
    last.receptions.map (fun reception => reception.outcomes.length) = [2, 0] ∧
      last.reports.length = 8 ∧ last.receivers.keys = [1] ∧
      last.standing? 0 = Standing.told 0 last.reports ∧
      last.standing? 1 = Standing.told 1 last.reports ∧
      (last.advance idleManners .poll).receptions[0]? = last.receptions[0]? := by
  intro last
  obtain ⟨standing, _, _, _, unheard⟩ :=
    receivers_stand_alone idleManners "peer" Binary.zero () twoReceiverSteps
  have isGone : last.receivers.find? 0 = none := by decide +kernel
  refine ⟨?_, ?_, ?_, standing 0, standing 1, unheard 0 isGone⟩
  · decide +kernel
  · decide +kernel
  · decide +kernel

end Venue

end AudioBus
