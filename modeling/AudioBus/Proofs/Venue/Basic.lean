import AudioBus.Proofs.Receiver.Listening
import AudioBus.Proofs.Receiver.Ownership

/-!
A venue: a bus with any number of receivers, of transmitters and of other services on it, and
everything that can be done there one thing after another.

Methods are bound through receivers and services only.  The mixer of a receiver stays when the
receiver goes, as its consumer may still hold it.
-/

namespace AudioBus

/-- A handler of a venue: a method of the receiver with a number, or one of some other service. -/
inductive VenueHandler (η : Type) where
  | receiver (number : Nat) (method : StreamMethod)
  | other (handler : η)

inductive Errand where
  | send (message : Message)
  | advanceClock (length : Seconds)

def Errand.request {η : Type} : Errand → Request η
  | .send message => .send message
  | .advanceClock length => .advanceClock length

structure Answer (ω : Type) where
  beyond : ω
  notices : List Notice
  errands : List Errand

/-- How handlers of other services react to messages, given the time and what lies beyond the
venue. -/
abbrev Manners (η ω : Type) := η → Message → Seconds → ω → Answer ω

/-- What the handlers of a venue may change besides its bus.  Receivers are numbered in the order
in which they were opened. -/
structure Hall (ω : Type) where
  receptions : List Reception
  beyond : ω

namespace VenueHandler

variable {η ω : Type}

def react (manners : Manners η ω) : Behaviour (VenueHandler η) (Hall ω)
  | .receiver number method, message, now, hall =>
      match hall.receptions[number]? with
      | none => { outside := hall, notices := [], requests := [] }
      | some reception =>
          let reaction := listening method message now reception
          { outside := { hall with receptions := hall.receptions.set number reaction.outside }
            notices := reaction.notices
            requests := [] }
  | .other handler, message, now, hall =>
      let answer := manners handler message now hall.beyond
      { outside := { hall with beyond := answer.beyond }
        notices := answer.notices
        requests := answer.errands.map Errand.request }

theorem react_receiver (manners : Manners η ω) (listener : Nat) (method : StreamMethod)
    (message : Message) (now : Seconds) (hall : Hall ω) (number : Nat) :
    (react manners (.receiver listener method) message now hall).outside.receptions[number]? =
      if listener = number then
        (hall.receptions[number]?).map fun reception =>
          (listening method message now reception).outside
      else hall.receptions[number]? := by
  simp only [react]
  by_cases isListener : listener = number
  · subst isListener
    rw [if_pos rfl]
    cases inHall : hall.receptions[listener]? with
    | none => exact inHall
    | some reception =>
        obtain ⟨inRange, _⟩ := List.getElem?_eq_some_iff.mp inHall
        exact List.getElem?_set_self inRange
  · rw [if_neg isListener]
    cases hall.receptions[listener]? with
    | none => rfl
    | some reception => exact List.getElem?_set_ne isListener

theorem perform_errands (bus : Bus (VenueHandler η)) (errands : List Errand) :
    ((errands.map Errand.request).foldl Bus.perform bus).methods = bus.methods := by
  induction errands generalizing bus with
  | nil => rfl
  | cons errand rest inductionHypothesis =>
      rw [List.map_cons, List.foldl_cons, inductionHypothesis]
      cases errand with
      | send message => rfl
      | advanceClock length => rfl

theorem deliver_methods (manners : Manners η ω) (peer : Peer (VenueHandler η) (Hall ω))
    (frame : List UInt8) :
    (peer.deliver (react manners) frame).1.bus.methods = peer.bus.methods := by
  unfold Peer.deliver
  cases peer.bus.judge frame with
  | undecodable cause => exact (peer.bus.noteAll_alike _).1.methods
  | unknown message => exact (peer.bus.noteAll_alike _).1.methods
  | refused message expected => exact (peer.bus.noteAll_alike _).1.methods
  | accepted message handler =>
      have noted := fun notices => (peer.bus.noteAll_alike notices).1.methods
      cases handler with
      | other handler => exact (perform_errands _ _).trans (noted _)
      | receiver number method =>
          simp only [react]
          cases peer.outside.receptions[number]? with
          | none => exact noted _
          | some reception => exact noted _

end VenueHandler

def Pending.message? (entry : Pending) : Option Message :=
  (Message.decode entry.frame).toOption

namespace Sender

variable {η : Type}

theorem perform_alike (sender : Sender (Bus η)) (call : TransmitterCall) :
    sender.link.Alike (sender.perform call).link :=
  (sender.perform_followed call).alike

theorem drop_alike (sender : Sender (Bus η)) :
    (sender.perform .close).link.Alike sender.drop ∧
      sender.drop.pending = (sender.perform .close).link.pending ∧
      sender.drop.sent = (sender.perform .close).link.sent := by
  unfold drop perform
  cases sender.close with
  | ok closed => exact ⟨Bus.Alike.refl _, rfl, rfl⟩
  | error cause => exact ⟨⟨rfl, rfl, rfl, rfl⟩, rfl, rfl⟩

end Sender

/-- A transmitter of a venue: the frames of its events, in the order of sending, and the events
themselves.  It speaks for as long as it is present. -/
structure Voice where
  transmitter : Transmitter
  posted : List Pending
  said : List StreamEvent
  present : Bool

namespace Voice

variable {η : Type}

def id (voice : Voice) : StreamId := voice.transmitter.id

def address (voice : Voice) : String := voice.transmitter.client.address

def sender (voice : Voice) (bus : Bus η) : Sender (Bus η) where
  transmitter := voice.transmitter
  link := bus

def perform (voice : Voice) (bus : Bus η) (call : TransmitterCall) : Voice where
  transmitter := ((voice.sender bus).perform call).transmitter
  posted := voice.posted ++ ((voice.sender bus).history call).filterMap Occurrence.entry?
  said := voice.said ++ ((voice.sender bus).history call).filterMap Occurrence.event?
  present := voice.present

end Voice

inductive Report where
  | opened (number : Nat) (address : String) (config : ReceiverConfig)
  | dropped (number : Nat)
  | called (number : Nat) (call : MixerCall Seconds)
  | dispatched (message : Message)

def Report.message? : Report → Option Message
  | .dispatched message => some message
  | .opened _ _ _ | .dropped _ | .called _ _ => none

def Reception.call (reception : Reception) (call : MixerCall Seconds) : Reception :=
  { reception with mixer := reception.mixer.perform call }

structure Venue (η ω : Type) where
  peer : Peer (VenueHandler η) (Hall ω)
  receivers : Table Nat Receiver
  services : Table Nat Service
  serviceCount : Nat
  voices : List Voice
  taken : List Pending
  reports : List Report

inductive VenueStep (η : Type) where
  | send (message : Message)
  | setClock (time : Seconds)
  | synchronize (isSynchronized : Bool)
  | poll
  | openReceiver (service endpoint : String) (config : ReceiverConfig)
  | dropReceiver (number : Nat)
  | callMixer (number : Nat) (call : MixerCall Seconds)
  | provide (name : String)
  | implement (number : Nat) (method signature : String) (handler : η)
  | dropService (number : Nat)
  | openTransmitter (id : StreamId) (service endpoint : String) (config : TransmitterConfig)
  | transmit (index : Nat) (call : TransmitterCall)
  | dropTransmitter (index : Nat)

namespace Venue

variable {η ω : Type}

def create (peerName : String) (clock : Seconds) (beyond : ω) : Venue η ω where
  peer := { bus := Bus.create peerName clock, outside := { receptions := [], beyond := beyond } }
  receivers := Table.empty
  services := Table.empty
  serviceCount := 0
  voices := []
  taken := []
  reports := []

def bus (venue : Venue η ω) : Bus (VenueHandler η) := venue.peer.bus

def receptions (venue : Venue η ω) : List Reception := venue.peer.outside.receptions

def withBus (venue : Venue η ω) (bus : Bus (VenueHandler η)) : Venue η ω :=
  { venue with peer := { venue.peer with bus := bus } }

def withReceptions (venue : Venue η ω) (receptions : List Reception) : Venue η ω :=
  { venue with
    peer := { venue.peer with outside := { venue.peer.outside with receptions := receptions } } }

def report (venue : Venue η ω) (report : Report) : Venue η ω :=
  { venue with reports := venue.reports ++ [report] }

def poll (manners : Manners η ω) (venue : Venue η ω) : Venue η ω :=
  let batch := venue.peer.dispatched .poll
  { venue with
    peer := (venue.peer.poll (VenueHandler.react manners)).1
    taken := venue.taken ++ batch
    reports := venue.reports ++ (batch.filterMap Pending.message?).map .dispatched }

def openReceiver (venue : Venue η ω) (service endpoint : String) (config : ReceiverConfig) :
    Venue η ω :=
  let number := venue.receptions.length
  let (bus, result) := Receiver.create (VenueHandler.receiver number) venue.bus service endpoint
    config
  match result with
  | .error _ => venue.withBus bus
  | .ok (receiver, mixer) =>
      let opened :=
        (venue.withBus bus).withReceptions
          (venue.receptions ++ [{ mixer := mixer, outcomes := [] }])
      { opened with receivers := venue.receivers.insert number receiver }.report
        (.opened number (joinAddresses service endpoint) config)

def dropReceiver (venue : Venue η ω) (number : Nat) : Venue η ω :=
  match venue.receivers.find? number with
  | none => venue
  | some receiver =>
      { venue.withBus (receiver.drop venue.bus) with
        receivers := venue.receivers.erase number }.report (.dropped number)

def callMixer (venue : Venue η ω) (number : Nat) (call : MixerCall Seconds) : Venue η ω :=
  match venue.receptions[number]? with
  | none => venue
  | some reception =>
      (venue.withReceptions (venue.receptions.set number (reception.call call))).report
        (.called number call)

def provide (venue : Venue η ω) (name : String) : Venue η ω :=
  match Service.provide venue.bus name with
  | .error _ => venue
  | .ok (service, bus) =>
      { venue.withBus bus with
        services := venue.services.insert venue.serviceCount service
        serviceCount := venue.serviceCount + 1 }

def implement (venue : Venue η ω) (number : Nat) (method signature : String) (handler : η) :
    Venue η ω :=
  match venue.services.find? number with
  | none => venue
  | some service =>
      match service.implement venue.bus method signature (.other handler) with
      | .error _ => venue
      | .ok (extended, bus) =>
          { venue.withBus bus with services := venue.services.insert number extended }

def dropService (venue : Venue η ω) (number : Nat) : Venue η ω :=
  match venue.services.find? number with
  | none => venue
  | some service =>
      { venue.withBus (service.drop venue.bus) with services := venue.services.erase number }

def openTransmitter (venue : Venue η ω) (id : StreamId) (service endpoint : String)
    (config : TransmitterConfig) : Venue η ω :=
  match Sender.create venue.bus id service endpoint config with
  | .error _ => venue
  | .ok sender =>
      let voice :=
        { transmitter := sender.transmitter, posted := [], said := [], present := true }
      { venue.withBus sender.link with voices := venue.voices ++ [voice] }

def transmit (venue : Venue η ω) (index : Nat) (call : TransmitterCall) : Venue η ω :=
  match venue.voices[index]? with
  | none => venue
  | some voice =>
      if voice.present then
        { venue.withBus ((voice.sender venue.bus).perform call).link with
          voices := venue.voices.set index (voice.perform venue.bus call) }
      else venue

def dropTransmitter (venue : Venue η ω) (index : Nat) : Venue η ω :=
  match venue.voices[index]? with
  | none => venue
  | some voice =>
      if voice.present then
        let last := voice.perform venue.bus .close
        { venue.withBus (voice.sender venue.bus).drop with
          voices := venue.voices.set index { last with present := false } }
      else venue

def advance (manners : Manners η ω) (venue : Venue η ω) : VenueStep η → Venue η ω
  | .send message => venue.withBus (venue.bus.send message)
  | .setClock time => venue.withBus (venue.bus.setClock time)
  | .synchronize isSynchronized => venue.withBus (venue.bus.synchronize isSynchronized)
  | .poll => venue.poll manners
  | .openReceiver service endpoint config => venue.openReceiver service endpoint config
  | .dropReceiver number => venue.dropReceiver number
  | .callMixer number call => venue.callMixer number call
  | .provide name => venue.provide name
  | .implement number method signature handler => venue.implement number method signature handler
  | .dropService number => venue.dropService number
  | .openTransmitter id service endpoint config =>
      venue.openTransmitter id service endpoint config
  | .transmit index call => venue.transmit index call
  | .dropTransmitter index => venue.dropTransmitter index

def run (manners : Manners η ω) (venue : Venue η ω) (steps : List (VenueStep η)) : Venue η ω :=
  steps.foldl (advance manners) venue

def idleManners : Manners Unit Unit :=
  fun _ _ _ beyond => { beyond := beyond, notices := [], errands := [] }

end Venue

end AudioBus
