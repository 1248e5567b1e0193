import AudioBus.Proofs.Transmitter.Turns
import AudioBus.Proofs.Venue.Basic

/-!
Transmitters among others.  While the clock of a venue runs steadily, the frames of every
transmitter are taken off the schedule in the order in which it posted them, whoever else sends.
-/

namespace AudioBus

/-- A transmitter spoke in turn, and its frames bear what it said. -/
structure Voice.WellSpoken (voice : Voice) : Prop where
  turns : voice.transmitter.TakesTurns voice.said
  borne : List.Forall₂ (Bears voice.address) voice.posted voice.said
  short : ∀ event ∈ voice.said, event.samples.length < 2 ^ 64

namespace Voice.WellSpoken

variable {voice : Voice}

theorem create {η : Type} {bus : Bus η} {id : StreamId} {service endpoint : String}
    {config : TransmitterConfig} {sender : Sender (Bus η)}
    (created : Sender.create bus id service endpoint config = .ok sender) (present : Bool) :
    ({ transmitter := sender.transmitter, posted := [], said := [], present := present } :
      Voice).WellSpoken := by
  obtain ⟨_, client, senderEq⟩ := Sender.create_ok created
  rw [senderEq]
  constructor
  case turns => exact ⟨rfl, trivial, fun _ isSaid => absurd isSaid List.not_mem_nil⟩
  case borne => exact List.Forall₂.nil
  case short => exact fun _ isSaid => absurd isSaid List.not_mem_nil

theorem perform {η : Type} (wellSpoken : voice.WellSpoken) (bus : Bus η) (call : TransmitterCall) :
    (voice.perform bus call).WellSpoken := by
  have followed := (voice.sender bus).perform_followed call
  have sameAddress : (voice.perform bus call).address = voice.address :=
    congrArg Client.address followed.client
  have turns : (voice.sender bus).transmitter.TakesTurns voice.said := wellSpoken.turns
  constructor
  case turns => exact turns.perform call
  case borne =>
    rw [sameAddress]
    exact List.rel_append wellSpoken.borne followed.borne
  case short =>
    intro event isSaid
    rcases List.mem_append.mp isSaid with wasSaid | isNew
    · exact wellSpoken.short event wasSaid
    · exact (voice.sender bus).samples_lt_of_mem_history isNew

end Voice.WellSpoken

namespace Venue

variable {η ω : Type}

/-- Whether the clock shows a number after every step, and never an earlier one than before. -/
def ClockSteady (manners : Manners η ω) (venue : Venue η ω) : List (VenueStep η) → Prop
  | [] => True
  | step :: rest =>
      (venue.advance manners step).bus.clock.isNaN = false ∧
        venue.bus.clock.orderKey ≤ (venue.advance manners step).bus.clock.orderKey ∧
          (venue.advance manners step).ClockSteady manners rest

instance decidableClockSteady (manners : Manners η ω) :
    (venue : Venue η ω) → (steps : List (VenueStep η)) →
      Decidable (venue.ClockSteady manners steps)
  | _, [] => inferInstanceAs (Decidable True)
  | venue, step :: rest =>
      have _restDecidable := decidableClockSteady manners (venue.advance manners step) rest
      inferInstanceAs (Decidable (_ ∧ _ ∧ _))

/-- Whether nothing was sent or delivered, and no transmitter was asked for anything. -/
structure Undisturbed (venue next : Venue η ω) : Prop where
  frame : venue.bus.SameButRegistry next.bus
  taken : next.taken = venue.taken
  voices : next.voices = venue.voices

section Undisturbed

variable (venue : Venue η ω)

theorem undisturbed : venue.Undisturbed venue :=
  ⟨Bus.SameButRegistry.refl _, rfl, rfl⟩

theorem openReceiver_undisturbed (service endpoint : String) (config : ReceiverConfig) :
    venue.Undisturbed (venue.openReceiver service endpoint config) := by
  unfold openReceiver
  dsimp only
  cases outcome : Receiver.create (VenueHandler.receiver venue.receptions.length) venue.bus
      service endpoint config with
  | mk bus result =>
      cases result with
      | error cause => exact ⟨(Receiver.create_error outcome).1, rfl, rfl⟩
      | ok made => exact ⟨(Receiver.create_ok outcome).frame, rfl, rfl⟩

theorem dropReceiver_undisturbed (number : Nat) :
    venue.Undisturbed (venue.dropReceiver number) := by
  unfold dropReceiver
  cases venue.receivers.find? number with
  | none => exact venue.undisturbed
  | some receiver => exact ⟨(receiver.service.drop_spec venue.bus).1, rfl, rfl⟩

theorem callMixer_undisturbed (number : Nat) (call : MixerCall Seconds) :
    venue.Undisturbed (venue.callMixer number call) := by
  unfold callMixer
  cases venue.receptions[number]? with
  | none => exact venue.undisturbed
  | some reception => exact ⟨Bus.SameButRegistry.refl _, rfl, rfl⟩

theorem provide_undisturbed (name : String) : venue.Undisturbed (venue.provide name) := by
  unfold provide Service.provide
  by_cases isName : isServiceName name = true
  · rw [if_pos isName]
    exact ⟨(venue.bus.acquire_spec name).1, rfl, rfl⟩
  · rw [if_neg isName]
    exact venue.undisturbed

theorem implement_undisturbed (number : Nat) (method signature : String) (handler : η) :
    venue.Undisturbed (venue.implement number method signature handler) := by
  unfold implement
  cases venue.services.find? number with
  | none => exact venue.undisturbed
  | some service =>
      simp only
      cases outcome : service.implement venue.bus method signature (.other handler) with
      | error cause => exact venue.undisturbed
      | ok made =>
          obtain ⟨_, _, _, _, _, adds⟩ := Service.implement_spec outcome
          exact ⟨adds.frame, rfl, rfl⟩

theorem dropService_undisturbed (number : Nat) :
    venue.Undisturbed (venue.dropService number) := by
  unfold dropService
  cases venue.services.find? number with
  | none => exact venue.undisturbed
  | some service => exact ⟨(service.drop_spec venue.bus).1, rfl, rfl⟩

end Undisturbed

section Posted

variable {venue : Venue η ω} {posted : List Pending} {frontier : Int}

theorem Undisturbed.inOrder {next : Venue η ω} (undisturbed : venue.Undisturbed next)
    (inOrder : venue.bus.InOrder posted venue.taken frontier) :
    next.bus.InOrder posted next.taken frontier := by
  obtain ⟨_, _, samePending, sameSent⟩ := undisturbed.frame.mail
  rw [undisturbed.taken]
  exact inOrder.of_same _ samePending sameSent

/-- Frames that were posted before stay in order, whatever a transmitter posts now. -/
theorem perform_inOrder (inOrder : venue.bus.InOrder posted venue.taken frontier) (voice : Voice)
    (call : TransmitterCall) :
    ((voice.sender venue.bus).perform call).link.InOrder posted venue.taken frontier :=
  Sender.perform_kept (Bus.InOrder.kept posted venue.taken frontier) (voice.sender venue.bus) call
    inOrder

theorem advance_inOrder (manners : Manners η ω)
    (inOrder : venue.bus.InOrder posted venue.taken frontier) (step : VenueStep η) :
    (venue.advance manners step).bus.InOrder posted (venue.advance manners step).taken
      frontier := by
  cases step with
  | send message => exact inOrder.send_other message
  | setClock time => exact inOrder.of_same _ rfl rfl
  | synchronize isSynchronized => exact inOrder.of_same _ rfl rfl
  | poll => exact Peer.advance_inOrder (VenueHandler.react manners) .poll inOrder
  | openReceiver service endpoint config =>
      exact (venue.openReceiver_undisturbed service endpoint config).inOrder inOrder
  | dropReceiver number => exact (venue.dropReceiver_undisturbed number).inOrder inOrder
  | callMixer number call => exact (venue.callMixer_undisturbed number call).inOrder inOrder
  | provide name => exact (venue.provide_undisturbed name).inOrder inOrder
  | implement number method signature handler =>
      exact (venue.implement_undisturbed number method signature handler).inOrder inOrder
  | dropService number => exact (venue.dropService_undisturbed number).inOrder inOrder
  | openTransmitter id service endpoint config =>
      simp only [advance, openTransmitter]
      cases created : Sender.create venue.bus id service endpoint config with
      | error cause => exact inOrder
      | ok sender =>
          obtain ⟨_, client, senderEq⟩ := Sender.create_ok created
          rw [senderEq]
          exact inOrder.note _
  | transmit index call =>
      simp only [advance, transmit]
      cases venue.voices[index]? with
      | none => exact inOrder
      | some voice =>
          simp only
          split
          · exact perform_inOrder inOrder voice call
          · exact inOrder
  | dropTransmitter index =>
      simp only [advance, dropTransmitter]
      cases venue.voices[index]? with
      | none => exact inOrder
      | some voice =>
          simp only
          split
          · obtain ⟨_, samePending, sameSent⟩ := (voice.sender venue.bus).drop_alike
            exact (perform_inOrder inOrder voice .close).of_same _ samePending sameSent
          · exact inOrder

end Posted

/-! ### The invariant -/

/-- A transmitter spoke well, and its frames are in order. -/
def KeepsOrder (venue : Venue η ω) (voice : Voice) : Prop :=
  voice.WellSpoken ∧ (voice.sender venue.bus).Orderly voice.posted venue.taken

structure Orderly (venue : Venue η ω) : Prop where
  mail : ∀ frontier, venue.bus.InOrder [] venue.taken frontier
  clock : venue.bus.clock.isNaN = false
  voices : ∀ voice ∈ venue.voices, venue.KeepsOrder voice

namespace Orderly

variable {venue : Venue η ω}

theorem create {clock : Seconds} (number : clock.isNaN = false) (peerName : String) (beyond : ω) :
    (Venue.create (η := η) peerName clock beyond).Orderly where
  mail := Bus.InOrder.create peerName clock
  clock := number
  voices := fun _ isVoice => absurd isVoice List.not_mem_nil

theorem bystander (orderly : venue.Orderly) (manners : Manners η ω) {step : VenueStep η}
    (showsNumber : (venue.advance manners step).bus.clock.isNaN = false)
    (onward : venue.bus.clock.orderKey ≤ (venue.advance manners step).bus.clock.orderKey)
    {voice : Voice} (isVoice : voice ∈ venue.voices) :
    (venue.advance manners step).KeepsOrder voice := by
  obtain ⟨wellSpoken, before⟩ := orderly.voices voice isVoice
  have after := advance_inOrder manners before.inOrder step
  exact ⟨wellSpoken, after.mono (voice.transmitter.frontier_mono onward), showsNumber,
    before.cutoffUsable⟩

theorem undisturbed {next : Venue η ω} (undisturbed : venue.Undisturbed next)
    (others : ∀ voice ∈ venue.voices, next.KeepsOrder voice) :
    ∀ voice ∈ next.voices, next.KeepsOrder voice := by
  rw [undisturbed.voices]
  exact others

theorem openTransmitter (orderly : venue.Orderly) (id : StreamId) (service endpoint : String)
    (config : TransmitterConfig)
    (others : ∀ voice ∈ venue.voices,
      (venue.openTransmitter id service endpoint config).KeepsOrder voice) :
    ∀ voice ∈ (venue.openTransmitter id service endpoint config).voices,
      (venue.openTransmitter id service endpoint config).KeepsOrder voice := by
  unfold Venue.openTransmitter at others ⊢
  cases created : Sender.create venue.bus id service endpoint config with
  | error cause =>
      rw [created] at others
      exact others
  | ok sender =>
      rw [created] at others
      intro voice isVoice
      rcases List.mem_append.mp isVoice with wasVoice | isNew
      · exact others voice wasVoice
      · rw [List.mem_singleton.mp isNew]
        refine ⟨Voice.WellSpoken.create created true, ?_⟩
        obtain ⟨validated, client, senderEq⟩ := Sender.create_ok created
        rw [senderEq]
        exact ⟨(orderly.mail _).note _, orderly.clock,
          config.cutoff_usable_of_validate validated⟩

theorem transmit (orderly : venue.Orderly) (index : Nat) (call : TransmitterCall)
    (others : ∀ voice ∈ venue.voices, (venue.transmit index call).KeepsOrder voice) :
    ∀ voice ∈ (venue.transmit index call).voices,
      (venue.transmit index call).KeepsOrder voice := by
  unfold Venue.transmit at others ⊢
  cases found : venue.voices[index]? with
  | none =>
      rw [found] at others
      exact others
  | some speaker =>
      simp only [found] at others ⊢
      obtain ⟨wellSpoken, speaks⟩ := orderly.voices speaker (List.mem_of_getElem? found)
      by_cases isPresent : speaker.present = true
      · rw [if_pos isPresent] at others ⊢
        intro voice isVoice
        rcases List.mem_or_eq_of_mem_set isVoice with wasVoice | isSpeaker
        · exact others voice wasVoice
        · rw [isSpeaker]
          exact ⟨wellSpoken.perform venue.bus call, speaks.perform call⟩
      · rw [if_neg isPresent] at others ⊢
        exact others

theorem dropped {voice : Voice} {bus : Bus (VenueHandler η)} {taken : List Pending}
    (orderly : (voice.sender bus).Orderly voice.posted taken) :
    ((voice.perform bus .close).sender (voice.sender bus).drop).Orderly
      (voice.perform bus .close).posted taken := by
  obtain ⟨alike, samePending, sameSent⟩ := (voice.sender bus).drop_alike
  have closed := orderly.perform .close
  constructor
  case inOrder =>
    change (voice.sender bus).drop.InOrder _ _
      (((voice.sender bus).perform .close).transmitter.frontier (voice.sender bus).drop.clock)
    rw [alike.clock]
    exact closed.inOrder.of_same _ samePending sameSent
  case clockNumber =>
    change (voice.sender bus).drop.clock.isNaN = false
    rw [alike.clock]
    exact closed.clockNumber
  case cutoffUsable => exact closed.cutoffUsable

theorem dropTransmitter (orderly : venue.Orderly) (index : Nat)
    (others : ∀ voice ∈ venue.voices, (venue.dropTransmitter index).KeepsOrder voice) :
    ∀ voice ∈ (venue.dropTransmitter index).voices,
      (venue.dropTransmitter index).KeepsOrder voice := by
  unfold Venue.dropTransmitter at others ⊢
  cases found : venue.voices[index]? with
  | none =>
      rw [found] at others
      exact others
  | some speaker =>
      simp only [found] at others ⊢
      obtain ⟨wellSpoken, speaks⟩ := orderly.voices speaker (List.mem_of_getElem? found)
      by_cases isPresent : speaker.present = true
      · rw [if_pos isPresent] at others ⊢
        intro voice isVoice
        rcases List.mem_or_eq_of_mem_set isVoice with wasVoice | isSpeaker
        · exact others voice wasVoice
        · have closed := wellSpoken.perform venue.bus .close
          rw [isSpeaker]
          exact ⟨⟨closed.turns, closed.borne, closed.short⟩, dropped speaks⟩
      · rw [if_neg isPresent] at others ⊢
        exact others

theorem advance (orderly : venue.Orderly) (manners : Manners η ω) (step : VenueStep η)
    (showsNumber : (venue.advance manners step).bus.clock.isNaN = false)
    (onward : venue.bus.clock.orderKey ≤ (venue.advance manners step).bus.clock.orderKey) :
    (venue.advance manners step).Orderly := by
  have others : ∀ voice ∈ venue.voices, (venue.advance manners step).KeepsOrder voice :=
    fun _ isVoice => orderly.bystander manners showsNumber onward isVoice
  refine ⟨fun frontier => advance_inOrder manners (orderly.mail frontier) step, showsNumber, ?_⟩
  cases step with
  | send message => exact others
  | setClock time => exact others
  | synchronize isSynchronized => exact others
  | poll => exact others
  | openReceiver service endpoint config =>
      exact undisturbed (venue.openReceiver_undisturbed service endpoint config) others
  | dropReceiver number => exact undisturbed (venue.dropReceiver_undisturbed number) others
  | callMixer number call => exact undisturbed (venue.callMixer_undisturbed number call) others
  | provide name => exact undisturbed (venue.provide_undisturbed name) others
  | implement number method signature handler =>
      exact undisturbed (venue.implement_undisturbed number method signature handler) others
  | dropService number => exact undisturbed (venue.dropService_undisturbed number) others
  | openTransmitter id service endpoint config =>
      exact orderly.openTransmitter id service endpoint config others
  | transmit index call => exact orderly.transmit index call others
  | dropTransmitter index => exact orderly.dropTransmitter index others

theorem run (orderly : venue.Orderly) (manners : Manners η ω) (steps : List (VenueStep η))
    (steady : venue.ClockSteady manners steps) : (venue.run manners steps).Orderly := by
  induction steps generalizing venue with
  | nil => exact orderly
  | cons step rest inductionHypothesis =>
      obtain ⟨number, onward, restSteady⟩ := steady
      exact inductionHypothesis (orderly.advance manners step number onward) restSteady

end Orderly

end Venue

end AudioBus
