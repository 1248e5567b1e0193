import AudioBus.Proofs.Address
import AudioBus.Proofs.Stream.Event
import AudioBus.Proofs.Transmitter.Protocol
import AudioBus.Proofs.Transmitter.Session

/-!
A transmitter on the bus of a process.  That bus takes every message with a valid path, so a push
says all of its samples: a sync if the stream is not announced yet, then the samples block by
block.  All of it goes to the address of the client.
-/

namespace AudioBus

theorem flatten_blocks (size : SampleCount) (samples : List Sample) :
    (blocks size samples).flatten = samples := by
  fun_induction blocks size samples with
  | case1 => rfl
  | case2 samples nonempty inductionHypothesis =>
      rw [List.flatten_cons, inductionHypothesis, List.take_append_drop]

theorem length_le_of_mem_blocks {size : SampleCount} {samples block : List Sample}
    (isBlock : block ∈ blocks size samples) : block.length ≤ size.count := by
  fun_induction blocks size samples with
  | case1 => contradiction
  | case2 samples nonempty inductionHypothesis =>
      rcases List.mem_cons.mp isBlock with isFirst | isLater
      · rw [isFirst]
        exact List.length_take_le _ _
      · exact inductionHypothesis isLater

structure Bus.Alike {η : Type} (former later : Bus η) : Prop where
  clock : later.clock = former.clock
  isSynchronized : later.isSynchronized = former.isSynchronized
  services : later.services = former.services
  methods : later.methods = former.methods

namespace Bus.Alike

variable {η : Type} {first second third : Bus η}

theorem refl (bus : Bus η) : bus.Alike bus :=
  ⟨rfl, rfl, rfl, rfl⟩

theorem trans (alike : first.Alike second) (further : second.Alike third) : first.Alike third where
  clock := further.clock.trans alike.clock
  isSynchronized := further.isSynchronized.trans alike.isSynchronized
  services := further.services.trans alike.services
  methods := further.methods.trans alike.methods

theorem status (alike : first.Alike second) (service : String) :
    second.status service = first.status service := by
  unfold Bus.status
  rw [alike.services, alike.isSynchronized]

end Bus.Alike

/-- Whether a frame is the call that carries an event to an address. -/
def Bears (address : String) (entry : Pending) (event : StreamEvent) : Prop :=
  ∃ timestamp, entry.frame = (event.call address timestamp).encode

namespace Sender

variable {η : Type}

/-- What is so of a sender after `past`, if it was `first` before: it is the same transmitter in the
same setting, and all that it said it said to the address of its client. -/
structure Followed (first : Sender (Bus η)) (past : List (Occurrence (Bus η)))
    (sender : Sender (Bus η)) : Prop where
  alike : first.link.Alike sender.link
  client : sender.transmitter.client = first.transmitter.client
  identity : sender.transmitter.id = first.transmitter.id
  borne : List.Forall₂ (Bears first.transmitter.client.address)
    (past.filterMap Occurrence.entry?) (past.filterMap Occurrence.event?)

namespace Followed

variable {first sender next : Sender (Bus η)} {past happened : List (Occurrence (Bus η))}

theorem of_same (followed : Followed first past sender) (other : Sender (Bus η))
    (alike : sender.link.Alike other.link)
    (sameClient : other.transmitter.client = sender.transmitter.client)
    (sameIdentity : other.transmitter.id = sender.transmitter.id) :
    Followed first past other where
  alike := followed.alike.trans alike
  client := sameClient.trans followed.client
  identity := sameIdentity.trans followed.identity
  borne := followed.borne

theorem say (followed : Followed first past sender) {timestamp : Seconds}
    {event : StreamEvent} {link : Bus η}
    (isTaken : Link.send sender.link (sender.message timestamp event) = .ok link) :
    Followed first (past ++ [.sent sender timestamp event]) (sender.accepted timestamp link) := by
  cases isTaken
  constructor
  case alike => exact followed.alike.trans ⟨rfl, rfl, rfl, rfl⟩
  case client => exact followed.client
  case identity => exact followed.identity
  case borne =>
    rw [List.filterMap_append, List.filterMap_append]
    apply List.rel_append followed.borne
    refine List.Forall₂.cons ?_ List.Forall₂.nil
    rw [← followed.client]
    exact ⟨_, rfl⟩

theorem move (followed : Followed first past sender) (move : Move sender happened next) :
    Followed first (past ++ happened) next := by
  have still : Followed first (past ++ []) sender := by
    rw [List.append_nil]
    exact followed
  cases move with
  | looked => exact still.of_same _ (Bus.Alike.refl _) rfl rfl
  | awaited link seen =>
      rw [Bus.eq_of_awaitSynchronized seen]
      exact still
  | noted notice => exact still.of_same _ ⟨rfl, rfl, rfl, rfl⟩ rfl rfl
  | begun timeless => exact still.of_same _ (Bus.Alike.refl _) rfl rfl
  | led length => exact still.of_same _ (Bus.Alike.refl _) rfl rfl
  | declared link timed isTaken =>
      exact (followed.say isTaken).of_same _ (Bus.Alike.refl _) rfl rfl
  | restarted time link timed isTaken =>
      have restarted : Followed first past (sender.restart time) :=
        followed.of_same _ (Bus.Alike.refl _) rfl rfl
      exact (restarted.say isTaken).of_same _ (Bus.Alike.refl _) rfl rfl
  | refused time timed =>
      have unsaid : Followed first (past ++ [.restartRefused time]) sender := by
        refine { followed with borne := ?_ }
        rw [List.filterMap_append, List.filterMap_append, List.filterMap_cons_none rfl,
          List.filterMap_cons_none rfl, List.filterMap_nil, List.filterMap_nil, List.append_nil,
          List.append_nil]
        exact followed.borne
      exact unsaid.of_same _ (Bus.Alike.refl _) rfl rfl
  | delivered block link isOpen nonempty isTaken =>
      exact (followed.say isTaken).of_same _ (Bus.Alike.refl _) rfl rfl
  | ended link isOpen notClosed isTaken =>
      exact (followed.say isTaken).of_same _ (Bus.Alike.refl _) rfl rfl

end Followed

theorem perform_followed (sender : Sender (Bus η)) (call : TransmitterCall) :
    Followed sender (sender.history call) (sender.perform call) := by
  have initially : Followed sender [] sender := by
    constructor
    case alike => exact Bus.Alike.refl _
    case client => rfl
    case identity => rfl
    case borne => exact List.Forall₂.nil
  exact (sender.path_perform call).preserves (fun _ _ _ _ followed move => followed.move move) []
    initially

theorem isAddress_method (client : Client) (method : StreamMethod) :
    isAddress (joinAddresses client.address method.name) = true := by
  rw [isAddress_joinAddresses]
  exact ⟨client.address_valid, method.isAddress_name⟩

theorem send_onBus (sender : Sender (Bus η)) (timestamp : Seconds) (event : StreamEvent) :
    sender.send timestamp event =
      .ok (sender.accepted timestamp (sender.link.send (sender.message timestamp event))) := by
  unfold send Client.send joinPath
  simp only [isAddress_method, if_true]
  rfl

def awake (sender : Sender (Bus η)) : Sender (Bus η) :=
  if sender.transmitter.hasTime then sender else sender.start

theorem awaitSync_onBus (sender : Sender (Bus η)) :
    sender.awaitSync =
      if sender.transmitter.hasTime ||
          (sender.link.status sender.transmitter.client.service).isSynchronized then
        some sender.awake
      else none := by
  unfold awaitSync awake
  by_cases timed : sender.transmitter.hasTime = true
  · simp only [timed, if_true, Bool.true_or]
  · simp only [timed, Bool.false_or]
    by_cases synchronized :
        (sender.link.status sender.transmitter.client.service).isSynchronized = true
    · rw [if_pos synchronized]
      exact if_pos synchronized
    · rw [if_neg synchronized]
      refine (if_neg synchronized).trans ?_
      exact congrArg (Option.map _) (if_neg synchronized)

theorem awaitSync_of_synchronized {sender : Sender (Bus η)}
    (synchronized :
      (sender.link.status sender.transmitter.client.service).isSynchronized = true) :
    sender.awaitSync = some sender.awake := by
  rw [awaitSync_onBus, synchronized, Bool.or_true, if_pos rfl]

theorem awake_setting (sender : Sender (Bus η)) :
    sender.awake.transmitter.id = sender.transmitter.id ∧
      sender.awake.transmitter.config = sender.transmitter.config ∧
      sender.awake.transmitter.announced = sender.transmitter.announced := by
  unfold awake
  split
  · exact ⟨rfl, rfl, rfl⟩
  · exact ⟨rfl, rfl, rfl⟩

theorem blockHistory_events (sender : Sender (Bus η)) (cut : List (List Sample)) :
    (sender.blockHistory cut).filterMap Occurrence.event? =
        cut.map (StreamEvent.push sender.transmitter.id) ∧
      (sender.sendBlocks cut).1.transmitter.announced = sender.transmitter.announced := by
  induction cut generalizing sender with
  | nil => exact ⟨rfl, rfl⟩
  | cons block rest inductionHypothesis =>
      have sentEq := sender.send_onBus sender.aheadTimestamp (.push sender.transmitter.id block)
      have blockSent : sender.sendBlock block = .ok ((sender.accepted sender.aheadTimestamp
          (sender.link.send (sender.message sender.aheadTimestamp
            (.push sender.transmitter.id block)))).counted block) := by
        rw [sendBlock_eq, sentEq]
        rfl
      unfold blockHistory sendBlocks
      rw [blockSent]
      obtain ⟨restEvents, restAnnounced⟩ := inductionHypothesis
        ((sender.accepted sender.aheadTimestamp (sender.link.send
          (sender.message sender.aheadTimestamp (.push sender.transmitter.id block)))).counted
            block)
      exact ⟨congrArg (StreamEvent.push sender.transmitter.id block :: ·) restEvents, restAnnounced⟩

/-- A push says all of its samples, and declares the stream first if it is not announced. -/
theorem push_events {sender : Sender (Bus η)} (waited : sender.awaitSync = some sender.awake)
    {samples : List Sample} (nonempty : samples ≠ []) :
    (sender.perform (.push samples)).transmitter.announced = true ∧
      (sender.history (.push samples)).filterMap Occurrence.event? =
        (if sender.transmitter.announced then []
          else [.sync sender.transmitter.id sender.awake.transmitter.streamTime]) ++
          (blocks sender.transmitter.config.effectiveMaxChunk samples).map
            (StreamEvent.push sender.transmitter.id) := by
  obtain ⟨sameIdentity, sameConfig, sameAnnounced⟩ := sender.awake_setting
  generalize sender.awake = ready at *
  simp only [perform, history, push]
  rw [if_neg nonempty, if_neg nonempty, waited, ← sameIdentity, ← sameConfig, ← sameAnnounced]
  simp only [Option.map_some, Option.getD_some]
  by_cases isOpen : ready.transmitter.announced = true
  · have opened : ready.ensureAnnounced = .ok ready := if_pos isOpen
    obtain ⟨events, announced⟩ := ready.blockHistory_events
      (blocks ready.transmitter.config.effectiveMaxChunk samples)
    rw [opened]
    refine ⟨announced.trans isOpen, ?_⟩
    rw [if_pos isOpen, if_pos isOpen]
    exact events
  · have syncSent := ready.send_onBus ready.aheadTimestamp
      (.sync ready.transmitter.id ready.transmitter.streamTime)
    have opened : ready.ensureAnnounced = .ok (ready.accepted ready.aheadTimestamp
        (ready.link.send (ready.message ready.aheadTimestamp
          (.sync ready.transmitter.id ready.transmitter.streamTime)))).opened := by
      unfold ensureAnnounced
      rw [if_neg isOpen, announce_eq, syncSent]
      rfl
    obtain ⟨events, announced⟩ := blockHistory_events
      (ready.accepted ready.aheadTimestamp (ready.link.send (ready.message ready.aheadTimestamp
        (.sync ready.transmitter.id ready.transmitter.streamTime)))).opened
      (blocks ready.transmitter.config.effectiveMaxChunk samples)
    rw [opened]
    refine ⟨announced, ?_⟩
    rw [if_neg isOpen, if_neg isOpen, List.filterMap_append]
    exact congrArg ([StreamEvent.sync _ _] ++ ·) events

end Sender

end AudioBus
