import AudioBus.Proofs.Receiver.Listening

/-!
Loopback: a transmitter and a receiver of one address on one bus.  Whatever is pushed comes back
from the receiver, in order and without loss, as long as no block reaches beyond its ring.
-/

namespace AudioBus.Loopback

abbrev State := Session StreamMethod Reception

inductive Step where
  | push (samples : List Sample)
  | poll
  | setClock (time : Seconds)
  | pull (out : Array Sample) (frames : Nat) (stride : SampleCount)
  | discard (frames : Nat)

def mixer (state : State) : Mixer Seconds := state.outside.mixer

def consume (state : State) (mixer : Mixer Seconds) : State :=
  { state with outside := { state.outside with mixer := mixer } }

def advance (state : State) : Step → State
  | .push samples => Session.advance listening state (.call (.push samples))
  | .poll => Session.advance listening state (.others .poll)
  | .setClock time => Session.advance listening state (.others (.setClock time))
  | .pull out frames stride => consume state ((mixer state).pull out frames stride).1
  | .discard frames => consume state ((mixer state).discard frames).1

def run (state : State) (steps : List Step) : State :=
  steps.foldl advance state

def framesTaken (state : State) : Step → List Sample
  | .pull out frames stride => (mixer state).framesPulled out frames stride
  | .discard frames => (mixer state).framesDropped frames
  | .push _ | .poll | .setClock _ => []

def framesFrom (state : State) : List Step → List Sample
  | [] => []
  | step :: rest => framesTaken state step ++ framesFrom (advance state step) rest

def Step.samples : Step → List Sample
  | .push samples => samples
  | .poll | .setClock _ | .pull _ _ _ | .discard _ => []

def pushedIn (steps : List Step) : List Sample :=
  steps.flatMap Step.samples

/-- Whether the clock always shows a number and never goes back. -/
def ClockSteady (now : Seconds) : List Step → Prop
  | [] => True
  | .setClock time :: rest =>
      time.isNaN = false ∧ now.orderKey ≤ time.orderKey ∧ ClockSteady time rest
  | .push _ :: rest | .poll :: rest | .pull _ _ _ :: rest | .discard _ :: rest =>
      ClockSteady now rest

instance decidableClockSteady :
    (now : Seconds) → (steps : List Step) → Decidable (ClockSteady now steps)
  | _, [] => inferInstanceAs (Decidable True)
  | _, .setClock time :: rest =>
      have _restDecidable := decidableClockSteady time rest
      inferInstanceAs (Decidable (_ ∧ _ ∧ _))
  | now, .push _ :: rest => decidableClockSteady now rest
  | now, .poll :: rest => decidableClockSteady now rest
  | now, .pull _ _ _ :: rest => decidableClockSteady now rest
  | now, .discard _ :: rest => decidableClockSteady now rest

def eventsOfPush (state : State) (samples : List Sample) : List StreamEvent :=
  (state.sender.history (.push samples)).filterMap Occurrence.event?

def dueEvents (state : State) (told : List StreamEvent) : List StreamEvent :=
  (told.drop state.taken.length).take (state.peer.dispatched .poll).length

/-- What is so of a loop in which the samples `pushed` were pushed and the events `told` were said
for them: the frames of the events were taken off the schedule or wait on it, in the order of
saying, and the receiver heard the events whose frames were taken. -/
structure Sound (address : String) (id : StreamId) (state : State) (base : Option Nat)
    (pushed : List Sample) (told : List StreamEvent) : Prop where
  orderly : state.Orderly
  balanced : (state.taken ++ state.sender.link.pending).Perm state.posted
  bound : Receiver.Bound state.sender.link (fun method => method) address
  synchronized :
    (state.sender.link.status state.sender.transmitter.client.service).isSynchronized = true
  client : state.sender.transmitter.client.address = address
  identity : state.sender.transmitter.id = id
  borne : List.Forall₂ (Bears address) state.posted told
  tells : TellsStream id told
  announced : state.sender.transmitter.announced = true ↔ told ≠ []
  said : samplesOf told = pushed
  short : ∀ event ∈ told, event.samples.length < 2 ^ 64
  hearing : Hearing id state.outside base (told.take state.taken.length)

namespace Sound

variable {address : String} {id : StreamId} {state : State} {base : Option Nat}
  {pushed : List Sample} {told : List StreamEvent}

theorem posted_eq (sound : Sound address id state base pushed told) :
    state.taken ++ state.sender.link.pending = state.posted := by
  -- Nobody else posts here, so the filters in the order of the frames leave nothing out.
  have everyTaken : state.taken.filter (· ∈ state.posted) = state.taken := by
    apply List.filter_eq_self.mpr
    intro entry isTaken
    exact decide_eq_true (sound.balanced.subset (List.mem_append_left _ isTaken))
  have everyPending : state.sender.link.pending.filter (· ∈ state.posted) =
      state.sender.link.pending := by
    apply List.filter_eq_self.mpr
    intro entry isPending
    exact decide_eq_true (sound.balanced.subset (List.mem_append_right _ isPending))
  have inOrder := sound.orderly.inOrder.inOrder
  rwa [everyTaken, everyPending] at inOrder

theorem taken_le (sound : Sound address id state base pushed told) :
    state.taken.length ≤ told.length := by
  have sameLength := sound.borne.length_eq
  rw [← sound.posted_eq, List.length_append] at sameLength
  omega

/-! ### Pushes -/

theorem tells_push (tells : TellsStream id told) (time : Seconds) (cut : List (List Sample)) :
    TellsStream id (told ++
      ((if told ≠ [] then [] else [.sync id time]) ++ cut.map (StreamEvent.push id))) := by
  rcases tells with nothing | ⟨began, earlier, toldEq⟩
  · refine Or.inr ⟨time, cut, ?_⟩
    rw [nothing, if_neg (fun contrary => contrary rfl)]
    rfl
  · refine Or.inr ⟨began, earlier ++ cut, ?_⟩
    have notNil : told ≠ [] := by
      rw [toldEq]
      exact List.cons_ne_nil _ _
    rw [if_pos notNil, List.nil_append, toldEq, List.map_append]
    rfl

theorem samplesOf_blocks (id : StreamId) (cut : List (List Sample)) :
    samplesOf (cut.map (StreamEvent.push id)) = cut.flatten := by
  unfold samplesOf
  rw [List.flatMap_map]
  exact List.flatMap_id'

theorem said_spec (sound : Sound address id state base pushed told) (samples : List Sample) :
    ((state.sender.perform (.push samples)).transmitter.announced = true ↔
        told ++ eventsOfPush state samples ≠ []) ∧
      TellsStream id (told ++ eventsOfPush state samples) ∧
      samplesOf (eventsOfPush state samples) = samples ∧
      ∀ event ∈ eventsOfPush state samples, event.samples.length < 2 ^ 64 := by
  unfold eventsOfPush
  by_cases empty : samples = []
  · have nothing : state.sender.history (.push []) = [] := rfl
    rw [empty, nothing, List.filterMap_nil, List.append_nil]
    refine ⟨sound.announced, sound.tells, rfl, ?_⟩
    intro event isSaid
    cases isSaid
  · obtain ⟨announced, events⟩ :=
      Sender.push_events (Sender.awaitSync_of_synchronized sound.synchronized) empty
    generalize state.sender.awake.transmitter.streamTime = time at events
    rw [if_congr sound.announced rfl rfl, sound.identity] at events
    rw [events]
    have samplesEq : samplesOf ((if told ≠ [] then [] else [.sync id time]) ++
        (blocks state.sender.transmitter.config.effectiveMaxChunk samples).map
          (StreamEvent.push id)) = samples := by
      have opening : samplesOf (if told ≠ [] then [] else [.sync id time]) = [] := by
        split <;> rfl
      unfold samplesOf at opening ⊢
      rw [List.flatMap_append, opening]
      change samplesOf _ = samples
      rw [samplesOf_blocks, flatten_blocks]
    refine ⟨?_, tells_push sound.tells time _, samplesEq, ?_⟩
    · refine ⟨fun _ => ?_, fun _ => announced⟩
      intro none
      have nothing := (List.append_eq_nil_iff.mp none).2
      rw [nothing] at samplesEq
      exact empty samplesEq.symm
    · intro event isSaid
      rcases List.mem_append.mp isSaid with isOpening | isBlock
      · split at isOpening
        · cases isOpening
        · rw [List.mem_singleton.mp isOpening]
          exact Nat.two_pow_pos 64
      · obtain ⟨block, isCut, eventEq⟩ := List.mem_map.mp isBlock
        rw [← eventEq]
        exact Nat.lt_of_le_of_lt (length_le_of_mem_blocks isCut)
          state.sender.transmitter.config.effectiveMaxChunk.count_lt

theorem push (sound : Sound address id state base pushed told) (samples : List Sample) :
    Sound address id (advance state (.push samples)) base (pushed ++ samples)
      (told ++ eventsOfPush state samples) := by
  have followed := state.sender.perform_followed (.push samples)
  obtain ⟨announced, tells, samplesEq, short⟩ := sound.said_spec samples
  constructor
  case orderly => exact Session.orderly_call listening (.push samples) sound.orderly
  case balanced => exact state.sender.perform_balanced (.push samples) sound.balanced
  case bound =>
    intro method
    change (state.sender.perform (.push samples)).link.methods.find? _ = _
    rw [followed.alike.methods]
    exact sound.bound method
  case synchronized =>
    change ((state.sender.perform (.push samples)).link.status
      (state.sender.perform (.push samples)).transmitter.client.service).isSynchronized = true
    rw [followed.alike.status, followed.client]
    exact sound.synchronized
  case client =>
    change (state.sender.perform (.push samples)).transmitter.client.address = address
    rw [followed.client]
    exact sound.client
  case identity => exact followed.identity.trans sound.identity
  case borne =>
    have borne := followed.borne
    rw [sound.client] at borne
    exact List.rel_append sound.borne borne
  case tells => exact tells
  case announced => exact announced
  case said =>
    have wasSaid := sound.said
    unfold samplesOf at wasSaid samplesEq ⊢
    rw [List.flatMap_append, wasSaid, samplesEq]
  case short =>
    intro event isTold
    rcases List.mem_append.mp isTold with wasTold | isNew
    · exact sound.short event wasTold
    · exact short event isNew
  case hearing =>
    change Hearing id state.outside base ((told ++ _).take state.taken.length)
    rw [List.take_append_of_le_length sound.taken_le]
    exact sound.hearing

/-! ### Polls -/

theorem take_dueEvents (state : State) (told : List StreamEvent) :
    told.take (state.taken ++ state.peer.dispatched .poll).length =
      told.take state.taken.length ++ dueEvents state told := by
  unfold dueEvents
  rw [List.length_append, List.take_add]

theorem dispatched_bear (sound : Sound address id state base pushed told) :
    List.Forall₂ (Bears address) (state.peer.dispatched .poll) (dueEvents state told) := by
  have batchEq : (state.posted.drop state.taken.length).take
      (state.peer.dispatched .poll).length = state.peer.dispatched .poll := by
    rw [← sound.posted_eq, List.drop_left]
    change List.take _ state.peer.bus.pending = _
    rw [← state.peer.dispatched_append_relieved]
    exact List.take_left
  have sliced := List.forall₂_take (state.peer.dispatched .poll).length
    (List.forall₂_drop state.taken.length sound.borne)
  rwa [batchEq] at sliced

theorem poll (sound : Sound address id state base pushed told) (line : Line address)
    (calm : (advance state .poll).outside.Calm) :
    Sound address id (advance state .poll)
        (Hearing.baseAfter base (mixer state).readHead.value (dueEvents state told)) pushed told ∧
      (advance state .poll).sender.link.clock = state.sender.link.clock ∧
      (mixer (advance state .poll)).readHead = (mixer state).readHead := by
  obtain ⟨heard, alike, samePending⟩ := state.peer.relieved.deliverAll_hear line sound.bound
    sound.dispatched_bear fun event isDue =>
      sound.short event (List.mem_of_mem_drop (List.mem_of_mem_take isDue))
  have polled : (state.peer.advance listening .poll) =
      (state.peer.relieved.deliverAll listening (state.peer.dispatched .poll)).1 := rfl
  rw [← polled] at heard alike samePending
  have tells := sound.tells.of_prefix
    (List.take_prefix (state.taken ++ state.peer.dispatched .poll).length told)
  rw [take_dueEvents] at tells
  change (state.peer.advance listening .poll).outside.Calm at calm
  rw [heard] at calm
  obtain ⟨hearing, sameReadHead⟩ := sound.hearing.hearAll tells calm
  have orderly : (advance state .poll).Orderly := by
    apply Session.orderly_others listening .poll sound.orderly
    · change (state.peer.advance listening .poll).bus.clock.isNaN = false
      rw [alike.clock]
      exact sound.orderly.clockNumber
    · change _ ≤ (state.peer.advance listening .poll).bus.clock.orderKey
      rw [alike.clock]
      exact Int.le_refl _
  refine ⟨?_, alike.clock, ?_⟩
  · exact
      { sound with
        orderly := orderly
        balanced := by
          change (state.taken ++ state.peer.dispatched .poll ++
            (state.peer.advance listening .poll).bus.pending).Perm state.posted
          rw [samePending, List.append_assoc, state.peer.dispatched_append_relieved]
          exact sound.balanced
        bound := by
          intro method
          change (state.peer.advance listening .poll).bus.methods.find? _ = _
          rw [alike.methods]
          exact sound.bound method
        synchronized := by
          change ((state.peer.advance listening .poll).bus.status _).isSynchronized = true
          rw [alike.status]
          exact sound.synchronized
        hearing := by
          change Hearing id (state.peer.advance listening .poll).outside _
            (told.take (state.taken ++ state.peer.dispatched .poll).length)
          rw [heard, take_dueEvents]
          exact hearing }
  · change (state.peer.advance listening .poll).outside.mixer.readHead = _
    rw [heard]
    exact sameReadHead

theorem setClock (sound : Sound address id state base pushed told) {time : Seconds}
    (number : time.isNaN = false)
    (onward : state.sender.link.clock.orderKey ≤ time.orderKey) :
    Sound address id (advance state (.setClock time)) base pushed told := by
  have orderly : (advance state (.setClock time)).Orderly :=
    Session.orderly_others listening (.setClock time) sound.orderly number onward
  exact
    { sound with
      orderly := orderly
      balanced := by
        change (state.taken ++ [] ++ state.sender.link.pending).Perm state.posted
        rw [List.append_nil]
        exact sound.balanced
      hearing := by
        change Hearing id state.outside base (told.take (state.taken ++ []).length)
        rw [List.append_nil]
        exact sound.hearing }

theorem consume (sound : Sound address id state base pushed told) {next : Mixer Seconds}
    (quiet : base = none → next.Idle)
    (playing : ∀ start, base = some start →
      next.Solo id start (samplesOf (told.take state.taken.length))) :
    Sound address id (Loopback.consume state next) base pushed told :=
  { sound with
    hearing :=
      { outcomes := sound.hearing.outcomes
        quiet := fun none => ⟨(sound.hearing.quiet none).1, quiet none⟩
        playing := fun start isStart =>
          ⟨(sound.hearing.playing start isStart).1, playing start isStart⟩ } }

theorem clock_push (samples : List Sample) :
    (advance state (.push samples)).sender.link.clock = state.sender.link.clock :=
  (state.sender.perform_followed (.push samples)).alike.clock

theorem pull (sound : Sound address id state base pushed told) (out : Array Sample) (frames : Nat)
    (stride : SampleCount) :
    Sound address id (advance state (.pull out frames stride)) base pushed told := by
  apply sound.consume
  · intro none
    exact (sound.hearing.quiet none).2.pull out frames stride
  · intro start isStart
    exact ((sound.hearing.playing start isStart).2.pull out frames stride).1

theorem discard (sound : Sound address id state base pushed told) (frames : Nat) :
    Sound address id (advance state (.discard frames)) base pushed told := by
  apply sound.consume
  · intro none
    exact (sound.hearing.quiet none).2.discard frames
  · intro start isStart
    exact ((sound.hearing.playing start isStart).2.discard frames).1

theorem advance (sound : Sound address id state base pushed told) (line : Line address)
    {step : Step} {rest : List Step}
    (steady : ClockSteady state.sender.link.clock (step :: rest))
    (calm : (Loopback.advance state step).outside.Calm) :
    ClockSteady (Loopback.advance state step).sender.link.clock rest ∧
      ∃ later more, Sound address id (Loopback.advance state step) later (pushed ++ step.samples)
          more ∧ ∀ start, base = some start → later = some start := by
  cases step with
  | push samples =>
      rw [clock_push samples]
      exact ⟨steady, base, _, sound.push samples, fun _ isStart => isStart⟩
  | poll =>
      obtain ⟨polled, clockEq, _⟩ := sound.poll line calm
      rw [clockEq]
      refine ⟨steady, Hearing.baseAfter base (mixer state).readHead.value (dueEvents state told),
        told, ?_, ?_⟩
      · rw [Step.samples, List.append_nil]
        exact polled
      · intro start isStart
        unfold Hearing.baseAfter
        rw [isStart]
        split <;> rfl
  | setClock time =>
      refine ⟨steady.2.2, base, told, ?_, fun _ isStart => isStart⟩
      rw [Step.samples, List.append_nil]
      exact sound.setClock steady.1 steady.2.1
  | pull out frames stride =>
      refine ⟨steady, base, told, ?_, fun _ isStart => isStart⟩
      rw [Step.samples, List.append_nil]
      exact sound.pull out frames stride
  | discard frames =>
      refine ⟨steady, base, told, ?_, fun _ isStart => isStart⟩
      rw [Step.samples, List.append_nil]
      exact sound.discard frames

end Sound

end AudioBus.Loopback
