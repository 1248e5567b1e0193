import AudioBus.Proofs.Loopback.Sound

/-!
What the consumer of a loop gets: from the sync on, the samples that were pushed, in order and each
once.
-/

namespace AudioBus.Loopback

/-- The read head went from `former` to `later`, and `frames` are what it passed of the samples of a
stream that began at `start`. -/
structure Passed (start : Nat) (samples : List Sample) (former later : Nat)
    (frames : List Sample) : Prop where
  began : start ≤ former
  onward : former ≤ later
  within : later ≤ start + samples.length
  frames : frames = Mixer.heard ((samples.drop (former - start)).take (later - former))

namespace Passed

variable {start former later last : Nat} {samples : List Sample} {frames further : List Sample}

theorem still (began : start ≤ former) (within : former ≤ start + samples.length) :
    Passed start samples former former [] where
  began := began
  onward := Nat.le_refl former
  within := within
  frames := by
    rw [Nat.sub_self, List.take_zero]
    rfl

theorem trans (passed : Passed start samples former later frames)
    (onward : Passed start samples later last further) :
    Passed start samples former last (frames ++ further) where
  began := passed.began
  onward := Nat.le_trans passed.onward onward.onward
  within := onward.within
  frames := by
    have began := passed.began
    have firstOnward := passed.onward
    have lastOnward := onward.onward
    have reach : last - former = (later - former) + (last - later) := by omega
    have place : later - start = (former - start) + (later - former) := by omega
    rw [passed.frames, onward.frames, reach, List.take_add, List.drop_drop, place]
    unfold Mixer.heard
    rw [List.map_append]

theorem widen {part : List Sample} (passed : Passed start part former later frames)
    (isPart : part <+: samples) : Passed start samples former later frames where
  began := passed.began
  onward := passed.onward
  within := Nat.le_trans passed.within (Nat.add_le_add_left isPart.length_le start)
  frames := by
    obtain ⟨rest, samplesEq⟩ := isPart
    have began := passed.began
    have within := passed.within
    have onward := passed.onward
    have dropped : former - start ≤ part.length := by omega
    have taken : later - former ≤ (part.drop (former - start)).length := by
      rw [List.length_drop]
      omega
    rw [passed.frames, ← samplesEq, List.drop_append_of_le_length dropped,
      List.take_append_of_le_length taken]

theorem of_solo {id : StreamId} {mixer next : Mixer Seconds} (solo : mixer.Solo id start samples)
    (nextSolo : next.Solo id start samples)
    (went : ∃ count, next.readHead.value = mixer.readHead.value + count ∧
      frames = Mixer.heard ((samples.drop (mixer.readHead.value - start)).take count)) :
    Passed start samples mixer.readHead.value next.readHead.value frames := by
  obtain ⟨count, moved, framesEq⟩ := went
  constructor
  case began => exact solo.notBefore
  case onward =>
    rw [moved]
    exact Nat.le_add_right _ count
  case within => exact nextSolo.notBeyond
  case frames =>
    rw [moved, Nat.add_sub_cancel_left]
    exact framesEq

theorem frames_length (passed : Passed start samples former later frames) :
    later = former + frames.length := by
  have began := passed.began
  have onward := passed.onward
  have within := passed.within
  rw [passed.frames]
  unfold Mixer.heard
  rw [List.length_map, List.length_take, List.length_drop]
  omega

end Passed

theorem advance_outcomes (state : State) (step : Step) :
    state.outside.outcomes <+: (advance state step).outside.outcomes := by
  cases step with
  | push samples => exact List.prefix_refl _
  | poll => exact deliverAll_outcomes state.peer.relieved (state.peer.dispatched .poll)
  | setClock time => exact List.prefix_refl _
  | pull out frames stride => exact List.prefix_refl _
  | discard frames => exact List.prefix_refl _

theorem run_outcomes (state : State) (steps : List Step) :
    state.outside.outcomes <+: (run state steps).outside.outcomes := by
  induction steps generalizing state with
  | nil => exact List.prefix_refl _
  | cons step rest inductionHypothesis =>
      exact (advance_outcomes state step).trans (inductionHypothesis (advance state step))

theorem calm_of_run {state : State} {steps : List Step}
    (calm : (run state steps).outside.Calm) : state.outside.Calm := by
  intro outcome isOutcome
  exact calm outcome ((run_outcomes state steps).subset isOutcome)

/-! ### Runs -/

def head (state : State) : Nat := (mixer state).readHead.value

namespace Sound

variable {address : String} {id : StreamId} {state : State} {base : Option Nat}
  {pushed : List Sample} {told : List StreamEvent}

theorem heard_prefix (sound : Sound address id state base pushed told) :
    samplesOf (told.take state.taken.length) <+: pushed := by
  rw [← sound.said]
  obtain ⟨rest, toldEq⟩ := List.take_prefix state.taken.length told
  refine ⟨samplesOf rest, ?_⟩
  unfold samplesOf
  rw [← List.flatMap_append, toldEq]

theorem solo (sound : Sound address id state base pushed told) {start : Nat}
    (began : base = some start) :
    (mixer state).Solo id start (samplesOf (told.take state.taken.length)) :=
  (sound.hearing.playing start began).2

theorem passed (sound : Sound address id state base pushed told) (line : Line address) (step : Step)
    (calm : (Loopback.advance state step).outside.Calm) {start : Nat} (began : base = some start) :
    Passed start pushed (head state) (head (Loopback.advance state step))
      (framesTaken state step) := by
  have solo := sound.solo began
  have still : Passed start pushed (head state) (head state) [] :=
    (Passed.still solo.notBefore solo.notBeyond).widen sound.heard_prefix
  cases step with
  | push samples => exact still
  | poll =>
      obtain ⟨_, _, sameReadHead⟩ := sound.poll line calm
      have sameHead : head (Loopback.advance state .poll) = head state :=
        congrArg SampleIndex.value sameReadHead
      rw [sameHead]
      exact still
  | setClock time => exact still
  | pull out frames stride =>
      obtain ⟨pulled, went⟩ := solo.pull out frames stride
      exact (Passed.of_solo solo pulled went).widen sound.heard_prefix
  | discard frames =>
      obtain ⟨discarded, went⟩ := solo.discard frames
      exact (Passed.of_solo solo discarded went).widen sound.heard_prefix

/-- However a loop goes on, it stays sound, and once the stream began its samples are what the
consumer takes. -/
theorem run (sound : Sound address id state base pushed told) (line : Line address)
    {steps rest : List Step} (steady : ClockSteady state.sender.link.clock (steps ++ rest))
    (calm : (Loopback.run state steps).outside.Calm) :
    ClockSteady (Loopback.run state steps).sender.link.clock rest ∧ ∃ later more,
      Sound address id (Loopback.run state steps) later (pushed ++ pushedIn steps) more ∧
        ∀ start, base = some start → later = some start ∧
          Passed start (pushed ++ pushedIn steps) (head state) (head (Loopback.run state steps))
            (framesFrom state steps) := by
  induction steps generalizing state base pushed told with
  | nil =>
      refine ⟨steady, base, told, ?_, ?_⟩
      · rw [pushedIn, List.flatMap_nil, List.append_nil]
        exact sound
      · intro start began
        have solo := sound.solo began
        rw [pushedIn, List.flatMap_nil, List.append_nil]
        exact ⟨began, (Passed.still solo.notBefore solo.notBeyond).widen sound.heard_prefix⟩
  | cons step later inductionHypothesis =>
      have stepCalm : (Loopback.advance state step).outside.Calm := calm_of_run calm
      obtain ⟨laterSteady, next, told, advanced, keeps⟩ := sound.advance line steady stepCalm
      obtain ⟨restSteady, last, more, lastSound, laterPassed⟩ :=
        inductionHypothesis advanced laterSteady calm
      have split : pushed ++ pushedIn (step :: later) =
          (pushed ++ step.samples) ++ pushedIn later := by
        rw [pushedIn, List.flatMap_cons, ← List.append_assoc]
        rfl
      rw [split]
      refine ⟨restSteady, last, more, lastSound, ?_⟩
      intro start began
      obtain ⟨lastBegan, passedLater⟩ := laterPassed start (keeps start began)
      have passedFirst := (sound.passed line step stepCalm began).widen
        ((List.prefix_append pushed step.samples).trans
          (List.prefix_append (pushed ++ step.samples) (pushedIn later)))
      exact ⟨lastBegan, passedFirst.trans passedLater⟩

end Sound

def SyncHeard (state : State) : Prop :=
  ∃ outcome ∈ state.outside.outcomes, outcome.gist.1 = .sync

instance : DecidablePred SyncHeard :=
  fun state => inferInstanceAs (Decidable (∃ outcome ∈ state.outside.outcomes, _))

/-- How many samples the blocks had that the receiver's methods were called with. -/
def samplesDispatched (state : State) : Nat :=
  (state.outside.outcomes.map fun outcome => outcome.gist.2).sum

namespace Sound

variable {address : String} {id : StreamId} {state : State} {base : Option Nat}
  {pushed : List Sample} {told : List StreamEvent}

theorem syncHeard_iff (sound : Sound address id state base pushed told) :
    SyncHeard state ↔ base ≠ none := by
  have outcomes := sound.hearing.outcomes
  constructor
  · rintro ⟨outcome, isOutcome, _⟩ notBegun
    rw [(sound.hearing.quiet notBegun).1] at outcomes
    rw [List.map_eq_nil_iff.mp outcomes] at isOutcome
    cases isOutcome
  · intro begun
    obtain ⟨start, began⟩ := Option.ne_none_iff_exists'.mp begun
    have notEmpty := (sound.hearing.playing start began).1
    rcases sound.tells.of_prefix (List.take_prefix state.taken.length told) with
      nothing | ⟨time, cut, heardEq⟩
    · exact absurd nothing notEmpty
    · have isTold : (StreamEvent.sync id time).gist ∈ state.outside.outcomes.map Applied.gist := by
        rw [outcomes, heardEq]
        exact List.mem_cons_self
      obtain ⟨outcome, isOutcome, gistEq⟩ := List.mem_map.mp isTold
      exact ⟨outcome, isOutcome, congrArg Prod.fst gistEq⟩

theorem samplesDispatched_eq (sound : Sound address id state base pushed told) :
    samplesDispatched state = (samplesOf (told.take state.taken.length)).length := by
  have counts := congrArg (List.map Prod.snd) sound.hearing.outcomes
  rw [List.map_map, List.map_map] at counts
  unfold samplesDispatched samplesOf
  rw [List.length_flatMap]
  exact congrArg List.sum counts

theorem began (sound : Sound address id state none pushed told) (line : Line address)
    (calm : (Loopback.advance state .poll).outside.Calm)
    (heard : SyncHeard (Loopback.advance state .poll)) :
    Sound address id (Loopback.advance state .poll) (some (head (Loopback.advance state .poll)))
      pushed told := by
  obtain ⟨polled, _, sameReadHead⟩ := sound.poll line calm
  have begun := polled.syncHeard_iff.mp heard
  have baseEq : Hearing.baseAfter none (mixer state).readHead.value (dueEvents state told) =
      some (head (Loopback.advance state .poll)) := by
    unfold Hearing.baseAfter at begun ⊢
    by_cases nothing : dueEvents state told = []
    · rw [if_pos nothing] at begun
      exact absurd rfl begun
    · rw [if_neg nothing]
      exact congrArg (some ∘ SampleIndex.value) sameReadHead.symm
  rwa [baseEq] at polled

theorem available (sound : Sound address id state base pushed told) {start : Nat}
    (began : base = some start) :
    head state ≤ start + samplesDispatched state ∧
      (mixer state).available =
        min (mixer state).capacity (start + samplesDispatched state - head state) := by
  have solo := sound.solo began
  rw [sound.samplesDispatched_eq]
  exact ⟨solo.notBeyond, solo.available⟩

end Sound

/-! ### The setting -/

/-- A receiver that waits for its first stream.  It was created on a synchronized bus on which
nothing is under way; since then no more was done than to skip silence and to set the clock. -/
inductive Awaiting (service endpoint : String) : Bus StreamMethod → Mixer Seconds → Prop where
  | created {bus joined : Bus StreamMethod} {config : ReceiverConfig} {receiver : Receiver}
      {core : Mixer Seconds} (idle : bus.pending = []) (synchronized : bus.isSynchronized = true)
      (created : Receiver.create (fun method => method) bus service endpoint config =
        (joined, .ok (receiver, core))) : Awaiting service endpoint joined core
  | pulled {bus : Bus StreamMethod} {core : Mixer Seconds} (out : Array Sample) (frames : Nat)
      (stride : SampleCount) (awaiting : Awaiting service endpoint bus core) :
      Awaiting service endpoint bus (core.pull out frames stride).1
  | discarded {bus : Bus StreamMethod} {core : Mixer Seconds} (frames : Nat)
      (awaiting : Awaiting service endpoint bus core) :
      Awaiting service endpoint bus (core.discard frames).1
  | skipped {bus : Bus StreamMethod} {core : Mixer Seconds} (frames : Nat)
      (awaiting : Awaiting service endpoint bus core) :
      Awaiting service endpoint bus (core.gap frames)
  | clockSet {bus : Bus StreamMethod} {core : Mixer Seconds} (time : Seconds)
      (awaiting : Awaiting service endpoint bus core) :
      Awaiting service endpoint { bus with clock := time } core
  | noted {bus : Bus StreamMethod} {core : Mixer Seconds} (notice : Notice)
      (awaiting : Awaiting service endpoint bus core) :
      Awaiting service endpoint (bus.note notice) core

namespace Awaiting

variable {service endpoint : String} {bus : Bus StreamMethod} {core : Mixer Seconds}

theorem bus_spec (awaiting : Awaiting service endpoint bus core) :
    isServiceName service = true ∧
      (∀ method : StreamMethod,
        isAddress (joinAddresses (joinAddresses service endpoint) method.name) = true) ∧
      bus.pending = [] ∧ (bus.status service).isSynchronized = true ∧
      Receiver.Bound bus (fun method => method) (joinAddresses service endpoint) := by
  induction awaiting with
  | @created former joined config receiver core idle synchronized created =>
      have made := Receiver.create_ok created
      obtain ⟨_, _, provided⟩ := former.acquire_spec service
      obtain ⟨_, sameSynchronized, samePending, _⟩ := made.frame.mail
      refine ⟨made.isName, made.valid, samePending.trans idle, ?_, made.address ▸ made.bound⟩
      unfold Bus.status
      simp only [made.adds.services, provided, sameSynchronized, synchronized]
      rfl
  | pulled out frames stride awaiting inductionHypothesis => exact inductionHypothesis
  | discarded frames awaiting inductionHypothesis => exact inductionHypothesis
  | skipped frames awaiting inductionHypothesis => exact inductionHypothesis
  | clockSet time awaiting inductionHypothesis => exact inductionHypothesis
  | noted notice awaiting inductionHypothesis => exact inductionHypothesis

theorem idle (awaiting : Awaiting service endpoint bus core) : core.Idle := by
  induction awaiting with
  | created idle synchronized created => exact Mixer.Idle.create (Receiver.create_ok created).mixed
  | pulled out frames stride awaiting inductionHypothesis =>
      exact inductionHypothesis.pull out frames stride
  | discarded frames awaiting inductionHypothesis => exact inductionHypothesis.discard frames
  | skipped frames awaiting inductionHypothesis => exact inductionHypothesis.release frames
  | clockSet time awaiting inductionHypothesis => exact inductionHypothesis
  | noted notice awaiting inductionHypothesis => exact inductionHypothesis

end Awaiting

def start (transmitter : Transmitter) (bus : Bus StreamMethod) (core : Mixer Seconds) : State :=
  Session.start { transmitter := transmitter, link := bus } { mixer := core, outcomes := [] }

theorem start_sound {service endpoint : String} {bus former : Bus StreamMethod}
    {core : Mixer Seconds} {id : StreamId} {config : TransmitterConfig}
    {sender : Sender (Bus StreamMethod)} (awaiting : Awaiting service endpoint bus core)
    (created : Sender.create former id service endpoint config = .ok sender)
    (number : bus.clock.isNaN = false) :
    Sound (joinAddresses service endpoint) id (start sender.transmitter bus core) none [] [] := by
  obtain ⟨isName, _, idle, synchronized, bound⟩ := awaiting.bus_spec
  have address := Sender.address_of_create created
  obtain ⟨validated, client, senderEq⟩ := Sender.create_ok created
  constructor
  case orderly =>
    rw [senderEq]
    exact ⟨Bus.InOrder.of_idle idle _, number, config.cutoff_usable_of_validate validated⟩
  case balanced =>
    change (([] : List Pending) ++ bus.pending).Perm []
    rw [idle]
    exact List.Perm.refl _
  case bound => exact bound
  case synchronized =>
    change (bus.status (firstSegment sender.transmitter.client.address)).isSynchronized = true
    rw [address, firstSegment_joinAddresses isName]
    exact synchronized
  case client => exact address
  case identity =>
    rw [senderEq]
    rfl
  case borne => exact List.Forall₂.nil
  case tells => exact Or.inl rfl
  case announced =>
    rw [senderEq]
    exact ⟨fun contrary => absurd contrary Bool.false_ne_true, fun contrary => absurd rfl contrary⟩
  case said => rfl
  case short =>
    intro event isTold
    cases isTold
  case hearing =>
    constructor
    case outcomes => rfl
    case quiet => exact fun _ => ⟨rfl, awaiting.idle⟩
    case playing =>
      intro start contrary
      cases contrary

/-- From the sync on, the consumer of a loop gets the samples that were pushed, in order and each
once, as long as no block reaches beyond the ring; and what it has not taken yet of those that were
dispatched is available, up to a lap. -/
theorem returns_samples {service endpoint : String} {bus former : Bus StreamMethod}
    {core : Mixer Seconds} {id : StreamId} {config : TransmitterConfig}
    {sender : Sender (Bus StreamMethod)} (awaiting : Awaiting service endpoint bus core)
    (created : Sender.create former id service endpoint config = .ok sender)
    (number : bus.clock.isNaN = false)
    (countable : ∀ method : StreamMethod,
      (bytesOfText (joinAddresses (joinAddresses service endpoint) method.name)).length < 2 ^ 64)
    (before after : List Step) (steady : ClockSteady bus.clock (before ++ .poll :: after)) :
    let opening := start sender.transmitter bus core
    let atSync := run opening (before ++ [.poll])
    let last := run opening (before ++ .poll :: after)
    let taken := framesFrom atSync after
    ¬ SyncHeard (run opening before) → SyncHeard atSync → last.outside.Calm →
      head last = head atSync + taken.length ∧
        taken = Mixer.heard
          ((pushedIn (before ++ .poll :: after)).take (head last - head atSync)) ∧
        taken.length ≤ samplesDispatched last ∧
        (mixer last).available =
          min (mixer last).capacity (samplesDispatched last - taken.length) := by
  intro opening atSync last taken unheard heard calm
  have line : Line (joinAddresses service endpoint) := ⟨awaiting.bus_spec.2.1, countable⟩
  have atSyncEq : atSync = advance (run opening before) .poll := List.foldl_append
  have lastEq : last = run atSync after := by
    rw [atSyncEq]
    exact List.foldl_append
  rw [lastEq] at calm
  have syncCalm : (advance (run opening before) .poll).outside.Calm := by
    rw [← atSyncEq]
    exact calm_of_run calm
  -- Up to the poll that dispatches the sync no event was heard, so the stream has no start yet.
  obtain ⟨pollSteady, base, told, sound, _⟩ :=
    (start_sound awaiting created number).run line steady (@calm_of_run _ [.poll] syncCalm)
  have notBegun : base = none := by
    by_contra begun
    exact unheard (sound.syncHeard_iff.mpr begun)
  rw [notBegun] at sound
  rw [atSyncEq] at heard
  -- That poll puts the start at the read head; from there on the read head passes the samples.
  have syncSound := sound.began line syncCalm heard
  obtain ⟨afterSteady, _⟩ := sound.advance line pollSteady syncCalm
  rw [← atSyncEq] at syncSound afterSteady
  rw [← List.append_nil after] at afterSteady
  obtain ⟨_, _, _, lastSound, keeps⟩ := syncSound.run line afterSteady calm
  obtain ⟨began, passed⟩ := keeps (head atSync) rfl
  obtain ⟨dispatched, available⟩ := lastSound.available began
  rw [← lastEq] at passed dispatched available
  have moved := passed.frames_length
  have pushedEq :
      [] ++ pushedIn before ++ pushedIn after = pushedIn (before ++ .poll :: after) := by
    unfold pushedIn
    rw [List.nil_append, List.flatMap_append]
    rfl
  have frames := passed.frames
  rw [pushedEq, Nat.sub_self, List.drop_zero] at frames
  refine ⟨moved, frames, ?_, ?_⟩
  · rw [moved] at dispatched
    exact Nat.le_of_add_le_add_left dispatched
  · rw [available, moved, Nat.add_sub_add_left]

def receivingBus : Bus StreamMethod :=
  (Receiver.create (fun method => method)
    { Bus.create "peer" (Binary.ofBits 0x4059000000000000) with isSynchronized := true }
    "mixer" "0" Mixer.fourSlotConfig).1

theorem receivingBus_awaiting : Awaiting "mixer" "0" receivingBus Mixer.fourSlotMixer := by
  have isOk : (Receiver.create (fun method => method)
      { Bus.create "peer" (Binary.ofBits 0x4059000000000000) with isSynchronized := true }
      "mixer" "0" Mixer.fourSlotConfig).2.isOk = true := by
    decide +kernel
  unfold receivingBus
  cases outcome : Receiver.create (fun method => method)
      { Bus.create "peer" (Binary.ofBits 0x4059000000000000) with isSynchronized := true }
      "mixer" "0" Mixer.fourSlotConfig with
  | mk joined result =>
      cases result with
      | error cause =>
          rw [outcome] at isOk
          contradiction
      | ok made =>
          have mixed := (Receiver.create_ok outcome).mixed
          have coreEq : made.2 = Mixer.fourSlotMixer := (Except.ok.inj mixed).symm
          rw [← coreEq]
          exact .created rfl rfl outcome

def pairConfig : TransmitterConfig :=
  { Sender.promptConfig with
    maxChunk := some { count := 2, count_pos := by decide, count_lt := by decide } }

/-- Silence is taken before the stream begins, and its second block waits for the clock. -/
def stepsBeforeSync : List Step :=
  [.pull (Array.replicate 1 silence) 1 SampleCount.one,
    .push [Binary.ofNat 1, Binary.ofNat 2, Binary.ofNat 3]]

def stepsAfterSync : List Step :=
  [.pull (Array.replicate 2 silence) 2 SampleCount.one, .push [Binary.ofNat 4, Binary.ofNat 5],
    .setClock (Binary.ofBits 0x4059400000000000), .poll, .discard 2]

theorem stepsAfterSync_return_samples :
    let opening :=
      start (Sender.freshTransmitter pairConfig) receivingBus (Mixer.fourSlotMixer.gap 3)
    let atSync := run opening (stepsBeforeSync ++ [.poll])
    let last := run opening (stepsBeforeSync ++ .poll :: stepsAfterSync)
    head atSync = 4 ∧ (framesFrom atSync stepsAfterSync).length = 4 ∧
      framesFrom atSync stepsAfterSync =
        [Binary.ofNat 1, Binary.ofNat 2, Binary.ofNat 3, Binary.ofNat 4] ∧
      (mixer last).available = 1 := by
  intro opening atSync last
  have created : Sender.create receivingBus { value := 0 } "mixer" "0" pairConfig =
      .ok
        { transmitter := Sender.freshTransmitter pairConfig
          link := receivingBus.note (.transmitting { value := 0 } "mixer/0") } :=
    Sender.create_freshSender rfl receivingBus
  have countable : ∀ method : StreamMethod,
      (bytesOfText (joinAddresses (joinAddresses "mixer" "0") method.name)).length < 2 ^ 64 := by
    intro method
    cases method with
    | sync => decide +kernel
    | push => decide +kernel
    | close => decide +kernel
  have unheard : ¬ SyncHeard (run opening stepsBeforeSync) := by decide +kernel
  have heard : SyncHeard atSync := by decide +kernel
  have calm : last.outside.Calm := by decide +kernel
  have count : (framesFrom atSync stepsAfterSync).length = 4 := by decide +kernel
  obtain ⟨moved, frames, _, available⟩ :=
    returns_samples (.skipped 3 receivingBus_awaiting) created (by decide +kernel) countable
      stepsBeforeSync stepsAfterSync (by decide +kernel) unheard heard calm
  refine ⟨?_, count, ?_, ?_⟩
  · decide +kernel
  · refine frames.trans ?_
    rw [moved, count, Nat.add_sub_cancel_left]
    decide +kernel
  · refine available.trans ?_
    rw [count]
    decide +kernel

end AudioBus.Loopback
