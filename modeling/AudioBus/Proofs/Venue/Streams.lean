import AudioBus.Proofs.Venue.Isolation
import AudioBus.Proofs.Venue.Voices

/-!
Streams at a venue.  A receiver that only transmitters feed gets every stream opened by a sync: the
blocks and closes that reach its mixer find their stream open, as each transmitter speaks in turn
and is heard in the order in which it spoke.
-/

namespace AudioBus

/-! ### What a mixer makes of events -/

namespace Applied

def id : Applied → StreamId
  | .declared id _ _ | .taken id _ _ | .closed id _ => id

def method : Applied → StreamMethod
  | .declared _ _ _ => .sync
  | .taken _ _ _ => .push
  | .closed _ _ => .close

/-- Whether a block or a close found its stream open. -/
def foundOpen : Applied → Bool
  | .declared _ _ _ => true
  | .taken _ _ how => !how.opened
  | .closed _ wasOpen => wasOpen

end Applied

namespace Mixer

variable (mixer : Mixer Seconds) (event : StreamEvent)

theorem apply_id : (mixer.apply event).2.id = event.id ∧
    (mixer.apply event).2.method = event.method := by
  cases event with
  | sync id time => exact ⟨rfl, rfl⟩
  | push id samples => exact ⟨rfl, rfl⟩
  | close id => exact ⟨rfl, rfl⟩

theorem apply_foundOpen (timely : event.method ≠ .sync → mixer.streams.contains event.id = true) :
    (mixer.apply event).2.foundOpen = true := by
  cases event with
  | sync id time => rfl
  | push id samples =>
      have isOpen : (mixer.streams.find? id).isSome = true := timely nofun
      change (!(mixer.streams.find? id).isNone) = true
      rw [Option.not_isNone]
      exact isOpen
  | close id => exact timely nofun

theorem apply_contains (id : StreamId) :
    (mixer.apply event).1.streams.contains id =
      if event.id = id then event.opens else mixer.streams.contains id := by
  by_cases isOwn : event.id = id
  · rw [if_pos isOwn, ← isOwn]
    cases event with
    | sync id time => exact congrArg Option.isSome (Table.find?_insert_self _ _ _)
    | push id samples => exact congrArg Option.isSome (Table.find?_insert_self _ _ _)
    | close id => exact congrArg Option.isSome (Table.find?_erase_self _ _)
  · rw [if_neg isOwn]
    have different : id ≠ event.id := Ne.symm isOwn
    cases event with
    | sync id time => exact congrArg Option.isSome (Table.find?_insert_of_ne _ different _)
    | push id samples => exact congrArg Option.isSome (Table.find?_insert_of_ne _ different _)
    | close id => exact congrArg Option.isSome (Table.find?_erase_of_ne _ different)

end Mixer

def MixerCall.consumes {τ : Type} : MixerCall τ → Bool
  | .pull _ _ _ | .discard _ | .gap _ | .setStreamTime _ => true
  | .declare _ _ | .push _ _ | .close _ => false

theorem Mixer.perform_streams (mixer : Mixer Seconds) {call : MixerCall Seconds}
    (consumes : call.consumes = true) : (mixer.perform call).streams = mixer.streams := by
  cases call with
  | pull out frames stride => rfl
  | discard frames => rfl
  | gap frames => rfl
  | setStreamTime time => rfl
  | declare id time => contradiction
  | push id block => contradiction
  | close id => contradiction

/-! ### What a receiver hears -/

def eventsOf (id : StreamId) (heard : List StreamEvent) : List StreamEvent :=
  heard.filter fun event => decide (event.id = id)

theorem eventsOf_append (heard : List StreamEvent) (event : StreamEvent) (id : StreamId) :
    eventsOf id (heard ++ [event]) =
      if event.id = id then eventsOf id heard ++ [event] else eventsOf id heard := by
  unfold eventsOf
  rw [List.filter_append]
  by_cases isOwn : event.id = id
  · rw [if_pos isOwn, List.filter_cons_of_pos (by simp [isOwn]), List.filter_nil]
  · rw [if_neg isOwn, List.filter_cons_of_neg (by simp [isOwn]), List.filter_nil, List.append_nil]

/-- How a reception is after it heard events.  A stream is open if its latest event left it open,
and when the events of every stream came in turn, each found its stream open. -/
structure Reception.Heard (reception : Reception) (heard : List StreamEvent) : Prop where
  streams : ∀ id, reception.mixer.streams.contains id = openAfter false (eventsOf id heard)
  outcomes : reception.outcomes.map (fun outcome => (outcome.id, outcome.method)) =
    heard.map fun event => (event.id, event.method)
  foundOpen : (∀ id, InTurn false (eventsOf id heard)) →
    ∀ outcome ∈ reception.outcomes, outcome.foundOpen = true

namespace Reception.Heard

variable {reception : Reception} {heard : List StreamEvent}

theorem fresh {config : ReceiverConfig} {mixer : Mixer Seconds}
    (created : Mixer.create config = .ok mixer) :
    ({ mixer := mixer, outcomes := [] } : Reception).Heard [] := by
  have empty : mixer.streams = Table.empty := by
    unfold Mixer.create at created
    cases validated : config.validate with
    | error cause =>
        rw [validated] at created
        cases created
    | ok done =>
        rw [validated] at created
        cases created
        rfl
  constructor
  case streams =>
    intro id
    rw [empty]
    rfl
  case outcomes => rfl
  case foundOpen => exact fun _ outcome isOutcome => absurd isOutcome List.not_mem_nil

theorem hear (told : reception.Heard heard) (event : StreamEvent) :
    (reception.hear event).Heard (heard ++ [event]) := by
  constructor
  case streams =>
    intro id
    change (reception.mixer.apply event).1.streams.contains id = _
    rw [Mixer.apply_contains, eventsOf_append]
    split
    · rw [openAfter_append]
    · exact told.streams id
  case outcomes =>
    change (reception.outcomes ++ [_]).map _ = _
    obtain ⟨sameId, sameMethod⟩ := reception.mixer.apply_id event
    rw [List.map_append, List.map_append, told.outcomes, List.map_singleton, sameId, sameMethod]
    rfl
  case foundOpen =>
    intro inTurn outcome isOutcome
    have before : ∀ id, InTurn false (eventsOf id heard) := by
      intro id
      have after := inTurn id
      rw [eventsOf_append] at after
      split at after
      · exact (inTurn_append.mp after).1
      · exact after
    rcases List.mem_append.mp isOutcome with wasOutcome | isNew
    · exact told.foundOpen before outcome wasOutcome
    · rw [List.mem_singleton.mp isNew]
      apply reception.mixer.apply_foundOpen event
      have after := inTurn event.id
      rw [eventsOf_append, if_pos rfl] at after
      rw [told.streams]
      exact (inTurn_append.mp after).2

theorem call (told : reception.Heard heard) {call : MixerCall Seconds}
    (consumes : call.consumes = true) : (reception.call call).Heard heard := by
  constructor
  case streams =>
    intro id
    change (reception.mixer.perform call).streams.contains id = _
    rw [Mixer.perform_streams _ consumes]
    exact told.streams id
  case outcomes => exact told.outcomes
  case foundOpen => exact told.foundOpen

end Reception.Heard

def Report.event? (address : String) (report : Report) : Option StreamEvent :=
  report.message?.bind (StreamEvent.carried? address)

/-- The events that were dispatched to an address. -/
def heardAt (address : String) (reports : List Report) : List StreamEvent :=
  reports.filterMap (Report.event? address)

theorem heardAt_append_silent (address : String) (reports : List Report) {report : Report}
    (silent : report.event? address = none) :
    heardAt address (reports ++ [report]) = heardAt address reports := by
  unfold heardAt
  rw [List.filterMap_append, List.filterMap_cons_none silent, List.filterMap_nil, List.append_nil]

theorem heardAt_append_event (address : String) (reports : List Report) {report : Report}
    {event : StreamEvent} (tells : report.event? address = some event) :
    heardAt address (reports ++ [report]) = heardAt address reports ++ [event] := by
  unfold heardAt
  rw [List.filterMap_append, List.filterMap_cons_some tells, List.filterMap_nil]

def Report.feeds (number : Nat) : Report → Bool
  | .called other call => decide (other = number) && !call.consumes
  | .opened _ _ _ | .dropped _ | .dispatched _ => false

/-- Whether nothing was dispatched to an address before the receiver with a number was opened
there. -/
def OpenedFirst (number : Nat) (address : String) (reports : List Report) : Prop :=
  ∀ before config after, reports = before ++ .opened number address config :: after →
    heardAt address before = []

def Report.isOpening : Report → Bool
  | .opened _ _ _ => true
  | .dropped _ | .called _ _ | .dispatched _ => false

theorem OpenedFirst.of_tail (number : Nat) (address : String) {reports : List Report}
    (notLater : ∀ report ∈ reports.tail, report.isOpening = false) :
    OpenedFirst number address reports := by
  intro before config after split
  cases before with
  | nil => rfl
  | cons first rest =>
      rw [split] at notLater
      have isOpening := notLater (.opened number address config)
        (List.mem_append_right rest List.mem_cons_self)
      contradiction

theorem OpenedFirst.of_append {number : Nat} {address : String} {reports : List Report}
    {report : Report} (openedFirst : OpenedFirst number address (reports ++ [report])) :
    OpenedFirst number address reports := by
  intro before config after split
  apply openedFirst before config (after ++ [report])
  rw [split, List.append_assoc]
  rfl

def Standing.Hears (address : String) (heard : List StreamEvent) (standing : Option Standing) :
    Prop :=
  ∀ fed, standing = some fed → fed.address = some address → fed.reception.Heard heard

namespace Standing.Hears

variable {number : Nat} {address : String} {reports : List Report} {standing : Option Standing}

theorem opened {config : ReceiverConfig} (hears : Hears address (heardAt address reports) standing)
    {other : Nat} {place : String}
    (fresh : other = number → place = address → heardAt address reports = []) :
    Hears address (heardAt address reports)
      (after number standing (.opened other place config)) := by
  simp only [after]
  by_cases isOpened : other = number
  · rw [if_pos isOpened]
    intro fed isFed listens
    obtain ⟨mixer, created, fedEq⟩ := Option.map_eq_some_iff.mp isFed
    rw [← fedEq] at listens ⊢
    rw [fresh isOpened (Option.some.inj listens)]
    cases outcome : (Mixer.create config : Except ConfigError (Mixer Seconds)) with
    | error cause =>
        rw [outcome] at created
        cases created
    | ok made =>
        rw [outcome] at created
        cases created
        exact Reception.Heard.fresh outcome
  · rw [if_neg isOpened]
    exact hears

theorem dropped {heard : List StreamEvent} (hears : Hears address heard standing) (other : Nat) :
    Hears address heard (after number standing (.dropped other)) := by
  simp only [after]
  by_cases isDropped : other = number
  · rw [if_pos isDropped]
    intro fed isFed listens
    obtain ⟨former, _, fedEq⟩ := Option.map_eq_some_iff.mp isFed
    rw [← fedEq] at listens
    contradiction
  · rw [if_neg isDropped]
    exact hears

theorem called {heard : List StreamEvent} (hears : Hears address heard standing) {other : Nat}
    {call : MixerCall Seconds} (consumes : other = number → call.consumes = true) :
    Hears address heard (after number standing (.called other call)) := by
  simp only [after]
  by_cases isCalled : other = number
  · rw [if_pos isCalled]
    intro fed isFed listens
    obtain ⟨former, wasFed, fedEq⟩ := Option.map_eq_some_iff.mp isFed
    rw [← fedEq] at listens ⊢
    exact (hears former wasFed listens).call (consumes isCalled)
  · rw [if_neg isCalled]
    exact hears

theorem dispatched (hears : Hears address (heardAt address reports) standing) (message : Message) :
    Hears address (heardAt address (reports ++ [.dispatched message]))
      (after number standing (.dispatched message)) := by
  intro fed isFed listens
  obtain ⟨former, wasFed, fedEq⟩ := Option.map_eq_some_iff.mp isFed
  rw [← fedEq] at listens ⊢
  change former.address = some address at listens
  change (former.reception.overhear former.address message).Heard _
  rw [listens]
  cases carries : StreamEvent.carried? address message with
  | none =>
      have nothing : ∀ place, some address = some place →
          StreamEvent.carried? place message = none := by
        intro place same
        cases same
        exact carries
      have silent : (Report.dispatched message).event? address = none := carries
      rw [Reception.overhear_nothing _ nothing, heardAt_append_silent address reports silent]
      exact hears former wasFed listens
  | some event =>
      have tells : (Report.dispatched message).event? address = some event := carries
      rw [Reception.overhear_event _ carries, heardAt_append_event address reports tells]
      exact (hears former wasFed listens).hear event

end Standing.Hears

/-- A mixer that only consumers call hears all that is dispatched to its address, if its receiver
was opened first. -/
theorem Standing.hears_told {number : Nat} {address : String} {reports : List Report}
    (consumed : ∀ report ∈ reports, report.feeds number = false)
    (openedFirst : OpenedFirst number address reports) :
    Hears address (heardAt address reports) (told number reports) := by
  induction reports using List.reverseRecOn with
  | nil => exact nofun
  | append_singleton earlier report inductionHypothesis =>
      have hears := inductionHypothesis
        (fun other isEarlier => consumed other (List.mem_append_left _ isEarlier))
        openedFirst.of_append
      have unfed := consumed report (List.mem_append_right _ (List.mem_singleton_self _))
      rw [told_append]
      change Hears address _ (after number (told number earlier) report)
      cases report with
      | opened other place config =>
          rw [heardAt_append_silent address earlier rfl]
          apply hears.opened
          intro isNumber isAddress
          rw [isNumber, isAddress] at openedFirst
          exact openedFirst earlier config [] rfl
      | dropped other =>
          rw [heardAt_append_silent address earlier rfl]
          exact hears.dropped other
      | called other call =>
          rw [heardAt_append_silent address earlier rfl]
          apply hears.called
          intro isCalled
          simpa only [Report.feeds, isCalled, decide_true, Bool.true_and,
            Bool.not_eq_false'] using unfed
      | dispatched message => exact hears.dispatched message

/-! ### What is heard of a transmitter -/

def Pending.event? (address : String) (entry : Pending) : Option StreamEvent :=
  entry.message?.bind (StreamEvent.carried? address)

theorem Bears.event? {address : String} {entry : Pending} {event : StreamEvent}
    (bears : Bears address entry event)
    (countable : (bytesOfText (joinAddresses address event.method.name)).length < 2 ^ 64)
    (short : event.samples.length < 2 ^ 64) : entry.event? address = some event := by
  obtain ⟨timestamp, frameEq⟩ := bears
  have decoded := Message.decode_encode (StreamEvent.call_countable timestamp countable short)
  have holds : entry.message? = some (event.call address timestamp) := by
    unfold Pending.message?
    rw [frameEq, decoded]
    rfl
  unfold Pending.event?
  rw [holds]
  exact StreamEvent.carried?_call event address timestamp

theorem filter_filterMap_of_iff {α β : Type} {read : α → Option β} {passes : β → Bool}
    {chosen : α → Bool} {items : List α}
    (agree : ∀ item ∈ items, ∀ result, read item = some result →
      passes result = chosen item) :
    (items.filterMap read).filter passes = (items.filter chosen).filterMap read := by
  rw [List.filter_filterMap, List.filterMap_filter]
  apply List.filterMap_congr
  intro item isItem
  cases outcome : read item with
  | none => rw [ite_self, Option.filter_none]
  | some result => rw [Option.filter_some, agree item isItem result outcome]

theorem tell_of_bear {address : String} {posted : List Pending} {said : List StreamEvent}
    (borne : List.Forall₂ (Bears address) posted said)
    (countable : ∀ method : StreamMethod,
      (bytesOfText (joinAddresses address method.name)).length < 2 ^ 64)
    (short : ∀ event ∈ said, event.samples.length < 2 ^ 64) :
    posted.filterMap (Pending.event? address) = said ∧
      ∀ entry ∈ posted, ∃ event ∈ said, entry.event? address = some event := by
  induction borne with
  | nil => exact ⟨rfl, fun _ isPosted => absurd isPosted List.not_mem_nil⟩
  | @cons entry event laterPosted laterSaid bears _ inductionHypothesis =>
      have tells := bears.event? (countable event.method) (short event List.mem_cons_self)
      obtain ⟨restEq, restTell⟩ := inductionHypothesis fun other isLater =>
        short other (List.mem_cons_of_mem event isLater)
      refine ⟨?_, ?_⟩
      · rw [List.filterMap_cons_some tells, restEq]
      · intro other isPosted
        rcases List.mem_cons.mp isPosted with isFirst | isLater
        · rw [isFirst]
          exact ⟨event, List.mem_cons_self, tells⟩
        · obtain ⟨told, isSaid, otherTells⟩ := restTell other isLater
          exact ⟨told, List.mem_cons_of_mem event isSaid, otherTells⟩

namespace Venue

variable {η ω : Type}

/-- Whether the receiver with a number is fed by the transmitters of a venue and by nothing else,
and has been since before they were heard. -/
structure Dedicated (venue : Venue η ω) (number : Nat) (address : String) : Prop where
  alive : addressOf? venue.receivers number = some address
  countable : ∀ method : StreamMethod,
    (bytesOfText (joinAddresses address method.name)).length < 2 ^ 64
  openedFirst : OpenedFirst number address venue.reports
  addressed : ∀ voice ∈ venue.voices, voice.address = address
  distinct : (venue.voices.map Voice.id).Nodup
  fed : ∀ entry ∈ venue.taken, (entry.event? address).isSome = true →
    ∃ voice ∈ venue.voices, entry ∈ voice.posted
  consumed : ∀ report ∈ venue.reports, report.feeds number = false

namespace Dedicated

variable {venue : Venue η ω} {number : Nat} {address : String}

theorem tells (dedicated : venue.Dedicated number address) (orderly : venue.Orderly)
    {voice : Voice} (isVoice : voice ∈ venue.voices) {entry : Pending}
    (isPosted : entry ∈ voice.posted) {event : StreamEvent}
    (told : entry.event? address = some event) : event.id = voice.id := by
  have wellSpoken := (orderly.voices voice isVoice).1
  have borne := wellSpoken.borne
  rw [dedicated.addressed voice isVoice] at borne
  obtain ⟨said, isSaid, saidTold⟩ :=
    (tell_of_bear borne dedicated.countable wellSpoken.short).2 entry isPosted
  rw [told] at saidTold
  cases saidTold
  exact wellSpoken.turns.identity event isSaid

theorem heard_prefix (dedicated : venue.Dedicated number address) (orderly : venue.Orderly)
    {voice : Voice} (isVoice : voice ∈ venue.voices) :
    eventsOf voice.id (venue.taken.filterMap (Pending.event? address)) <+: voice.said := by
  obtain ⟨wellSpoken, inOrder⟩ := orderly.voices voice isVoice
  have borne := wellSpoken.borne
  rw [dedicated.addressed voice isVoice] at borne
  have own : eventsOf voice.id (venue.taken.filterMap (Pending.event? address)) =
      (venue.taken.filter (· ∈ voice.posted)).filterMap (Pending.event? address) := by
    apply filter_filterMap_of_iff
    intro entry isTaken event told
    apply decide_eq_decide.mpr
    obtain ⟨speaker, isSpeaker, isPosted⟩ := dedicated.fed entry isTaken (by rw [told]; rfl)
    have spoken := dedicated.tells orderly isSpeaker isPosted told
    constructor
    · intro isOwn
      have same := List.inj_on_of_nodup_map dedicated.distinct isSpeaker isVoice
        (spoken.symm.trans isOwn)
      rw [← same]
      exact isPosted
    · exact fun isOwn => dedicated.tells orderly isVoice isOwn told
  rw [own, ← (tell_of_bear borne dedicated.countable wellSpoken.short).1]
  exact inOrder.inOrder.taken_prefix.filterMap _

/-- The events of every stream are heard in turn, and only streams of transmitters are heard. -/
theorem heard_inTurn (dedicated : venue.Dedicated number address) (orderly : venue.Orderly)
    (id : StreamId) :
    InTurn false (eventsOf id (venue.taken.filterMap (Pending.event? address))) ∧
      (eventsOf id (venue.taken.filterMap (Pending.event? address)) ≠ [] →
        ∃ voice ∈ venue.voices, voice.id = id) := by
  cases split : eventsOf id (venue.taken.filterMap (Pending.event? address)) with
  | nil => exact ⟨trivial, fun notNil => absurd rfl notNil⟩
  | cons event rest =>
      have isHeard : event ∈ eventsOf id (venue.taken.filterMap (Pending.event? address)) := by
        rw [split]
        exact List.mem_cons_self
      obtain ⟨wasTold, isOwn⟩ := List.mem_filter.mp isHeard
      obtain ⟨entry, isTaken, told⟩ := List.mem_filterMap.mp wasTold
      obtain ⟨voice, isVoice, isPosted⟩ := dedicated.fed entry isTaken (by rw [told]; rfl)
      have isVoiceOf : voice.id = id :=
        (dedicated.tells orderly isVoice isPosted told).symm.trans (of_decide_eq_true isOwn)
      have isPart := dedicated.heard_prefix orderly isVoice
      rw [isVoiceOf, split] at isPart
      exact ⟨(orderly.voices voice isVoice).1.turns.inTurn.of_prefix isPart,
        fun _ => ⟨voice, isVoice, isVoiceOf⟩⟩

end Dedicated

theorem InTune.heardAt_eq {venue : Venue η ω} (inTune : venue.InTune) (address : String) :
    heardAt address venue.reports = venue.taken.filterMap (Pending.event? address) := by
  have same := congrArg (List.filterMap (StreamEvent.carried? address)) inTune.dispatched
  rw [List.filterMap_filterMap, List.filterMap_filterMap] at same
  exact same

/-- Of a receiver that transmitters with streams of their own feed, and nothing else: every block
and every close that is dispatched finds its stream open, and the open streams are those of the
transmitters that were last heard with a sync or a block. -/
theorem streams_are_declared (manners : Manners η ω) (peerName : String) {clock : Seconds}
    (clockNumber : clock.isNaN = false) (beyond : ω) (steps : List (VenueStep η))
    (steady : (create peerName clock beyond).ClockSteady manners steps) {number : Nat}
    {address : String}
    (dedicated : ((create peerName clock beyond).run manners steps).Dedicated number address) :
    let last := (create peerName clock beyond).run manners steps
    let heard := heardAt address last.reports
    ∃ reception, last.receptions[number]? = some reception ∧
      reception.outcomes.map (fun outcome => (outcome.id, outcome.method)) =
        heard.map (fun event => (event.id, event.method)) ∧
      (∀ outcome ∈ reception.outcomes, outcome.foundOpen = true) ∧
      (∀ voice ∈ last.voices, eventsOf voice.id heard <+: voice.said) ∧
      ∀ id, reception.mixer.streams.contains id = true ↔
        ∃ voice ∈ last.voices, voice.id = id ∧
          ∃ event, (eventsOf id heard).getLast? = some event ∧ event.method ≠ .close := by
  intro last heard
  have orderly : last.Orderly := (Orderly.create clockNumber peerName beyond).run manners steps
    steady
  have inTune : last.InTune := (InTune.create peerName clock beyond).run manners steps
  have heardEq : heard = last.taken.filterMap (Pending.event? address) :=
    inTune.heardAt_eq address
  obtain ⟨receiver, isLive, addressEq⟩ := Option.map_eq_some_iff.mp dedicated.alive
  have inRange := inTune.receiverNumbers number (Table.mem_keys_of_find? isLive)
  have told : Standing.told number last.reports =
      some { reception := last.receptions[number], address := some address } := by
    rw [← inTune.standing]
    unfold standing? standingOf
    rw [List.getElem?_eq_getElem inRange, dedicated.alive]
    rfl
  have hears : (last.receptions[number]).Heard heard :=
    Standing.hears_told dedicated.consumed dedicated.openedFirst _ told rfl
  have inTurn : ∀ id, InTurn false (eventsOf id heard) := by
    intro id
    rw [heardEq]
    exact (dedicated.heard_inTurn orderly id).1
  refine ⟨last.receptions[number], List.getElem?_eq_getElem inRange, hears.outcomes,
    hears.foundOpen inTurn, ?_, ?_⟩
  · intro voice isVoice
    rw [heardEq]
    exact dedicated.heard_prefix orderly isVoice
  · intro id
    rw [hears.streams id, openAfter_iff]
    constructor
    · rintro ⟨event, isLatest, notClose⟩
      have isHeard : eventsOf id heard ≠ [] := List.ne_nil_of_mem (List.mem_of_getLast? isLatest)
      rw [heardEq] at isHeard
      obtain ⟨voice, isVoice, isOwn⟩ := (dedicated.heard_inTurn orderly id).2 isHeard
      exact ⟨voice, isVoice, isOwn, event, isLatest, notClose⟩
    · rintro ⟨_, _, _, latest⟩
      exact latest

/-- Two transmitters push a block at 100 s, and the second closes its stream.  A second later all
of it is dispatched, and the consumer skips a frame. -/
def twoTransmitterSteps : List (VenueStep Unit) :=
  [.synchronize true, .openReceiver "mixer" "0" Mixer.fourSlotConfig,
    .openTransmitter { value := 0 } "mixer" "0" Sender.promptConfig,
    .openTransmitter { value := 1 } "mixer" "0" Sender.promptConfig,
    .transmit 1 (.push [Binary.zero]), .transmit 0 (.push [Binary.zero]), .transmit 1 .close,
    .setClock (Binary.ofBits 0x4059400000000000), .poll, .callMixer 0 (.gap 1)]

def twoTransmitters : Venue Unit Unit :=
  (create "peer" (Binary.ofBits 0x4059000000000000) ()).run idleManners twoTransmitterSteps

theorem twoTransmitters_dedicated : twoTransmitters.Dedicated 0 "mixer/0" where
  alive := by decide +kernel
  countable := by
    intro method
    cases method <;> decide +kernel
  openedFirst := OpenedFirst.of_tail 0 "mixer/0" (by decide +kernel)
  addressed := by decide +kernel
  distinct := by decide +kernel
  fed := by decide +kernel
  consumed := by decide +kernel

theorem twoTransmitterSteps_declare_streams :
    ∃ reception, twoTransmitters.receptions[0]? = some reception ∧
      reception.outcomes.map (fun outcome => (outcome.id, outcome.method)) =
        [({ value := 1 }, .sync), ({ value := 1 }, .push), ({ value := 0 }, .sync),
          ({ value := 0 }, .push), ({ value := 1 }, .close)] ∧
      (∀ outcome ∈ reception.outcomes, outcome.foundOpen = true) ∧
      (∀ voice ∈ twoTransmitters.voices,
        eventsOf voice.id (heardAt "mixer/0" twoTransmitters.reports) <+: voice.said) ∧
      reception.mixer.streams.contains { value := 0 } = true := by
  obtain ⟨reception, inHall, outcomes, foundOpen, inOrder, isOpen⟩ :=
    streams_are_declared idleManners "peer" (by decide +kernel) () twoTransmitterSteps
      (by decide +kernel) twoTransmitters_dedicated
  refine ⟨reception, inHall, outcomes.trans ?_, foundOpen, inOrder, (isOpen _).mpr ?_⟩
  · decide +kernel
  · decide +kernel

end Venue

end AudioBus
