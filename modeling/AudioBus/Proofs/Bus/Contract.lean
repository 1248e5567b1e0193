import AudioBus.Proofs.Bus.Traffic
import AudioBus.Proofs.Codec.RoundTrip
import Mathlib.Data.List.Nodup

/-!
What a bus promises of delivery: every message waits for its deadline, is taken off the schedule
once by the first poll that finds it due, and reaches the handler that is bound to its path then.
-/

namespace AudioBus

theorem Letter.deadline_number {letter : Letter} (number : letter.sentAt.isNaN = false) :
    letter.deadline.isNaN = false := by
  unfold deadline dueAt
  split
  · rename_i positive
    exact (Binary.less_iff.mp positive).2.1
  · exact number

/-! ### Nothing is lost and nothing is doubled -/

namespace Bus

variable {η : Type}

/-- Frames wait in the order of delivery, and those taken and those that wait are the frames of all
letters sent, which are numbered from zero up. -/
structure Accounts (taken : List Pending) (bus : Bus η) (sent : List Letter) : Prop where
  ordered : Ordered bus.pending
  numbered : sent.map Letter.sequence = List.range bus.sent
  balanced : (taken ++ bus.pending).Perm (sent.map Letter.entry)

namespace Accounts

variable {bus : Bus η} {sent : List Letter} {taken : List Pending}

theorem create (peerName : String) (clock : Seconds) :
    Accounts [] (Bus.create (η := η) peerName clock) [] where
  ordered := List.Pairwise.nil
  numbered := rfl
  balanced := List.Perm.refl _

theorem pending_sent (accounts : Accounts taken bus sent) {entry : Pending}
    (isPending : entry ∈ bus.pending) : ∃ letter ∈ sent, letter.entry = entry :=
  List.mem_map.mp (accounts.balanced.subset (List.mem_append_right taken isPending))

theorem taken_sent (accounts : Accounts taken bus sent) {entry : Pending}
    (isTaken : entry ∈ taken) : ∃ letter ∈ sent, letter.entry = entry :=
  List.mem_map.mp (accounts.balanced.subset (List.mem_append_left bus.pending isTaken))

theorem sequence_lt (accounts : Accounts taken bus sent) {letter : Letter}
    (isSent : letter ∈ sent) : letter.sequence < bus.sent := by
  have isNumber := List.mem_map_of_mem (f := Letter.sequence) isSent
  rw [accounts.numbered] at isNumber
  exact List.mem_range.mp isNumber

theorem entries_nodup (accounts : Accounts taken bus sent) : (sent.map Letter.entry).Nodup := by
  have numbers : ((sent.map Letter.entry).map Pending.sequence).Nodup := by
    rw [List.map_map]
    change (sent.map Letter.sequence).Nodup
    rw [accounts.numbered]
    exact List.nodup_range
  exact List.Nodup.of_map Pending.sequence numbers

theorem once (accounts : Accounts taken bus sent) : (taken ++ bus.pending).Nodup :=
  accounts.balanced.nodup_iff.mpr accounts.entries_nodup

theorem send (accounts : Accounts taken bus sent) (message : Message) :
    Accounts taken (bus.send message) (sent ++ [bus.letter message]) := by
  constructor
  case ordered =>
    apply accounts.ordered.schedule
    intro other isPending
    obtain ⟨letter, isSent, entryEq⟩ := accounts.pending_sent isPending
    rw [← entryEq]
    exact accounts.sequence_lt isSent
  case numbered =>
    rw [List.map_append, accounts.numbered]
    exact List.range_succ.symm
  case balanced =>
    rw [send_pending, List.map_append, List.map_singleton, letter_entry]
    exact append_schedule_perm accounts.balanced _

theorem kept (taken : List Pending) : Kept (Accounts (η := η) taken) where
  send _ _ message accounts := accounts.send message
  same bus other sent accounts samePending sameSent := by
    constructor
    case ordered =>
      rw [samePending]
      exact accounts.ordered
    case numbered =>
      rw [sameSent]
      exact accounts.numbered
    case balanced =>
      rw [samePending]
      exact accounts.balanced

theorem take (accounts : Accounts taken bus sent) (isDue : Pending → Bool) :
    Accounts (taken ++ bus.pending.takeWhile isDue)
      { bus with pending := bus.pending.dropWhile isDue } sent where
  ordered := accounts.ordered.sublist (List.dropWhile_sublist isDue)
  numbered := accounts.numbered
  balanced := by
    change (_ ++ bus.pending.dropWhile isDue).Perm _
    rw [List.append_assoc, List.takeWhile_append_dropWhile]
    exact accounts.balanced

end Accounts

theorem pending_deliverAll {ω : Type} (behaviour : Behaviour η ω) (peer : Peer η ω)
    (due : List Pending) :
    (peer.deliverAll behaviour due).1.bus.pending.Perm
      (peer.bus.pending ++ (peer.replies behaviour due).map Letter.entry) := by
  have kept : Kept fun (bus : Bus η) sent =>
      bus.pending.Perm (peer.bus.pending ++ sent.map Letter.entry) := by
    constructor
    case send =>
      intro bus sent message waits
      rw [send_pending, List.map_append, List.map_singleton, letter_entry]
      rw [← List.append_assoc]
      have accounted : ([] ++ bus.pending).Perm (peer.bus.pending ++ sent.map Letter.entry) := waits
      exact append_schedule_perm accounted _
    case same =>
      intro bus other sent waits samePending sameSent
      rw [samePending]
      exact waits
  have initially : peer.bus.pending.Perm (peer.bus.pending ++ [].map Letter.entry) := by
    rw [List.map_nil, List.append_nil]
  exact kept.deliverAll behaviour initially due

/-- The handler that a message reaches: the one bound to its path, if it takes its arguments. -/
def handlerFor? (bus : Bus η) (message : Message) : Option η :=
  match bus.methods.find? message.path with
  | none => none
  | some method =>
      if method.signature.accepts message.arguments then some method.handler else none

end Bus

/-- What lies outside a bus, with the calls of its handlers so far. -/
structure Watched (η ω : Type) where
  outside : ω
  calls : List (η × Message)

/-- A behaviour whose calls are watched. -/
def watch {η ω : Type} (behaviour : Behaviour η ω) : Behaviour η (Watched η ω) :=
  fun handler message now watched =>
    let reaction := behaviour handler message now watched.outside
    { outside :=
        { outside := reaction.outside
          calls := watched.calls ++ [(handler, message)] }
      notices := reaction.notices
      requests := reaction.requests }

namespace Peer

variable {η ω : Type}

def callsFor (peer : Peer η ω) (message : Message) : List (η × Message) :=
  match peer.bus.handlerFor? message with
  | none => []
  | some handler => [(handler, message)]

theorem deliver_calls (behaviour : Behaviour η ω) (peer : Peer η (Watched η ω)) {message : Message}
    {frame : List UInt8} (decoded : Message.decode frame = .ok message) :
    (peer.deliver (watch behaviour) frame).1.outside.calls =
      peer.outside.calls ++ peer.callsFor message := by
  unfold deliver callsFor Bus.handlerFor?
  rw [peer.bus.judge_of_decoded decoded]
  cases peer.bus.methods.find? message.path with
  | none => exact (List.append_nil _).symm
  | some method =>
      by_cases takes : method.signature.accepts message.arguments = true
      · simp only [takes, if_true]
        rfl
      · simp only [takes]
        exact (List.append_nil _).symm

theorem deliverAll_counted (behaviour : Behaviour η ω) (peer : Peer η (Watched η ω))
    (due : List Pending) :
    (peer.deliverAll (watch behaviour) due).1.outside.calls.length =
      peer.outside.calls.length + handled (peer.deliverAll (watch behaviour) due).2 := by
  induction due generalizing peer with
  | nil => rfl
  | cons entry rest inductionHypothesis =>
      have later := inductionHypothesis (peer.deliver (watch behaviour) entry.frame).1
      have first : (peer.deliver (watch behaviour) entry.frame).1.outside.calls.length =
          peer.outside.calls.length +
            handled [(peer.deliver (watch behaviour) entry.frame).2] := by
        unfold deliver
        cases peer.bus.judge entry.frame with
        | undecodable cause => rfl
        | unknown message => rfl
        | refused message expected => rfl
        | accepted message handler => exact List.length_append
      have counted : handled (peer.deliverAll (watch behaviour) (entry :: rest)).2 =
          handled [(peer.deliver (watch behaviour) entry.frame).2] +
            handled ((peer.deliver (watch behaviour) entry.frame).1.deliverAll
              (watch behaviour) rest).2 := by
        change List.countP _ ([_] ++ _) = _
        exact List.countP_append
      change ((peer.deliver (watch behaviour) entry.frame).1.deliverAll
        (watch behaviour) rest).1.outside.calls.length = _
      omega

end Peer

structure Poll where
  now : Seconds
  batch : List Pending

/-- A peer, with all that was sent on its bus and all polls made so far. -/
structure Traffic (η ω : Type) where
  peer : Peer η ω
  sent : List Letter
  polls : List Poll

namespace Traffic

variable {η ω : Type}

def create (peerName : String) (clock : Seconds) (outside : ω) : Traffic η ω where
  peer := { bus := Bus.create peerName clock, outside := outside }
  sent := []
  polls := []

def taken (traffic : Traffic η ω) : List Pending :=
  traffic.polls.flatMap Poll.batch

def pollsIn (traffic : Traffic η ω) : PeerStep η → List Poll
  | .poll => [{ now := traffic.peer.bus.clock, batch := traffic.peer.dispatched .poll }]
  | _ => []

def advance (behaviour : Behaviour η ω) (traffic : Traffic η ω) (step : PeerStep η) :
    Traffic η ω where
  peer := traffic.peer.advance behaviour step
  sent := traffic.sent ++ traffic.peer.mail behaviour step
  polls := traffic.polls ++ traffic.pollsIn step

def run (behaviour : Behaviour η ω) (traffic : Traffic η ω) (steps : List (PeerStep η)) :
    Traffic η ω :=
  steps.foldl (advance behaviour) traffic

/-- A traffic whose clock showed a number whenever it was read, and whose messages are not longer
than counts of 64 bits can tell. -/
structure Regular (traffic : Traffic η ω) : Prop where
  sends : ∀ letter ∈ traffic.sent, letter.sentAt.isNaN = false
  polls : ∀ poll ∈ traffic.polls, poll.now.isNaN = false
  messages : ∀ letter ∈ traffic.sent, letter.message.Countable

theorem Regular.of_run {behaviour : Behaviour η ω} {traffic : Traffic η ω}
    {steps : List (PeerStep η)} (regular : (traffic.run behaviour steps).Regular) :
    traffic.Regular := by
  induction steps generalizing traffic with
  | nil => exact regular
  | cons step rest inductionHypothesis =>
      have advanced : (traffic.advance behaviour step).Regular := inductionHypothesis regular
      constructor
      · exact fun letter isSent => advanced.sends letter (List.mem_append_left _ isSent)
      · exact fun poll isMade => advanced.polls poll (List.mem_append_left _ isMade)
      · exact fun letter isSent => advanced.messages letter (List.mem_append_left _ isSent)

/-! ### The invariant -/

/-- All frames are accounted for, and polls took none before its time. -/
structure Settled (traffic : Traffic η ω) : Prop where
  accounts : Bus.Accounts traffic.taken traffic.peer.bus traffic.sent
  prompt : ∀ poll ∈ traffic.polls, ∀ entry ∈ poll.batch, Bus.isDue poll.now entry = true

namespace Settled

variable {traffic : Traffic η ω}

theorem taken_advance (behaviour : Behaviour η ω) (traffic : Traffic η ω) (step : PeerStep η) :
    (traffic.advance behaviour step).taken = traffic.taken ++ traffic.peer.dispatched step := by
  unfold taken
  change (traffic.polls ++ traffic.pollsIn step).flatMap Poll.batch = _
  rw [List.flatMap_append]
  cases step with
  | poll => exact congrArg (_ ++ ·) (List.append_nil _)
  | _ => rfl

theorem advance (settled : traffic.Settled) (behaviour : Behaviour η ω) (step : PeerStep η) :
    (traffic.advance behaviour step).Settled := by
  constructor
  case accounts =>
    rw [taken_advance]
    have takes : ∀ (bus : Bus η) (sent : List Letter) (taken : List Pending),
        Bus.Accounts taken bus sent →
          Bus.Accounts (taken ++ bus.pending.takeWhile (Bus.isDue bus.clock))
            { bus with pending := bus.pending.dropWhile (Bus.isDue bus.clock) } sent :=
      fun _ _ _ accounts => accounts.take _
    exact Bus.Kept.advance Bus.Accounts.kept takes behaviour traffic.sent settled.accounts step
  case prompt =>
    intro poll isMade
    rcases List.mem_append.mp isMade with wasMade | isNew
    · exact settled.prompt poll wasMade
    · cases step with
      | poll =>
          rw [List.mem_singleton.mp isNew]
          exact fun entry isTaken => List.all_eq_true.mp List.all_takeWhile entry isTaken
      | _ => cases isNew

theorem run (settled : traffic.Settled) (behaviour : Behaviour η ω) (steps : List (PeerStep η)) :
    (traffic.run behaviour steps).Settled := by
  induction steps generalizing traffic with
  | nil => exact settled
  | cons step rest inductionHypothesis =>
      exact inductionHypothesis (settled.advance behaviour step)

theorem create (peerName : String) (clock : Seconds) (outside : ω) :
    (Traffic.create (η := η) peerName clock outside).Settled where
  accounts := Bus.Accounts.create peerName clock
  prompt := by
    intro poll isMade
    cases isMade

end Settled

theorem mem_taken {traffic : Traffic η ω} {poll : Poll} (isMade : poll ∈ traffic.polls)
    {entry : Pending} (isTaken : entry ∈ poll.batch) : entry ∈ traffic.taken :=
  List.mem_flatMap.mpr ⟨poll, isMade, isTaken⟩

theorem Settled.taken_due {traffic : Traffic η ω} (settled : traffic.Settled)
    (regular : traffic.Regular) {poll : Poll} (isMade : poll ∈ traffic.polls) {entry : Pending}
    (isTaken : entry ∈ poll.batch) : entry.due.atMost poll.now = true := by
  obtain ⟨letter, isSent, entryEq⟩ := settled.accounts.taken_sent (mem_taken isMade isTaken)
  have dueNumber : entry.due.isNaN = false := by
    rw [← entryEq]
    exact Letter.deadline_number (regular.sends letter isSent)
  exact (Bus.isDue_iff (regular.polls poll isMade) dueNumber).mp
    (settled.prompt poll isMade entry isTaken)

/-! ### Polls -/

/-- What a poll does.  It takes the letters of `batch`, which are those that wait and are due, in
the order of their deadlines, those with one deadline in the order of sending.  Every frame holds
the message that was sent, and each message is brought to the handler that it reaches when its
turn comes.  What handlers send waits with the rest. -/
structure Keeps (behaviour : Behaviour η ω) (traffic : Traffic η (Watched η ω))
    (batch : List Letter) : Prop where
  due : ∀ letter, letter ∈ batch ↔
    letter ∈ traffic.sent ∧ letter.entry ∈ traffic.peer.bus.pending ∧
      letter.deadline.atMost traffic.peer.bus.clock = true
  inOrder : batch.Pairwise fun first second => first.entry.isBefore second.entry = true
  polled : traffic.peer.poll (watch behaviour) =
    traffic.peer.relieved.deliverAll (watch behaviour) (batch.map Letter.entry)
  decoded : ∀ letter ∈ batch, Message.decode letter.entry.frame = .ok letter.message
  called : ∀ earlier letter later, batch = earlier ++ letter :: later →
    let during :=
      (traffic.peer.relieved.deliverAll (watch behaviour) (earlier.map Letter.entry)).1
    (during.deliver (watch behaviour) letter.entry.frame).1.outside.calls =
      during.outside.calls ++ during.callsFor letter.message
  counted : (traffic.peer.poll (watch behaviour)).1.outside.calls.length =
    traffic.peer.outside.calls.length + Peer.handled (traffic.peer.poll (watch behaviour)).2
  waiting : (traffic.peer.poll (watch behaviour)).1.bus.pending.Perm
    (traffic.peer.bus.pending.filter
        (fun entry => !entry.due.atMost traffic.peer.bus.clock) ++
      (traffic.peer.mail (watch behaviour) .poll).map Letter.entry)

theorem exists_letters {sent : List Letter} (entries : List Pending)
    (fromSent : ∀ entry ∈ entries, ∃ letter ∈ sent, letter.entry = entry) :
    ∃ letters : List Letter, letters.map Letter.entry = entries ∧
      ∀ letter ∈ letters, letter ∈ sent := by
  induction entries with
  | nil => exact ⟨[], rfl, fun _ isMember => absurd isMember List.not_mem_nil⟩
  | cons entry rest inductionHypothesis =>
      obtain ⟨letter, isSent, entryEq⟩ := fromSent entry List.mem_cons_self
      obtain ⟨letters, restEq, allSent⟩ := inductionHypothesis
        fun other isMember => fromSent other (List.mem_cons_of_mem entry isMember)
      refine ⟨letter :: letters, ?_, ?_⟩
      · rw [List.map_cons, entryEq, restEq]
      · intro other isMember
        rcases List.mem_cons.mp isMember with isFirst | isLater
        · rw [isFirst]
          exact isSent
        · exact allSent other isLater

theorem Settled.keeps {behaviour : Behaviour η ω} {traffic : Traffic η (Watched η ω)}
    (settled : traffic.Settled) (regular : traffic.Regular)
    (clock : traffic.peer.bus.clock.isNaN = false) : ∃ batch, traffic.Keeps behaviour batch := by
  have numbers : ∀ entry ∈ traffic.peer.bus.pending, entry.due.isNaN = false := by
    intro entry isPending
    obtain ⟨letter, isSent, entryEq⟩ := settled.accounts.pending_sent isPending
    rw [← entryEq]
    exact Letter.deadline_number (regular.sends letter isSent)
  have isDueIff : ∀ entry ∈ traffic.peer.bus.pending,
      Bus.isDue traffic.peer.bus.clock entry = entry.due.atMost traffic.peer.bus.clock :=
    fun entry isPending => Bool.eq_iff_iff.mpr (Bus.isDue_iff clock (numbers entry isPending))
  obtain ⟨takenEq, leftEq⟩ := settled.accounts.ordered.due_eq numbers traffic.peer.bus.clock
  rw [List.filter_congr isDueIff] at takenEq
  rw [List.filter_congr fun entry isPending => congrArg Bool.not (isDueIff entry isPending)]
    at leftEq
  obtain ⟨batch, batchEq, batchSent⟩ := exists_letters (traffic.peer.dispatched .poll)
    fun entry isTaken =>
      settled.accounts.pending_sent ((List.takeWhile_sublist _).subset isTaken)
  have polled : traffic.peer.poll (watch behaviour) =
      traffic.peer.relieved.deliverAll (watch behaviour) (batch.map Letter.entry) := by
    rw [batchEq]
    rfl
  have decoded : ∀ letter ∈ batch, Message.decode letter.entry.frame = .ok letter.message :=
    fun letter isTaken =>
      Message.decode_encode (regular.messages letter (batchSent letter isTaken))
  change batch.map Letter.entry = traffic.peer.bus.pending.takeWhile _ at batchEq
  refine ⟨batch, ?_⟩
  constructor
  case due =>
    intro letter
    constructor
    · intro isTaken
      have isEntry := List.mem_map_of_mem (f := Letter.entry) isTaken
      rw [batchEq, takenEq] at isEntry
      exact ⟨batchSent letter isTaken, List.mem_filter.mp isEntry⟩
    · rintro ⟨isSent, isWaiting⟩
      have isEntry : letter.entry ∈ traffic.peer.bus.pending.filter fun entry =>
          entry.due.atMost traffic.peer.bus.clock := List.mem_filter.mpr isWaiting
      rw [← takenEq, ← batchEq] at isEntry
      obtain ⟨other, isTaken, sameEntry⟩ := List.mem_map.mp isEntry
      have same := List.inj_on_of_nodup_map settled.accounts.entries_nodup
        (batchSent other isTaken) isSent sameEntry
      rw [← same]
      exact isTaken
  case inOrder =>
    have ordered : Ordered (batch.map Letter.entry) := by
      rw [batchEq]
      exact settled.accounts.ordered.sublist (List.takeWhile_sublist _)
    exact List.pairwise_map.mp ordered
  case polled => exact polled
  case decoded => exact decoded
  case called =>
    intro earlier letter later split
    apply Peer.deliver_calls
    apply decoded
    rw [split]
    exact List.mem_append_right _ List.mem_cons_self
  case counted =>
    rw [polled]
    exact Peer.deliverAll_counted behaviour traffic.peer.relieved _
  case waiting =>
    rw [← leftEq]
    exact Bus.pending_deliverAll (watch behaviour) traffic.peer.relieved _

/-- Whatever is done on a new bus, every message sent either waits or was taken once, by a poll
that found it due, and every poll keeps the contract. -/
theorem keeps_contract (behaviour : Behaviour η ω) (peerName : String) (clock : Seconds)
    (outside : ω) (steps : List (PeerStep η)) :
    let start : Traffic η (Watched η ω) :=
      create peerName clock { outside := outside, calls := [] }
    let last := start.run (watch behaviour) steps
    last.Regular →
      last.sent.map Letter.sequence = List.range last.peer.bus.sent ∧
      (last.taken ++ last.peer.bus.pending).Perm (last.sent.map Letter.entry) ∧
      (last.taken ++ last.peer.bus.pending).Nodup ∧
      (∀ poll ∈ last.polls, ∀ entry ∈ poll.batch, entry.due.atMost poll.now = true) ∧
      ∀ before after, steps = before ++ .poll :: after →
        ∃ batch, (start.run (watch behaviour) before).Keeps behaviour batch := by
  intro start last regular
  have settled : last.Settled := (Settled.create peerName clock _).run (watch behaviour) steps
  refine ⟨settled.accounts.numbered, settled.accounts.balanced, settled.accounts.once, ?_, ?_⟩
  · intro poll isMade entry isTaken
    exact settled.taken_due regular isMade isTaken
  · intro before after split
    have lastEq : last = ((start.run (watch behaviour) before).advance (watch behaviour) .poll).run
        (watch behaviour) after := by
      change List.foldl _ _ steps = _
      rw [split, List.foldl_append]
      rfl
    rw [lastEq] at regular
    have polledRegular : ((start.run (watch behaviour) before).run (watch behaviour)
        [.poll]).Regular := regular.of_run
    have clockShown : (start.run (watch behaviour) before).peer.bus.clock.isNaN = false :=
      polledRegular.polls _ (List.mem_append_right _ (List.mem_singleton_self _))
    have beforeRegular : (start.run (watch behaviour) before).Regular := polledRegular.of_run
    exact ((Settled.create peerName clock _).run (watch behaviour) before).keeps beforeRegular
      clockShown

/-- A relaying handler sends a message on and unbinds the method that would get it. -/
def relayBehaviour : Behaviour Bool Unit :=
  fun relays _ _ outside =>
    { outside := outside
      notices := []
      requests :=
        if relays then
          [.send { timestamp := Binary.zero, path := "mixer/quiet", arguments := [] },
            .unbind "mixer/quiet"]
        else [] }

/-- The relay unbinds the other method before that gets the message behind.  Once it is bound again
it gets the message sent on and the one that was due later. -/
def relaySteps : List (PeerStep Bool) :=
  [.request (.bind "mixer/relay" { kinds := [] } true),
    .request (.bind "mixer/quiet" { kinds := [] } false),
    .request (.send
      { timestamp := Binary.ofBits 0x4049000000000000, path := "mixer/quiet", arguments := [] }),
    .request (.send { timestamp := Binary.zero, path := "mixer/relay", arguments := [] }),
    .request (.send { timestamp := Binary.zero, path := "mixer/quiet", arguments := [] }),
    .poll, .setClock (Binary.ofBits 0x4059000000000000),
    .request (.bind "mixer/quiet" { kinds := [] } false), .poll]

def relayStart : Traffic Bool (Watched Bool Unit) :=
  create "peer" Binary.zero { outside := (), calls := [] }

theorem relaySteps_keep_contract :
    let last := relayStart.run (watch relayBehaviour) relaySteps
    last.peer.outside.calls.map Prod.fst = [true, false, false] ∧
      last.polls.map (fun poll => poll.batch.map Pending.sequence) = [[1, 2], [3, 0]] ∧
      (last.taken ++ last.peer.bus.pending).Perm (last.sent.map Letter.entry) ∧
      ∃ batch, (relayStart.run (watch relayBehaviour) (relaySteps.take 5)).Keeps relayBehaviour
        batch := by
  have regular : (relayStart.run (watch relayBehaviour) relaySteps).Regular := by
    constructor
    case sends => decide +kernel
    case polls => decide +kernel
    case messages => decide +kernel
  obtain ⟨_, balanced, _, _, keeps⟩ :=
    keeps_contract relayBehaviour "peer" Binary.zero () relaySteps regular
  refine ⟨?_, ?_, balanced, keeps (relaySteps.take 5) (relaySteps.drop 6) rfl⟩
  · decide +kernel
  · decide +kernel

end Traffic

end AudioBus
