import AudioBus.Proofs.Binary.Rounding
import AudioBus.Proofs.Bus.Fifo
import AudioBus.Proofs.Transmitter.Run

/-!
A transmitter on the bus of a process, among others who use that bus: whatever it asks for, its
events are delivered in the order in which it sent them.

The bus delivers by due time.  An event that asks for an earlier time than one still waiting is
held back to the time of that one, and one that asks for none is due when it is sent.
-/

namespace AudioBus

/-- A timestamp is timely if a message that carries it is not due in the past. -/
def Timely (now timestamp : Seconds) : Prop :=
  Binary.zero.less timestamp = true → now.orderKey ≤ timestamp.orderKey

theorem Timely.now_le_due {now timestamp : Seconds} (timely : Timely now timestamp) :
    now.orderKey ≤ (dueAt now timestamp).orderKey := by
  by_cases positive : Binary.zero.less timestamp = true
  · have dueEq : dueAt now timestamp = timestamp := if_pos positive
    rw [dueEq]
    exact timely positive
  · have dueEq : dueAt now timestamp = now := if_neg positive
    exact Int.le_of_eq (congrArg Binary.orderKey dueEq.symm)

namespace Transmitter

/-- No event still waiting is due after this place in time. -/
def frontier (transmitter : Transmitter) (now : Seconds) : Int :=
  if Binary.zero.less transmitter.lastDeadline then
    max now.orderKey transmitter.lastDeadline.orderKey
  else now.orderKey

theorem frontier_mono (transmitter : Transmitter) {now later : Seconds}
    (le : now.orderKey ≤ later.orderKey) :
    transmitter.frontier now ≤ transmitter.frontier later := by
  unfold frontier
  split <;> omega

theorem frontier_eq_now (transmitter : Transmitter) {now : Seconds} (number : now.isNaN = false)
    (nothingWaits : now.less transmitter.lastDeadline = false) :
    transmitter.frontier now = now.orderKey := by
  unfold frontier
  by_cases positive : Binary.zero.less transmitter.lastDeadline = true
  · rw [if_pos positive]
    obtain ⟨zeroNumber, lastNumber, lastPos⟩ := Binary.less_iff.mp positive
    have lastLe := Binary.rank_le_of_not_less number lastNumber nothingWaits
    have nowPositive : Binary.zero.less now = true :=
      Binary.less_iff.mpr ⟨zeroNumber, number, Int.lt_of_lt_of_le lastPos lastLe⟩
    rw [Binary.orderKey_of_pos positive, Binary.orderKey_of_pos nowPositive]
    omega
  · rw [if_neg positive]

theorem frontier_le_due (transmitter : Transmitter) {now timestamp : Seconds}
    (number : now.isNaN = false) (timely : Timely now timestamp) :
    transmitter.frontier now ≤
      (dueAt now (transmitter.holdBack now timestamp)).orderKey := by
  unfold holdBack
  by_cases waits : now.less transmitter.lastDeadline = true
  · -- The latest event may still wait: the next one is held back to its time.
    rw [if_pos waits]
    obtain ⟨_, lastNumber, nowLt⟩ := Binary.less_iff.mp waits
    obtain ⟨heldNumber, lastLe⟩ := Binary.rank_le_rank_larger timestamp lastNumber
    have nowLess : now.less (timestamp.larger transmitter.lastDeadline) = true :=
      Binary.less_iff.mpr ⟨number, heldNumber, Int.lt_of_lt_of_le nowLt lastLe⟩
    have heldTimely : Timely now (timestamp.larger transmitter.lastDeadline) :=
      fun _ => Int.le_of_lt (Binary.orderKey_lt_of_less nowLess)
    have nowLe := heldTimely.now_le_due
    unfold frontier
    by_cases positive : Binary.zero.less transmitter.lastDeadline = true
    · obtain ⟨zeroNumber, _, lastPos⟩ := Binary.less_iff.mp positive
      have heldPositive :
          Binary.zero.less (timestamp.larger transmitter.lastDeadline) = true :=
        Binary.less_iff.mpr ⟨zeroNumber, heldNumber, Int.lt_of_lt_of_le lastPos lastLe⟩
      unfold dueAt at nowLe ⊢
      rw [if_pos heldPositive] at nowLe ⊢
      rw [if_pos positive, Binary.orderKey_of_pos positive]
      rw [Binary.orderKey_of_pos heldPositive] at nowLe ⊢
      omega
    · rw [if_neg positive]
      exact nowLe
  · -- Nothing waits: the frontier is the present, and no timestamp of its own is behind that.
    rw [if_neg waits, transmitter.frontier_eq_now number (Bool.not_eq_true _ |>.mp waits)]
    exact timely.now_le_due

theorem due_le_frontier (transmitter : Transmitter) (now : Seconds) :
    (dueAt now transmitter.lastDeadline).orderKey ≤ transmitter.frontier now := by
  unfold dueAt frontier
  split
  · exact Int.le_max_right _ _
  · exact Int.le_refl _

theorem deadline_timely (transmitter : Transmitter) {now : Seconds} (time : Seconds)
    (number : now.isNaN = false)
    (usable : TransmitterConfig.isUsableDuration transmitter.config.immediateCutoff = true) :
    Timely now (transmitter.deadline now time) := by
  intro positive
  obtain ⟨finite, nonneg⟩ := Bool.and_eq_true _ _ |>.mp usable
  obtain ⟨sumNumber, nowLe⟩ := Binary.rank_le_rank_add number finite nonneg
  unfold deadline at positive ⊢
  simp only at positive ⊢
  by_cases soon :
      (time - transmitter.config.transmitAhead).less
        (now + transmitter.config.immediateCutoff) = true
  · rw [if_pos soon] at positive
    obtain ⟨_, _, impossible⟩ := Binary.less_iff.mp positive
    exact absurd impossible (Int.lt_irrefl _)
  · rw [if_neg soon] at positive ⊢
    have targetNumber := (Binary.less_iff.mp positive).2.1
    have sumLe := Binary.rank_le_of_not_less targetNumber sumNumber
      (Bool.not_eq_true _ |>.mp soon)
    rw [Binary.orderKey_of_pos positive]
    have keyLe := Binary.orderKey_le_rank now
    omega

end Transmitter

theorem TransmitterConfig.cutoff_usable_of_validate (config : TransmitterConfig)
    (validated : config.validate = .ok ()) :
    isUsableDuration config.immediateCutoff = true := by
  unfold validate at validated
  split at validated
  · contradiction
  · split at validated
    · contradiction
    · rename_i usable
      cases outcome : isUsableDuration config.immediateCutoff with
      | true => rfl
      | false => exact absurd (by rw [outcome]; rfl) usable

/-! ### Sending in order -/

def Occurrence.entry? {η : Type} : Occurrence (Bus η) → Option Pending
  | .sent sender timestamp event => some (sender.link.entry (sender.message timestamp event))
  | .restartRefused _ => none

namespace Sender

variable {η : Type}

theorem Move.balanced {sender next : Sender (Bus η)} {happened : List (Occurrence (Bus η))}
    (move : Move sender happened next) {taken posted : List Pending}
    (balanced : (taken ++ sender.link.pending).Perm posted) :
    (taken ++ next.link.pending).Perm (posted ++ happened.filterMap Occurrence.entry?) := by
  have unmoved : (taken ++ sender.link.pending).Perm (posted ++ []) := by
    rw [List.append_nil]
    exact balanced
  have accepted {speaker : Sender (Bus η)} {timestamp : Seconds} {event : StreamEvent}
      {link : Bus η} (same : speaker.link = sender.link)
      (isTaken : Link.send sender.link (speaker.message timestamp event) = .ok link) :
      (taken ++ link.pending).Perm
        (posted ++ [speaker.link.entry (speaker.message timestamp event)]) := by
    rw [same]
    cases isTaken
    exact append_schedule_perm balanced _
  cases move with
  | looked | noted | begun | led | refused => exact unmoved
  | awaited link seen =>
      rw [Bus.eq_of_awaitSynchronized seen]
      exact unmoved
  | declared link timed isTaken => exact accepted rfl isTaken
  | restarted time link timed isTaken => exact accepted rfl isTaken
  | delivered block link isOpen nonempty isTaken => exact accepted rfl isTaken
  | ended link isOpen notClosed isTaken => exact accepted rfl isTaken

/-- A call adds to the frames that wait those of the events that it sends, and no others. -/
theorem perform_balanced (sender : Sender (Bus η)) (call : TransmitterCall)
    {taken posted : List Pending} (balanced : (taken ++ sender.link.pending).Perm posted) :
    (taken ++ (sender.perform call).link.pending).Perm
      (posted ++ (sender.history call).filterMap Occurrence.entry?) := by
  have moveKeeps (posted : List Pending) (sender : Sender (Bus η))
      (happened : List (Occurrence (Bus η))) (next : Sender (Bus η))
      (held : (taken ++ sender.link.pending).Perm posted) (move : Move sender happened next) :
      (taken ++ next.link.pending).Perm (posted ++ happened.filterMap Occurrence.entry?) :=
    move.balanced held
  exact perform_preserves moveKeeps sender call balanced

theorem closeTimestamp_timely (sender : Sender (Bus η)) :
    Timely sender.link.clock sender.closeTimestamp := by
  intro positive
  unfold closeTimestamp at positive ⊢
  simp only at positive ⊢
  by_cases ahead : sender.now.less sender.transmitter.streamTime = true
  · rw [if_pos ahead]
    exact Int.le_of_lt (Binary.orderKey_lt_of_less ahead)
  · rw [if_neg ahead] at positive
    obtain ⟨_, _, impossible⟩ := Binary.less_iff.mp positive
    exact absurd impossible (Int.lt_irrefl _)

/-- The frames a sender posted are delivered in order, and none that waits is due after the
frontier. -/
structure Orderly (sender : Sender (Bus η)) (posted taken : List Pending) : Prop where
  inOrder : sender.link.InOrder posted taken (sender.transmitter.frontier sender.link.clock)
  clockNumber : sender.link.clock.isNaN = false
  cutoffUsable :
    TransmitterConfig.isUsableDuration sender.transmitter.config.immediateCutoff = true

namespace Orderly

variable {sender : Sender (Bus η)} {posted taken : List Pending}

theorem aheadTimestamp_timely (orderly : sender.Orderly posted taken) :
    Timely sender.link.clock sender.aheadTimestamp :=
  sender.transmitter.deadline_timely _ orderly.clockNumber orderly.cutoffUsable

theorem accept (orderly : sender.Orderly posted taken) {timestamp : Seconds} {event : StreamEvent}
    {link : Bus η} (timely : Timely sender.link.clock timestamp)
    (isTaken : Link.send sender.link (sender.message timestamp event) = .ok link) :
    (sender.accepted timestamp link).Orderly
      (posted ++ [sender.link.entry (sender.message timestamp event)]) taken := by
  cases isTaken
  have dueEq : sender.link.dueTime (sender.message timestamp event) =
      dueAt sender.link.clock (sender.transmitter.holdBack sender.link.clock timestamp) :=
    sender.link.dueTime_eq _
  have notBefore := sender.transmitter.frontier_le_due orderly.clockNumber timely
  rw [← dueEq] at notBefore
  have sent := orderly.inOrder.send_own _ notBefore
  rw [dueEq] at sent
  have within := (sender.accepted timestamp sender.link).transmitter.due_le_frontier
    sender.link.clock
  exact ⟨sent.mono within, orderly.clockNumber, orderly.cutoffUsable⟩

theorem move (orderly : sender.Orderly posted taken) {next : Sender (Bus η)}
    {happened : List (Occurrence (Bus η))} (move : Move sender happened next) :
    next.Orderly (posted ++ happened.filterMap Occurrence.entry?) taken := by
  have unmoved : sender.Orderly (posted ++ []) taken := by
    rw [List.append_nil]
    exact orderly
  cases move with
  | looked => exact unmoved
  | awaited link seen =>
      rw [Bus.eq_of_awaitSynchronized seen]
      exact unmoved
  | noted notice => exact ⟨unmoved.inOrder.note notice, unmoved.clockNumber, unmoved.cutoffUsable⟩
  | begun timeless => exact ⟨unmoved.inOrder, unmoved.clockNumber, unmoved.cutoffUsable⟩
  | led length => exact ⟨unmoved.inOrder, unmoved.clockNumber, unmoved.cutoffUsable⟩
  | declared link timed isTaken =>
      have accepted := orderly.accept orderly.aheadTimestamp_timely isTaken
      exact ⟨accepted.inOrder, accepted.clockNumber, accepted.cutoffUsable⟩
  | restarted time link timed isTaken =>
      have restarted : (sender.restart time).Orderly posted taken :=
        ⟨orderly.inOrder, orderly.clockNumber, orderly.cutoffUsable⟩
      have accepted := restarted.accept restarted.aheadTimestamp_timely isTaken
      exact ⟨accepted.inOrder, accepted.clockNumber, accepted.cutoffUsable⟩
  | refused time timed => exact ⟨unmoved.inOrder, unmoved.clockNumber, unmoved.cutoffUsable⟩
  | delivered block link isOpen nonempty isTaken =>
      have accepted := orderly.accept orderly.aheadTimestamp_timely isTaken
      exact ⟨accepted.inOrder, accepted.clockNumber, accepted.cutoffUsable⟩
  | ended link isOpen notClosed isTaken =>
      have accepted := orderly.accept sender.closeTimestamp_timely isTaken
      exact ⟨accepted.inOrder, accepted.clockNumber, accepted.cutoffUsable⟩

theorem perform (orderly : sender.Orderly posted taken) (call : TransmitterCall) :
    (sender.perform call).Orderly
      (posted ++ (sender.history call).filterMap Occurrence.entry?) taken := by
  have moveKeeps (posted : List Pending) (sender : Sender (Bus η))
      (happened : List (Occurrence (Bus η))) (next : Sender (Bus η))
      (held : sender.Orderly posted taken) (move : Move sender happened next) :
      next.Orderly (posted ++ happened.filterMap Occurrence.entry?) taken :=
    held.move move
  exact perform_preserves moveKeeps sender call orderly

end Orderly

theorem perform_kept {holds : Bus η → Prop} (kept : Bus.Kept fun bus _ => holds bus)
    (sender : Sender (Bus η)) (call : TransmitterCall) (initially : holds sender.link) :
    holds (sender.perform call).link := by
  have moveKeeps : ∀ (past : List (Occurrence (Bus η))) (sender : Sender (Bus η))
      (happened : List (Occurrence (Bus η))) (next : Sender (Bus η)),
      holds sender.link → Move sender happened next → holds next.link := by
    intro _ sender _ _ held move
    have taken {message : Message} {link : Bus η}
        (isTaken : Link.send sender.link message = .ok link) : holds link := by
      cases isTaken
      exact kept.send sender.link [] message held
    cases move with
    | looked => exact held
    | awaited link seen =>
        rw [Bus.eq_of_awaitSynchronized seen]
        exact held
    | noted notice => exact kept.same _ _ [] held rfl rfl
    | begun timeless => exact held
    | led length => exact held
    | declared link timed isTaken => exact taken isTaken
    | restarted time link timed isTaken => exact taken isTaken
    | refused time timed => exact held
    | delivered block link isOpen nonempty isTaken => exact taken isTaken
    | ended link isOpen notClosed isTaken => exact taken isTaken
  exact (sender.path_perform call).preserves moveKeeps [] initially

end Sender

/-! ### Sessions -/

/-- A transmitter on the bus of a process, and what lies outside that bus.  `posted` are the
frames of the transmitter's events, in the order of sending; `taken` are all frames, of any sender,
that polls have taken off the schedule, in the order of delivery. -/
structure Session (η ω : Type) where
  sender : Sender (Bus η)
  outside : ω
  posted : List Pending
  taken : List Pending

inductive SessionStep (η : Type) where
  | call (call : TransmitterCall)
  | others (step : PeerStep η)

namespace Session

variable {η ω : Type}

def start (sender : Sender (Bus η)) (outside : ω) : Session η ω where
  sender := sender
  outside := outside
  posted := []
  taken := []

def peer (session : Session η ω) : Peer η ω where
  bus := session.sender.link
  outside := session.outside

def clock (session : Session η ω) : Seconds := session.sender.link.clock

def advance (behaviour : Behaviour η ω) (session : Session η ω) :
    SessionStep η → Session η ω
  | .call call =>
      { session with
        sender := session.sender.perform call
        posted :=
          session.posted ++ (session.sender.history call).filterMap Occurrence.entry? }
  | .others step =>
      { session with
        sender := { session.sender with link := (session.peer.advance behaviour step).bus }
        outside := (session.peer.advance behaviour step).outside
        taken := session.taken ++ session.peer.dispatched step }

def run (behaviour : Behaviour η ω) (session : Session η ω) (steps : List (SessionStep η)) :
    Session η ω :=
  steps.foldl (advance behaviour) session

/-- Whether the clock, as others leave it, shows a number and never an earlier one than before. -/
def ClockSteady (behaviour : Behaviour η ω) (session : Session η ω) :
    List (SessionStep η) → Prop
  | [] => True
  | .call call :: rest => (session.advance behaviour (.call call)).ClockSteady behaviour rest
  | .others step :: rest =>
      (session.advance behaviour (.others step)).clock.isNaN = false ∧
        session.clock.orderKey ≤ (session.advance behaviour (.others step)).clock.orderKey ∧
          (session.advance behaviour (.others step)).ClockSteady behaviour rest

instance decidableClockSteady (behaviour : Behaviour η ω) :
    (session : Session η ω) → (steps : List (SessionStep η)) →
      Decidable (session.ClockSteady behaviour steps)
  | _, [] => inferInstanceAs (Decidable True)
  | session, .call call :: rest =>
      decidableClockSteady behaviour (session.advance behaviour (.call call)) rest
  | session, .others step :: rest =>
      have _restDecidable :=
        decidableClockSteady behaviour (session.advance behaviour (.others step)) rest
      inferInstanceAs (Decidable (_ ∧ _ ∧ _))

def Orderly (session : Session η ω) : Prop :=
  session.sender.Orderly session.posted session.taken

theorem orderly_call (behaviour : Behaviour η ω) {session : Session η ω}
    (call : TransmitterCall) (orderly : session.Orderly) :
    (session.advance behaviour (.call call)).Orderly :=
  Sender.Orderly.perform orderly call

theorem orderly_others (behaviour : Behaviour η ω) {session : Session η ω}
    (step : PeerStep η) (orderly : session.Orderly)
    (number : (session.advance behaviour (.others step)).clock.isNaN = false)
    (onward :
      session.clock.orderKey ≤ (session.advance behaviour (.others step)).clock.orderKey) :
    (session.advance behaviour (.others step)).Orderly := by
  have others : (session.peer.advance behaviour step).bus.InOrder session.posted
      (session.taken ++ session.peer.dispatched step)
      (session.sender.transmitter.frontier session.clock) :=
    Peer.advance_inOrder behaviour step orderly.inOrder
  exact ⟨others.mono (session.sender.transmitter.frontier_mono onward), number,
    orderly.cutoffUsable⟩

theorem orderly_run (behaviour : Behaviour η ω) (session : Session η ω)
    (steps : List (SessionStep η)) (orderly : session.Orderly)
    (steady : session.ClockSteady behaviour steps) : (session.run behaviour steps).Orderly := by
  induction steps generalizing session with
  | nil => exact orderly
  | cons step rest inductionHypothesis =>
      cases step with
      | call call => exact inductionHypothesis _ (orderly_call behaviour call orderly) steady
      | others step =>
          obtain ⟨number, onward, restSteady⟩ := steady
          exact inductionHypothesis _ (orderly_others behaviour step orderly number onward)
            restSteady

theorem orderly_start {bus : Bus η} {id : StreamId} {service endpoint : String}
    {config : TransmitterConfig} {sender : Sender (Bus η)}
    (created : Sender.create bus id service endpoint config = .ok sender) (outside : ω)
    (inOrder : bus.InOrder [] [] bus.clock.orderKey) (number : bus.clock.isNaN = false) :
    (start sender outside).Orderly := by
  obtain ⟨validated, client, senderEq⟩ := Sender.create_ok created
  rw [senderEq]
  exact ⟨inOrder.note _, number, config.cutoff_usable_of_validate validated⟩

/-- The events taken for delivery are the first ones sent, in the order of sending, and all others
are still waiting.  What any further call posts is what it adds to the frames that wait. -/
structure DeliversInOrder (behaviour : Behaviour η ω) (session : Session η ω) : Prop where
  inOrder : session.taken.filter (· ∈ session.posted) <+: session.posted
  complete : ∀ entry ∈ session.posted,
    entry ∈ session.taken ∨ entry ∈ session.sender.link.pending
  posts : ∀ call,
    let next := session.advance behaviour (.call call)
    next.taken = session.taken ∧ ∃ further, next.posted = session.posted ++ further ∧
      next.sender.link.pending.Perm (session.sender.link.pending ++ further)

/-- On a bus where anything was done before, whatever is called of a transmitter and whatever
others do, events are delivered in the order in which they were sent. -/
theorem delivers_in_order (behaviour : Behaviour η ω) {peer : Peer η ω}
    (reached : peer.Reached behaviour) {id : StreamId} {service endpoint : String}
    {config : TransmitterConfig} {sender : Sender (Bus η)}
    (created : Sender.create peer.bus id service endpoint config = .ok sender)
    (number : peer.bus.clock.isNaN = false) (steps : List (SessionStep η))
    (steady : (start sender peer.outside).ClockSteady behaviour steps) :
    ((start sender peer.outside).run behaviour steps).DeliversInOrder behaviour := by
  obtain ⟨taken, inOrder⟩ := reached.inOrder peer.bus.clock.orderKey
  have started := orderly_start created peer.outside inOrder.forget_taken number
  have orderly := orderly_run behaviour _ steps started steady
  constructor
  case inOrder => exact orderly.inOrder.taken_prefix
  case complete => exact fun entry isPosted => orderly.inOrder.taken_or_pending isPosted
  case posts =>
    intro call next
    exact ⟨rfl, _, rfl, Sender.perform_balanced _ call (List.Perm.refl ([] ++ _))⟩

def deafBehaviour : Behaviour Unit Unit :=
  fun _ _ _ outside => { outside := outside, notices := [], requests := [] }

def mixingPeer : Peer Unit Unit :=
  (Peer.advance deafBehaviour
    { bus := Bus.create "peer" (Binary.ofBits 0x4059000000000000), outside := () }
    (.acquire "mixer")).advance deafBehaviour (.synchronize true)

theorem mixingPeer_reached : mixingPeer.Reached deafBehaviour :=
  .step _ (.step _ (.created _ _ _))

def mixingSender : Sender (Bus Unit) := Sender.freshSender Sender.promptConfig mixingPeer.bus

/-- A block goes out at 100 s and another sender's frame after it, both are taken, and a restart
at 50 s follows. -/
def backwardSteps : List (SessionStep Unit) :=
  [.call (.push [Binary.zero]),
    .others (.request
      (.send { timestamp := Binary.zero, path := "mixer/0/push", arguments := [] })),
    .others .poll, .others (.setClock (Binary.ofBits 0x4059400000000000)),
    .call (.setStreamTime (Binary.ofBits 0x4049000000000000))]

theorem backwardSteps_deliver_in_order :
    ((start mixingSender ()).run deafBehaviour backwardSteps).DeliversInOrder deafBehaviour ∧
      ((start mixingSender ()).run deafBehaviour backwardSteps).posted.length = 3 ∧
      ((start mixingSender ()).run deafBehaviour backwardSteps).taken.length = 3 := by
  refine ⟨delivers_in_order deafBehaviour mixingPeer_reached (Sender.create_freshSender rfl _) rfl
    backwardSteps ?_, ?_, ?_⟩
  · decide +kernel
  · decide +kernel
  · decide +kernel

end Session

end AudioBus
