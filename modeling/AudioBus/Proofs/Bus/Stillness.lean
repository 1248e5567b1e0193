import AudioBus.Proofs.Bus.Contract
import AudioBus.Proofs.Bus.Delivery
import AudioBus.Proofs.Bus.Fifo

/-!
Polls while the clock stands still.  A poll delivers the frames that are due, one after another, and
leaves those that are due later.  What its handlers send waits with them, numbered behind all that
was sent before, so what is due after the poll was sent in it.
-/

namespace AudioBus

def Request.keepsClock {η : Type} : Request η → Bool
  | .advanceClock _ => false
  | .send _ | .bind _ _ _ | .unbind _ => true

/-- Whether handlers leave the clock alone. -/
def KeepClock {η ω : Type} (behaviour : Behaviour η ω) : Prop :=
  Asks (fun request => request.keepsClock = true) behaviour

namespace Bus

variable {η : Type}

theorem clock_persists (time : Seconds) :
    Persists (fun bus : Bus η => bus.clock = time) fun request => request.keepsClock = true where
  note _ _ shows := shows
  perform bus request keeps shows := by
    cases request with
    | send message => exact shows
    | bind path signature handler =>
        simp only [perform, bind]
        by_cases isBound : bus.methods.contains path = true
        · rw [if_pos isBound]
          exact shows
        · rw [if_neg isBound]
          exact shows
    | unbind path => exact shows
    | advanceClock length => cases keeps

theorem mail_sentAt {bus : Bus η} {requests : List (Request η)}
    (keep : ∀ request ∈ requests, request.keepsClock = true) :
    ∀ letter ∈ bus.mail requests, letter.sentAt = bus.clock := by
  induction requests generalizing bus with
  | nil => exact fun _ isSent => absurd isSent List.not_mem_nil
  | cons request rest inductionHypothesis =>
      obtain ⟨firstKeeps, restKeep⟩ := List.forall_mem_cons.mp keep
      have sameClock := (clock_persists bus.clock).perform bus request firstKeeps rfl
      intro letter isSent
      rcases List.mem_append.mp isSent with isFirst | isLater
      · cases request with
        | send message =>
            rw [List.mem_singleton.mp isFirst]
            rfl
        | bind path signature handler => cases isFirst
        | unbind path => cases isFirst
        | advanceClock length => cases isFirst
      · rw [inductionHypothesis restKeep letter isLater]
        exact sameClock

theorem send_mem_of_mail {bus : Bus η} {requests : List (Request η)} {letter : Letter}
    (isSent : letter ∈ bus.mail requests) : .send letter.message ∈ requests := by
  induction requests generalizing bus with
  | nil => cases isSent
  | cons request rest inductionHypothesis =>
      rcases List.mem_append.mp isSent with isFirst | isLater
      · cases request with
        | send message =>
            rw [List.mem_singleton.mp isFirst]
            exact List.mem_cons_self
        | bind path signature handler => cases isFirst
        | unbind path => cases isFirst
        | advanceClock length => cases isFirst
      · exact List.mem_cons_of_mem request (inductionHypothesis isLater)

theorem decoded_of_accepted {bus : Bus η} {frame : List UInt8} {message : Message} {handler : η}
    (judged : bus.judge frame = .accepted message handler) :
    Message.decode frame = .ok message := by
  cases decoded : Message.decode frame with
  | error cause =>
      unfold judge at judged
      rw [decoded] at judged
      cases judged
  | ok other =>
      rw [bus.judge_of_decoded decoded] at judged
      split at judged
      · cases judged
      · split at judged
        · cases judged
          rfl
        · cases judged

/-- Frames wait in the order of delivery, and all were numbered when they were sent. -/
structure Scheduled (bus : Bus η) : Prop where
  ordered : Ordered bus.pending
  numbered : ∀ entry ∈ bus.pending, entry.sequence < bus.sent

/-- A bus whose clock shows a time; every frame on it waits for a number. -/
structure StandsAt (time : Seconds) (bus : Bus η) : Prop where
  clock : bus.clock = time
  scheduled : bus.Scheduled
  numbers : ∀ entry ∈ bus.pending, entry.due.isNaN = false

theorem scheduled_kept (first : Nat) :
    Kept fun (bus : Bus η) sent => bus.Scheduled ∧ first ≤ bus.sent ∧
      ∀ letter ∈ sent, first ≤ letter.sequence ∧ letter.sequence < bus.sent where
  send bus sent message holds := by
    obtain ⟨scheduled, onward, numbered⟩ := holds
    refine ⟨⟨scheduled.ordered.schedule scheduled.numbered,
      InOrder.pendingNumbered_send message scheduled.numbered⟩, Nat.le_succ_of_le onward, ?_⟩
    intro letter isSent
    rcases List.mem_append.mp isSent with wasSent | isNew
    · exact ⟨(numbered letter wasSent).1, Nat.lt_succ_of_lt (numbered letter wasSent).2⟩
    · rw [List.mem_singleton.mp isNew]
      exact ⟨onward, Nat.lt_succ_self _⟩
  same bus other sent holds samePending sameSent := by
    obtain ⟨scheduled, onward, numbered⟩ := holds
    rw [sameSent]
    refine ⟨⟨?_, ?_⟩, onward, numbered⟩
    · rw [samePending]
      exact scheduled.ordered
    · rw [samePending, sameSent]
      exact scheduled.numbered

namespace StandsAt

variable {bus : Bus η} {time : Seconds}

theorem hasDue_eq_false_iff (stands : bus.StandsAt time) (number : time.isNaN = false) :
    bus.hasDue = false ↔ ∀ entry ∈ bus.pending, isDue time entry = false := by
  have numbers := stands.numbers
  have ordered := stands.scheduled.ordered
  unfold hasDue nextDeadline
  rw [stands.clock]
  cases waits : bus.pending with
  | nil => exact ⟨fun _ _ isMember => absurd isMember List.not_mem_nil, fun _ => rfl⟩
  | cons first rest =>
      rw [waits] at numbers ordered
      have isDueFirst : isDue time first = first.due.atMost time :=
        Bool.eq_iff_iff.mpr (isDue_iff number (numbers first List.mem_cons_self))
      rw [List.forall_mem_cons, isDueFirst]
      change first.due.atMost time = false ↔ _
      constructor
      · intro firstLater
        refine ⟨firstLater, ?_⟩
        intro entry isLater
        apply (Bool.not_eq_true _).mp
        intro entryDue
        have firstDue := isDue_of_isBefore ((List.pairwise_cons.mp ordered).1 entry isLater)
          (numbers first List.mem_cons_self) (numbers entry (List.mem_cons_of_mem first isLater))
          entryDue
        rw [isDueFirst, firstLater] at firstDue
        contradiction
      · exact fun noneDue => noneDue.1

end StandsAt

end Bus

theorem Peer.Reached.scheduled {η ω : Type} {behaviour : Behaviour η ω} {peer : Peer η ω}
    (reached : peer.Reached behaviour) : peer.bus.Scheduled := by
  obtain ⟨_, inOrder⟩ := reached.inOrder 0
  exact ⟨inOrder.ordered, inOrder.pendingNumbered⟩

/-- A frame that is delivered, what becomes of it, and what its handler sends. -/
structure Exchange (η : Type) where
  entry : Pending
  verdict : Verdict η
  replies : List Letter

namespace Peer

variable {η ω : Type} {behaviour : Behaviour η ω} {peer : Peer η ω}

def exchanges (behaviour : Behaviour η ω) (peer : Peer η ω) : List Pending → List (Exchange η)
  | [] => []
  | entry :: rest =>
      { entry := entry
        verdict := (peer.deliver behaviour entry.frame).2
        replies := peer.reply behaviour entry.frame } ::
        (peer.deliver behaviour entry.frame).1.exchanges behaviour rest

theorem exchanges_entries (behaviour : Behaviour η ω) (peer : Peer η ω) (batch : List Pending) :
    (peer.exchanges behaviour batch).map Exchange.entry = batch := by
  induction batch generalizing peer with
  | nil => rfl
  | cons entry rest inductionHypothesis =>
      rw [exchanges, List.map_cons, inductionHypothesis]

theorem exchanges_verdicts (behaviour : Behaviour η ω) (peer : Peer η ω) (batch : List Pending) :
    (peer.exchanges behaviour batch).map Exchange.verdict =
      (peer.deliverAll behaviour batch).2 := by
  induction batch generalizing peer with
  | nil => rfl
  | cons entry rest inductionHypothesis =>
      rw [exchanges, List.map_cons, inductionHypothesis]
      rfl

theorem exchanges_replies (behaviour : Behaviour η ω) (peer : Peer η ω) (batch : List Pending) :
    (peer.exchanges behaviour batch).flatMap Exchange.replies = peer.replies behaviour batch := by
  induction batch generalizing peer with
  | nil => rfl
  | cons entry rest inductionHypothesis =>
      rw [exchanges, List.flatMap_cons, inductionHypothesis]
      rfl

theorem mem_exchanges (keep : KeepClock behaviour) {batch : List Pending} {exchange : Exchange η}
    (isMember : exchange ∈ peer.exchanges behaviour batch) :
    ∃ during : Peer η ω, during.bus.clock = peer.bus.clock ∧
      exchange.replies = during.reply behaviour exchange.entry.frame := by
  induction batch generalizing peer with
  | nil => cases isMember
  | cons entry rest inductionHypothesis =>
      rcases List.mem_cons.mp isMember with isFirst | isLater
      · rw [isFirst]
        exact ⟨peer, rfl, rfl⟩
      · obtain ⟨during, sameClock, repliesEq⟩ := inductionHypothesis isLater
        have delivered := (Bus.clock_persists peer.bus.clock).deliver keep rfl entry.frame
        exact ⟨during, sameClock.trans delivered, repliesEq⟩

theorem mem_reply (keep : KeepClock behaviour) {frame : List UInt8} {letter : Letter}
    (isReply : letter ∈ peer.reply behaviour frame) :
    letter.sentAt = peer.bus.clock ∧
      ∃ message handler outside, Message.decode frame = .ok message ∧
        .send letter.message ∈ (behaviour handler message peer.bus.clock outside).requests := by
  unfold reply at isReply
  cases judged : peer.bus.judge frame with
  | undecodable cause =>
      rw [judged] at isReply
      cases isReply
  | unknown message =>
      rw [judged] at isReply
      cases isReply
  | refused message expected =>
      rw [judged] at isReply
      cases isReply
  | accepted message handler =>
      simp only [judged] at isReply
      have stillShows : peer.bus.clock = peer.bus.clock := rfl
      have noted := (Bus.clock_persists peer.bus.clock).noteAll stillShows
        (behaviour handler message peer.bus.clock peer.outside).notices
      exact ⟨(Bus.mail_sentAt (keep handler message _ _) letter isReply).trans noted, message,
        handler, peer.outside, Bus.decoded_of_accepted judged, Bus.send_mem_of_mail isReply⟩

theorem deadline_of_exchange (keep : KeepClock behaviour) (number : peer.bus.clock.isNaN = false)
    {batch : List Pending} {exchange : Exchange η}
    (isMember : exchange ∈ peer.exchanges behaviour batch) {letter : Letter}
    (isReply : letter ∈ exchange.replies) : letter.deadline.isNaN = false := by
  obtain ⟨during, sameClock, repliesEq⟩ := mem_exchanges keep isMember
  rw [repliesEq] at isReply
  apply Letter.deadline_number
  rw [(mem_reply keep isReply).1, sameClock]
  exact number

def round (behaviour : Behaviour η ω) (peer : Peer η ω) : List (Exchange η) :=
  peer.relieved.exchanges behaviour (peer.dispatched .poll)

theorem mem_dispatched_iff {time : Seconds} (stands : peer.bus.StandsAt time) {entry : Pending} :
    entry ∈ peer.dispatched .poll ↔ entry ∈ peer.bus.pending ∧ Bus.isDue time entry = true := by
  unfold dispatched
  rw [(stands.scheduled.ordered.due_eq stands.numbers _).1, stands.clock, List.mem_filter]

theorem entry_mem_of_round {exchange : Exchange η} (isMember : exchange ∈ peer.round behaviour) :
    exchange.entry ∈ peer.dispatched .poll := by
  have isEntry := List.mem_map_of_mem (f := Exchange.entry) isMember
  rw [round, exchanges_entries] at isEntry
  exact isEntry

theorem round_handled (behaviour : Behaviour η ω) (peer : Peer η ω) :
    (peer.round behaviour).countP (fun exchange => exchange.verdict.isAccepted) =
      handled (peer.poll behaviour).2 := by
  change _ = handled (peer.relieved.deliverAll behaviour (peer.dispatched .poll)).2
  rw [← exchanges_verdicts, handled, List.countP_map]
  rfl

/-- A poll leaves what is due later, and what its handlers send. -/
theorem poll_pending {time : Seconds} (stands : peer.bus.StandsAt time)
    (behaviour : Behaviour η ω) :
    (peer.poll behaviour).1.bus.pending.Perm
      (peer.bus.pending.filter (fun entry => time.less entry.due) ++
        (peer.round behaviour).flatMap fun exchange => exchange.replies.map Letter.entry) := by
  have left := (stands.scheduled.ordered.due_eq stands.numbers peer.bus.clock).2
  have later : (fun entry => !Bus.isDue time entry) = fun entry => time.less entry.due :=
    funext fun entry => Bool.not_not _
  rw [stands.clock, later] at left
  have waits := Bus.pending_deliverAll behaviour peer.relieved (peer.dispatched .poll)
  rw [← exchanges_replies, List.map_flatMap] at waits
  have relieved : peer.relieved.bus.pending =
      peer.bus.pending.filter fun entry => time.less entry.due := by
    rw [← left, ← stands.clock]
    rfl
  rw [relieved] at waits
  exact waits

theorem poll_numbered (scheduled : peer.bus.Scheduled) (behaviour : Behaviour η ω) :
    (peer.poll behaviour).1.bus.Scheduled ∧ peer.bus.sent ≤ (peer.poll behaviour).1.bus.sent ∧
      ∀ exchange ∈ peer.round behaviour, ∀ letter ∈ exchange.replies,
        peer.bus.sent ≤ letter.sequence ∧
          letter.sequence < (peer.poll behaviour).1.bus.sent := by
  have relieved : peer.relieved.bus.Scheduled :=
    ⟨scheduled.ordered.sublist (List.dropWhile_sublist _),
      fun entry isLeft => scheduled.numbered entry ((List.dropWhile_sublist _).subset isLeft)⟩
  have initially : peer.relieved.bus.Scheduled ∧ peer.bus.sent ≤ peer.relieved.bus.sent ∧
      ∀ letter ∈ ([] : List Letter), peer.bus.sent ≤ letter.sequence ∧
        letter.sequence < peer.relieved.bus.sent :=
    ⟨relieved, Nat.le_refl _, fun _ isMember => absurd isMember List.not_mem_nil⟩
  obtain ⟨last, onward, numbered⟩ := (Bus.scheduled_kept peer.bus.sent).deliverAll behaviour
    initially (peer.dispatched .poll)
  refine ⟨last, onward, ?_⟩
  intro exchange isMember letter isReply
  apply numbered
  rw [List.nil_append, ← exchanges_replies]
  exact List.mem_flatMap.mpr ⟨exchange, isMember, isReply⟩

theorem poll_stands {time : Seconds} (keep : KeepClock behaviour) (number : time.isNaN = false)
    (stands : peer.bus.StandsAt time) : (peer.poll behaviour).1.bus.StandsAt time := by
  constructor
  case clock =>
    have relieved : peer.relieved.bus.clock = time := stands.clock
    exact ((Bus.clock_persists time).deliverAll keep relieved _).1
  case scheduled => exact (poll_numbered stands.scheduled behaviour).1
  case numbers =>
    intro entry isPending
    rcases List.mem_append.mp ((poll_pending stands behaviour).subset isPending) with isOld | isNew
    · exact stands.numbers entry (List.mem_filter.mp isOld).1
    · obtain ⟨exchange, isMember, isReply⟩ := List.mem_flatMap.mp isNew
      obtain ⟨letter, isLetter, entryEq⟩ := List.mem_map.mp isReply
      rw [← entryEq]
      refine deadline_of_exchange keep ?_ isMember isLetter
      change peer.bus.clock.isNaN = false
      rw [stands.clock]
      exact number

theorem sent_of_due {time : Seconds} (keep : KeepClock behaviour) (number : time.isNaN = false)
    (stands : peer.bus.StandsAt time) {entry : Pending}
    (isTaken : entry ∈ (peer.poll behaviour).1.dispatched .poll) :
    ∃ exchange ∈ peer.round behaviour, ∃ letter ∈ exchange.replies, letter.entry = entry := by
  obtain ⟨isPending, isDue⟩ := (mem_dispatched_iff (poll_stands keep number stands)).mp isTaken
  rcases List.mem_append.mp ((poll_pending stands behaviour).subset isPending) with isOld | isNew
  · have isLater := (List.mem_filter.mp isOld).2
    rw [Bus.isDue, isLater] at isDue
    contradiction
  · obtain ⟨exchange, isMember, isReply⟩ := List.mem_flatMap.mp isNew
    obtain ⟨letter, isLetter, entryEq⟩ := List.mem_map.mp isReply
    exact ⟨exchange, isMember, letter, isLetter, entryEq⟩

end Peer

end AudioBus
