import AudioBus.Proofs.Bus.Cadence
import AudioBus.Proofs.Bus.Stillness
import Mathlib.Data.List.Pairwise
import Mathlib.Logic.Function.Iterate

/-!
Draining a bus.  What handlers send waits for the next poll, so every poll of a drain delivers one
generation of messages.  As long as the clock stands still and the messages that are due lose in
rank from one generation to the next, there is a last generation, and the drain ends with it.
-/

namespace AudioBus

namespace Peer

variable {η ω : Type} {behaviour : Behaviour η ω} {peer : Peer η ω}

def after (behaviour : Behaviour η ω) (peer : Peer η ω) (polls : Nat) : Peer η ω :=
  (fun peer : Peer η ω => (peer.poll behaviour).1)^[polls] peer

/-- What happens in so many polls, in the order of delivery. -/
def cascade (behaviour : Behaviour η ω) (peer : Peer η ω) (polls : Nat) : List (Exchange η) :=
  (List.range polls).flatMap fun count => (peer.after behaviour count).round behaviour

theorem after_succ (behaviour : Behaviour η ω) (peer : Peer η ω) (polls : Nat) :
    peer.after behaviour (polls + 1) = ((peer.after behaviour polls).poll behaviour).1 :=
  Function.iterate_succ_apply' _ _ _

theorem cascade_succ (behaviour : Behaviour η ω) (peer : Peer η ω) (polls : Nat) :
    peer.cascade behaviour (polls + 1) =
      peer.cascade behaviour polls ++ (peer.after behaviour polls).round behaviour := by
  rw [cascade, List.range_succ, List.flatMap_append, List.flatMap_singleton]
  rfl

theorem cascade_poll (behaviour : Behaviour η ω) (peer : Peer η ω) (polls : Nat) :
    peer.cascade behaviour (polls + 1) =
      peer.round behaviour ++ (peer.poll behaviour).1.cascade behaviour polls := by
  rw [cascade, List.range_succ_eq_map, List.flatMap_cons, List.flatMap_map]
  rfl

theorem mem_cascade_iff {polls : Nat} {exchange : Exchange η} :
    exchange ∈ peer.cascade behaviour polls ↔
      ∃ count < polls, exchange ∈ (peer.after behaviour count).round behaviour := by
  simp only [cascade, List.mem_flatMap, List.mem_range]

theorem after_calls (behaviour : Behaviour η ω) (peer : Peer η (Watched η ω)) (polls : Nat) :
    (peer.after (watch behaviour) polls).outside.calls =
      peer.outside.calls ++ (peer.cascade (watch behaviour) polls).filterMap fun exchange =>
        exchange.verdict.call? := by
  induction polls with
  | zero => exact (List.append_nil _).symm
  | succ polls inductionHypothesis =>
      have delivered := deliverAll_calls behaviour (peer.after (watch behaviour) polls).relieved
        ((peer.after (watch behaviour) polls).dispatched .poll)
      rw [← exchanges_verdicts, List.filterMap_map] at delivered
      rw [after_succ, cascade_succ, List.filterMap_append, ← List.append_assoc,
        ← inductionHypothesis]
      exact delivered

section

variable {time : Seconds}

theorem after_stands (keep : KeepClock behaviour) (number : time.isNaN = false)
    (stands : peer.bus.StandsAt time) (polls : Nat) :
    (peer.after behaviour polls).bus.StandsAt time := by
  induction polls with
  | zero => exact stands
  | succ polls inductionHypothesis =>
      rw [after_succ]
      exact poll_stands keep number inductionHypothesis

/-- Of all that waited and of all that was sent, what is due later waits. -/
theorem after_pending (keep : KeepClock behaviour) (number : time.isNaN = false)
    (stands : peer.bus.StandsAt time) (polls : Nat) :
    ((peer.after behaviour polls).bus.pending.filter fun entry => time.less entry.due).Perm
      ((peer.bus.pending ++ (peer.cascade behaviour polls).flatMap fun exchange =>
        exchange.replies.map Letter.entry).filter fun entry => time.less entry.due) := by
  induction polls with
  | zero =>
      rw [cascade, List.range_zero, List.flatMap_nil, List.flatMap_nil, List.append_nil]
      exact List.Perm.refl _
  | succ polls inductionHypothesis =>
      have waits := (poll_pending (after_stands keep number stands polls) behaviour).filter
        fun entry => time.less entry.due
      rw [List.filter_append, List.filter_filter] at waits
      simp only [Bool.and_self] at waits
      rw [after_succ, cascade_succ, List.flatMap_append, ← List.append_assoc, List.filter_append]
      exact waits.trans (inductionHypothesis.append_right _)

end

/-! ### Drains -/

def isDone (behaviour : Behaviour η ω) (peer : Peer η ω) : Bool :=
  handled (peer.poll behaviour).2 = 0 && !(peer.poll behaviour).1.bus.hasDue

theorem drain_succ (behaviour : Behaviour η ω) (peer : Peer η ω) (allowed : Nat) :
    peer.drain behaviour (allowed + 1) =
      if peer.isDone behaviour then some ((peer.poll behaviour).1, 0)
      else
        ((peer.poll behaviour).1.drain behaviour allowed).map fun ended =>
          (ended.1, handled (peer.poll behaviour).2 + ended.2) :=
  rfl

/-- A drain ends with the first poll that it may end with, if it is allowed as many polls. -/
theorem drain_eq {polls : Nat} (goesOn : ∀ count < polls,
      (peer.after behaviour count).isDone behaviour = false)
    (done : (peer.after behaviour polls).isDone behaviour = true) (allowed : Nat) :
    peer.drain behaviour allowed =
      if polls + 1 ≤ allowed then
        some (peer.after behaviour (polls + 1),
          (peer.cascade behaviour (polls + 1)).countP fun exchange => exchange.verdict.isAccepted)
      else none := by
  induction polls generalizing peer allowed with
  | zero =>
      cases allowed with
      | zero => rfl
      | succ allowed =>
          have isDone : peer.isDone behaviour = true := done
          have noneHandled : handled (peer.poll behaviour).2 = 0 :=
            of_decide_eq_true (Bool.and_eq_true_iff.mp isDone).1
          rw [drain_succ, if_pos isDone, if_pos (Nat.le_add_left 1 allowed), cascade_poll,
            List.countP_append, round_handled, noneHandled]
          rfl
  | succ polls inductionHypothesis =>
      cases allowed with
      | zero => rfl
      | succ allowed =>
          have notDone : peer.isDone behaviour = false := goesOn 0 (Nat.zero_lt_succ polls)
          have goesOnLater (count : Nat) (isEarlier : count < polls) :
              ((peer.poll behaviour).1.after behaviour count).isDone behaviour = false :=
            goesOn (count + 1) (Nat.succ_lt_succ isEarlier)
          have later := inductionHypothesis goesOnLater done allowed
          have total := cascade_poll behaviour peer (polls + 1)
          rw [drain_succ, notDone, later, total, List.countP_append, round_handled]
          by_cases enough : polls + 1 ≤ allowed
          · rw [if_pos enough, if_pos (Nat.succ_le_succ enough)]
            rfl
          · rw [if_neg enough, if_neg (fun isEnough => enough (Nat.le_of_succ_le_succ isEnough))]
            rfl

theorem isDone_of_idle {time : Seconds} (keep : KeepClock behaviour) (number : time.isNaN = false)
    (stands : peer.bus.StandsAt time) (idle : peer.dispatched .poll = []) :
    peer.isDone behaviour = true := by
  have quiet : peer.round behaviour = [] := by
    rw [round, idle]
    rfl
  have noneHandled : handled (peer.poll behaviour).2 = 0 := by
    rw [← round_handled, quiet]
    rfl
  have noneDue : (peer.poll behaviour).1.bus.hasDue = false := by
    rw [(poll_stands keep number stands).hasDue_eq_false_iff number]
    intro entry isPending
    apply (Bool.not_eq_true _).mp
    intro isDue
    obtain ⟨exchange, isMember, _⟩ := sent_of_due keep number stands
      ((mem_dispatched_iff (poll_stands keep number stands)).mpr ⟨isPending, isDue⟩)
    rw [quiet] at isMember
    cases isMember
  rw [isDone, noneHandled, noneDue]
  rfl

/-! ### Ranks -/

/-- Whether all that handlers send in a drain is due later or of a lower rank than the frame that is
handled. -/
def Falls (behaviour : Behaviour η ω) (peer : Peer η ω) (rank : Pending → Nat) : Prop :=
  ∀ polls, ∀ exchange ∈ peer.cascade behaviour polls, ∀ letter ∈ exchange.replies,
    peer.bus.clock.less letter.deadline = true ∨ rank letter.entry < rank exchange.entry

theorem exists_rank_bound (rank : Pending → Nat) (entries : List Pending) :
    ∃ bound, ∀ entry ∈ entries, rank entry < bound := by
  induction entries with
  | nil => exact ⟨0, fun _ isMember => absurd isMember List.not_mem_nil⟩
  | cons first rest inductionHypothesis =>
      obtain ⟨bound, bounded⟩ := inductionHypothesis
      refine ⟨max (rank first + 1) bound, List.forall_mem_cons.mpr ⟨by omega, ?_⟩⟩
      intro entry isMember
      have isBounded := bounded entry isMember
      omega

theorem rank_add_lt {rank : Pending → Nat} (keep : KeepClock behaviour)
    (number : peer.bus.clock.isNaN = false) (stands : peer.bus.StandsAt peer.bus.clock)
    (falls : peer.Falls behaviour rank) {bound : Nat}
    (bounded : ∀ entry ∈ peer.dispatched .poll, rank entry < bound) (polls : Nat) :
    ∀ entry ∈ (peer.after behaviour polls).dispatched .poll, rank entry + polls < bound := by
  induction polls with
  | zero => exact bounded
  | succ polls inductionHypothesis =>
      intro entry isTaken
      have standsNow := after_stands keep number stands polls
      rw [after_succ] at isTaken
      obtain ⟨exchange, isMember, letter, isReply, entryEq⟩ :=
        sent_of_due keep number standsNow isTaken
      have isDue := ((mem_dispatched_iff (poll_stands keep number standsNow)).mp isTaken).2
      have inCascade : exchange ∈ peer.cascade behaviour (polls + 1) :=
        mem_cascade_iff.mpr ⟨polls, Nat.lt_succ_self polls, isMember⟩
      have lower : rank entry < rank exchange.entry := by
        rcases falls _ exchange inCascade letter isReply with isLater | isLower
        · rw [← entryEq, Bus.isDue] at isDue
          change (!peer.bus.clock.less letter.deadline) = true at isDue
          rw [isLater] at isDue
          contradiction
        · rw [← entryEq]
          exact isLower
      have higher := inductionHypothesis exchange.entry (entry_mem_of_round isMember)
      omega

/-- Whether messages that handlers send at a time are due later or of a lower rank than the message
that is handled. -/
def Descends (rank : Message → Nat) (now : Seconds) (behaviour : Behaviour η ω) : Prop :=
  ∀ handler message outside reply,
    .send reply ∈ (behaviour handler message now outside).requests →
      reply.Countable ∧ (now.less (dueAt now reply.timestamp) = true ∨ rank reply < rank message)

theorem Descends.watch {rank : Message → Nat} {now : Seconds} {behaviour : Behaviour η ω}
    (descends : Descends rank now behaviour) : Descends rank now (watch behaviour) :=
  fun handler message watched => descends handler message watched.outside

def frameRank (rank : Message → Nat) (entry : Pending) : Nat :=
  match Message.decode entry.frame with
  | .error _ => 0
  | .ok message => rank message

theorem Descends.falls {rank : Message → Nat} (keep : KeepClock behaviour)
    (number : peer.bus.clock.isNaN = false) (stands : peer.bus.StandsAt peer.bus.clock)
    (descends : Descends rank peer.bus.clock behaviour) :
    peer.Falls behaviour (frameRank rank) := by
  intro polls exchange isMember letter isReply
  obtain ⟨count, _, inRound⟩ := mem_cascade_iff.mp isMember
  obtain ⟨during, sameClock, repliesEq⟩ := mem_exchanges keep inRound
  have clockEq : during.bus.clock = peer.bus.clock :=
    sameClock.trans (after_stands keep number stands count).clock
  rw [repliesEq] at isReply
  obtain ⟨sentAt, message, handler, outside, decoded, isAsked⟩ := mem_reply keep isReply
  rw [clockEq] at sentAt isAsked
  obtain ⟨countable, laterOrLower⟩ := descends handler message outside letter.message isAsked
  have holdsReply : Message.decode letter.entry.frame = .ok letter.message :=
    Message.decode_encode countable
  rw [Letter.deadline, sentAt, frameRank, frameRank, decoded, holdsReply]
  exact laterOrLower

/-! ### Generations -/

/-- The generation of a message: zero if it waited at first, and else one more than that of the
message that was handled when it was sent. -/
inductive Generation (waiting : List Pending) (exchanged : List (Exchange η)) :
    Pending → Nat → Prop
  | first {entry : Pending} (waits : entry ∈ waiting) : Generation waiting exchanged entry 0
  | next {exchange : Exchange η} {letter : Letter} {generation : Nat}
      (isExchange : exchange ∈ exchanged)
      (ofHandled : Generation waiting exchanged exchange.entry generation)
      (isReply : letter ∈ exchange.replies) :
      Generation waiting exchanged letter.entry (generation + 1)

/-- Whether a frame was numbered before the first poll, or in the poll before the one given. -/
def SentFor (behaviour : Behaviour η ω) (peer : Peer η ω) (entry : Pending) : Nat → Prop
  | 0 => entry.sequence < peer.bus.sent
  | polls + 1 => (peer.after behaviour polls).bus.sent ≤ entry.sequence ∧
      entry.sequence < (peer.after behaviour (polls + 1)).bus.sent

section

variable {time : Seconds} (keep : KeepClock behaviour) (number : time.isNaN = false)
  (stands : peer.bus.StandsAt time)

include keep number stands

theorem sent_mono {polls more : Nat} (le : polls ≤ more) :
    (peer.after behaviour polls).bus.sent ≤ (peer.after behaviour more).bus.sent := by
  induction le with
  | refl => exact Nat.le_refl _
  | @step more _ inductionHypothesis =>
      rw [after_succ]
      have scheduled := (after_stands keep number stands more).scheduled
      exact Nat.le_trans inductionHypothesis (poll_numbered scheduled behaviour).2.1

theorem SentFor.unique {entry : Pending} {polls more : Nat}
    (sentFor : peer.SentFor behaviour entry polls)
    (sentForMore : peer.SentFor behaviour entry more) : polls = more := by
  have notEarlier {first second : Nat} (sentForFirst : peer.SentFor behaviour entry first)
      (sentForSecond : peer.SentFor behaviour entry second) : ¬first < second := by
    intro isEarlier
    obtain ⟨before, rfl⟩ : ∃ before, second = before + 1 :=
      ⟨second - 1, by omega⟩
    have below : entry.sequence < (peer.after behaviour first).bus.sent := by
      cases first with
      | zero => exact sentForFirst
      | succ first => exact sentForFirst.2
    have onward := sent_mono keep number stands (Nat.le_of_lt_succ isEarlier)
    have above := sentForSecond.1
    omega
  have notBefore := notEarlier sentFor sentForMore
  have notAfter := notEarlier sentForMore sentFor
  omega

theorem sentFor_of_reply {polls : Nat} {exchange : Exchange η} {letter : Letter}
    (isMember : exchange ∈ (peer.after behaviour polls).round behaviour)
    (isReply : letter ∈ exchange.replies) : peer.SentFor behaviour letter.entry (polls + 1) := by
  have scheduled := (after_stands keep number stands polls).scheduled
  have numbered := (poll_numbered scheduled behaviour).2.2 exchange isMember letter isReply
  rw [SentFor, after_succ]
  exact numbered

theorem sentFor_of_dispatched {polls : Nat} {entry : Pending}
    (isTaken : entry ∈ (peer.after behaviour polls).dispatched .poll) :
    peer.SentFor behaviour entry polls := by
  cases polls with
  | zero => exact stands.scheduled.numbered entry ((mem_dispatched_iff stands).mp isTaken).1
  | succ polls =>
      rw [after_succ] at isTaken
      obtain ⟨exchange, isMember, letter, isReply, entryEq⟩ :=
        sent_of_due keep number (after_stands keep number stands polls) isTaken
      rw [← entryEq]
      exact sentFor_of_reply keep number stands isMember isReply

theorem Generation.sentFor {polls generation : Nat} {entry : Pending}
    (isOf : Generation peer.bus.pending (peer.cascade behaviour polls) entry generation) :
    peer.SentFor behaviour entry generation := by
  induction isOf with
  | first waits => exact stands.scheduled.numbered _ waits
  | next isExchange _ isReply inductionHypothesis =>
      obtain ⟨count, _, isMember⟩ := mem_cascade_iff.mp isExchange
      have taken := sentFor_of_dispatched keep number stands (entry_mem_of_round isMember)
      rw [inductionHypothesis.unique keep number stands taken]
      exact sentFor_of_reply keep number stands isMember isReply

theorem generation_iff_of_round {polls count : Nat} (isEarlier : count < polls)
    {exchange : Exchange η} (isMember : exchange ∈ (peer.after behaviour count).round behaviour)
    (generation : Nat) :
    Generation peer.bus.pending (peer.cascade behaviour polls) exchange.entry generation ↔
      generation = count := by
  constructor
  · intro isOf
    have taken := sentFor_of_dispatched keep number stands (entry_mem_of_round isMember)
    exact (isOf.sentFor keep number stands).unique keep number stands taken
  · rintro rfl
    induction generation generalizing exchange with
    | zero =>
        exact .first ((mem_dispatched_iff stands).mp (entry_mem_of_round isMember)).1
    | succ count inductionHypothesis =>
        have isTaken := entry_mem_of_round isMember
        rw [after_succ] at isTaken
        obtain ⟨sender, isSender, letter, isReply, entryEq⟩ :=
          sent_of_due keep number (after_stands keep number stands count) isTaken
        have sooner : count < polls := Nat.lt_of_succ_lt isEarlier
        rw [← entryEq]
        exact .next (mem_cascade_iff.mpr ⟨count, sooner, isSender⟩)
          (inductionHypothesis sooner isSender) isReply

theorem cascade_in_generations (polls : Nat) :
    (peer.cascade behaviour polls).Pairwise fun earlier later =>
      ∀ generation laterGeneration,
        Generation peer.bus.pending (peer.cascade behaviour polls) earlier.entry generation →
        Generation peer.bus.pending (peer.cascade behaviour polls) later.entry laterGeneration →
          generation ≤ laterGeneration := by
  have rounds {count more : Nat} (isEarlier : count < polls) (isLater : more < polls)
      (le : count ≤ more) {earlier later : Exchange η}
      (isMember : earlier ∈ (peer.after behaviour count).round behaviour)
      (isLaterMember : later ∈ (peer.after behaviour more).round behaviour)
      (generation laterGeneration : Nat)
      (isOf : Generation peer.bus.pending (peer.cascade behaviour polls) earlier.entry generation)
      (isOfLater : Generation peer.bus.pending (peer.cascade behaviour polls) later.entry
        laterGeneration) : generation ≤ laterGeneration := by
    have first :=
      (generation_iff_of_round keep number stands isEarlier isMember generation).mp isOf
    have second := (generation_iff_of_round keep number stands isLater isLaterMember
      laterGeneration).mp isOfLater
    omega
  conv => arg 2; rw [cascade]
  rw [List.pairwise_flatMap]
  constructor
  · intro count isCount
    have isEarlier := List.mem_range.mp isCount
    apply List.pairwise_of_forall_mem_list
    intro earlier isMember later isLaterMember
    exact rounds isEarlier isEarlier (Nat.le_refl count) isMember isLaterMember
  · apply List.pairwise_lt_range.imp_of_mem
    intro count more isCount isMore isLess earlier isMember later isLaterMember
    exact rounds (List.mem_range.mp isCount) (List.mem_range.mp isMore) (Nat.le_of_lt isLess)
      isMember isLaterMember

end

theorem KeepClock.watch {behaviour : Behaviour η ω} (keep : KeepClock behaviour) :
    KeepClock (watch behaviour) :=
  fun handler message now watched => keep handler message now watched.outside

theorem exists_last_poll {rank : Pending → Nat} (keep : KeepClock behaviour)
    (number : peer.bus.clock.isNaN = false) (stands : peer.bus.StandsAt peer.bus.clock)
    (falls : peer.Falls behaviour rank) :
    ∃ polls, (peer.after behaviour polls).isDone behaviour = true ∧
      ∀ count < polls, (peer.after behaviour count).isDone behaviour = false := by
  obtain ⟨bound, bounded⟩ := exists_rank_bound rank (peer.dispatched .poll)
  have idle : (peer.after behaviour bound).dispatched .poll = [] := by
    apply List.eq_nil_iff_forall_not_mem.mpr
    intro entry isTaken
    have low := rank_add_lt keep number stands falls bounded bound entry isTaken
    omega
  have ends : ∃ polls, (peer.after behaviour polls).isDone behaviour = true :=
    ⟨bound, isDone_of_idle keep number (after_stands keep number stands bound) idle⟩
  refine ⟨Nat.find ends, Nat.find_spec ends, ?_⟩
  intro count isEarlier
  exact (Bool.not_eq_true _).mp (Nat.find_min ends isEarlier)

/-- As long as the clock stands still and shows a number, no message waits for what is not a number,
and all that handlers send is due later or of a lower rank than the message that is handled, a drain
ends, however often it may poll beyond that.  Its result is the number of calls that it made.
Nothing that is due is left, and of all messages that waited or were sent those that are due later
wait.  All messages of one generation are delivered before those of the next. -/
theorem drain_ends_with_cascade {behaviour : Behaviour η ω} (keep : KeepClock behaviour)
    (peer : Peer η (Watched η ω)) (scheduled : peer.bus.Scheduled)
    (number : peer.bus.clock.isNaN = false)
    (numbers : ∀ entry ∈ peer.bus.pending, entry.due.isNaN = false) (rank : Pending → Nat)
    (falls : peer.Falls (watch behaviour) rank) :
    ∃ polls last total,
      (∀ allowed, peer.drain (watch behaviour) allowed =
        if polls ≤ allowed then some (last, total) else none) ∧
      let exchanged := peer.cascade (watch behaviour) polls
      last.outside.calls = peer.outside.calls ++ exchanged.filterMap (fun exchange =>
        exchange.verdict.call?) ∧
      last.outside.calls.length = peer.outside.calls.length + total ∧
      last.bus.clock = peer.bus.clock ∧
      (∀ entry ∈ last.bus.pending, entry.due.atMost peer.bus.clock = false) ∧
      last.bus.pending.Perm ((peer.bus.pending ++ exchanged.flatMap fun exchange =>
        exchange.replies.map Letter.entry).filter fun entry => peer.bus.clock.less entry.due) ∧
      (∀ exchange ∈ exchanged,
        ∃! generation, Generation peer.bus.pending exchanged exchange.entry generation) ∧
      exchanged.Pairwise fun earlier later => ∀ generation laterGeneration,
        Generation peer.bus.pending exchanged earlier.entry generation →
        Generation peer.bus.pending exchanged later.entry laterGeneration →
          generation ≤ laterGeneration := by
  have keepWatched := KeepClock.watch keep
  have stands : peer.bus.StandsAt peer.bus.clock := ⟨rfl, scheduled, numbers⟩
  obtain ⟨polls, done, goesOn⟩ := exists_last_poll keepWatched number stands falls
  have standsAfter := after_stands keepWatched number stands (polls + 1)
  have noneDue : ∀ entry ∈ (peer.after (watch behaviour) (polls + 1)).bus.pending,
      Bus.isDue peer.bus.clock entry = false := by
    have nothing : (peer.after (watch behaviour) (polls + 1)).bus.hasDue = false := by
      rw [after_succ]
      exact Bool.not_eq_true' _ |>.mp (Bool.and_eq_true_iff.mp done).2
    exact (standsAfter.hasDue_eq_false_iff number).mp nothing
  have calls := after_calls behaviour peer (polls + 1)
  refine ⟨polls + 1, _, _, drain_eq goesOn done, calls, ?_, standsAfter.clock, ?_, ?_, ?_,
    cascade_in_generations keepWatched number stands (polls + 1)⟩
  · rw [calls, List.length_append, List.length_filterMap_eq_countP]
    congr 2
    funext exchange
    cases exchange.verdict <;> rfl
  · intro entry isPending
    apply (Bool.not_eq_true _).mp
    intro isAtMost
    have isDue := (Bus.isDue_iff number (standsAfter.numbers entry isPending)).mpr isAtMost
    rw [noneDue entry isPending] at isDue
    contradiction
  · have waits := after_pending keepWatched number stands (polls + 1)
    rw [List.filter_eq_self.mpr] at waits
    · exact waits
    · intro entry isPending
      exact Bool.not_eq_false' _ |>.mp (noneDue entry isPending)
  · intro exchange isMember
    obtain ⟨count, isEarlier, inRound⟩ := mem_cascade_iff.mp isMember
    have isOf := generation_iff_of_round keepWatched number stands isEarlier inRound
    exact ⟨count, (isOf count).mpr rfl, fun generation => (isOf generation).mp⟩

def ping (times : Int32) : Message where
  timestamp := Binary.zero
  path := "mixer/ping"
  arguments := [.int32 times]

def lateMessage (path : String) : Message where
  timestamp := Binary.ofBits 0x4059000000000000
  path := path
  arguments := []

def echoBehaviour : Behaviour Unit Unit :=
  fun _ message _ outside =>
    { outside := outside
      notices := []
      requests :=
        if message.arguments = [.int32 2] then
          [.send (ping 1), .send (lateMessage "mixer/ping"), .send (ping 1)]
        else if message.arguments = [.int32 1] then [.send (ping 0)]
        else [] }

def echoRank (message : Message) : Nat :=
  if message.arguments = [.int32 2] then 2
  else if message.arguments = [.int32 1] then 1
  else 0

def lostPing : Message :=
  { ping 2 with path := "mixer/pong" }

/-- Besides a ping a message without a method is due, and one waits for later. -/
def echoPeer : Peer Unit (Watched Unit Unit) where
  bus :=
    [ping 2, lateMessage "mixer/pong", lostPing].foldl Bus.send
      ((Bus.create "peer" Binary.zero).perform (.bind "mixer/ping" { kinds := [.int32] } ()))
  outside := { outside := (), calls := [] }

theorem echoBehaviour_keeps_clock : KeepClock echoBehaviour := by
  intro handler message now outside request isAsked
  simp only [echoBehaviour] at isAsked
  split at isAsked
  · simp only [List.mem_cons, List.not_mem_nil, or_false] at isAsked
    rcases isAsked with rfl | rfl | rfl <;> rfl
  · split at isAsked
    · rw [List.mem_singleton.mp isAsked]
      rfl
    · cases isAsked

theorem echoBehaviour_descends : Descends echoRank Binary.zero echoBehaviour := by
  intro handler message outside reply isAsked
  simp only [echoBehaviour] at isAsked
  split at isAsked
  · rename_i isTwo
    simp only [List.mem_cons, Request.send.injEq, List.not_mem_nil, or_false] at isAsked
    have rankEq : echoRank message = 2 := if_pos isTwo
    rw [rankEq]
    rcases isAsked with rfl | rfl | rfl
    · exact ⟨by decide +kernel, Or.inr (by decide)⟩
    · exact ⟨by decide +kernel, Or.inl (by decide +kernel)⟩
    · exact ⟨by decide +kernel, Or.inr (by decide)⟩
  · rename_i notTwo
    split at isAsked
    · rename_i isOne
      rw [List.mem_singleton, Request.send.injEq] at isAsked
      have rankEq : echoRank message = 1 := (if_neg notTwo).trans (if_pos isOne)
      rw [isAsked, rankEq]
      exact ⟨by decide +kernel, Or.inr (by decide)⟩
    · cases isAsked

theorem echoPeer_drain_ends :
    KeepClock echoBehaviour ∧ Descends echoRank echoPeer.bus.clock echoBehaviour ∧
      echoPeer.bus.Scheduled ∧ echoPeer.Falls (watch echoBehaviour) (frameRank echoRank) ∧
      ∃ polls last,
        (∀ allowed, echoPeer.drain (watch echoBehaviour) allowed =
          if polls ≤ allowed then some (last, 5) else none) ∧
        last.outside.calls.length = 5 ∧
        (∀ entry ∈ last.bus.pending, entry.due.atMost Binary.zero = false) ∧
        (echoPeer.cascade (watch echoBehaviour) polls).Pairwise fun earlier later =>
          ∀ generation laterGeneration,
            Generation echoPeer.bus.pending (echoPeer.cascade (watch echoBehaviour) polls)
              earlier.entry generation →
            Generation echoPeer.bus.pending (echoPeer.cascade (watch echoBehaviour) polls)
              later.entry laterGeneration →
                generation ≤ laterGeneration := by
  have keep := echoBehaviour_keeps_clock
  have descends := echoBehaviour_descends
  have reached : echoPeer.Reached (watch echoBehaviour) := by
    have created : Reached (watch echoBehaviour)
        { bus := Bus.create "peer" Binary.zero, outside := { outside := (), calls := [] } } :=
      .created "peer" Binary.zero _
    have bound := created.step (.request (.bind "mixer/ping" { kinds := [.int32] } ()))
    have pinged := bound.step (.request (.send (ping 2)))
    have waiting := pinged.step (.request (.send (lateMessage "mixer/pong")))
    exact waiting.step (.request (.send lostPing))
  have scheduled := reached.scheduled
  have number : echoPeer.bus.clock.isNaN = false := by decide +kernel
  have numbers : ∀ entry ∈ echoPeer.bus.pending, entry.due.isNaN = false := by decide +kernel
  have falls : echoPeer.Falls (watch echoBehaviour) (frameRank echoRank) :=
    descends.watch.falls (KeepClock.watch keep) number ⟨rfl, scheduled, numbers⟩
  obtain ⟨polls, last, total, drained, _, counted, _, noneDue, _, _, inGenerations⟩ :=
    drain_ends_with_cascade keep echoPeer scheduled number numbers (frameRank echoRank) falls
  have atFour : (echoPeer.drain (watch echoBehaviour) 4).map Prod.snd = some 5 := by
    decide +kernel
  have totalEq : total = 5 := by
    rw [drained 4] at atFour
    split at atFour
    · exact Option.some.inj atFour
    · cases atFour
  subst total
  exact ⟨keep, descends, scheduled, falls, polls, last, drained, counted, noneDue, inGenerations⟩

end Peer

end AudioBus
