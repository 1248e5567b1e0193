import AudioBus.Proofs.Transmitter.Run
import Mathlib.Computability.Language

/-!
The protocol that a transmitter speaks.  It speaks in sessions: each is opened by a sync, goes on
with syncs and blocks, and is ended by a close, but for the last one, which may still be open.

Sends may fail anywhere.  What counts is what the link took, which a ledger keeps.
-/

namespace AudioBus

open scoped Computability

/-! ### The language of sessions -/

namespace StreamMethod

def conversation : Language StreamMethod := {[.sync]} * ({[.sync]} + {[.push]})∗

def closedSessions : Language StreamMethod := (conversation * {[.close]})∗

def sessions : Language StreamMethod := closedSessions * (1 + conversation)

theorem sync_mem_conversation : [StreamMethod.sync] ∈ conversation :=
  Language.append_mem_mul (Set.mem_singleton [StreamMethod.sync]) (Language.nil_mem_kstar _)

theorem append_mem_kstar {language : Language StreamMethod} {word last : List StreamMethod}
    (inStar : word ∈ language∗) (isOne : last ∈ language) : word ++ last ∈ language∗ :=
  Set.mem_of_mem_of_subset (Language.append_mem_mul inStar isOne)
    (kstar_mul_le_kstar (a := language))

theorem append_mem_conversation {word : List StreamMethod} {method : StreamMethod}
    (spoken : word ∈ conversation) (goesOn : method ≠ .close) :
    word ++ [method] ∈ conversation := by
  obtain ⟨first, isFirst, rest, isRest, wordEq⟩ := Language.mem_mul.mp spoken
  have isOne : [method] ∈ ({[.sync]} + {[.push]} : Language StreamMethod) := by
    cases method with
    | sync => exact Or.inl rfl
    | push => exact Or.inr rfl
    | close => contradiction
  rw [← wordEq, List.append_assoc]
  exact Language.append_mem_mul isFirst (append_mem_kstar isRest isOne)

theorem append_mem_open {word : List StreamMethod} {method : StreamMethod}
    (spoken : word ∈ closedSessions * conversation) (goesOn : method ≠ .close) :
    word ++ [method] ∈ closedSessions * conversation := by
  obtain ⟨before, isBefore, current, isCurrent, wordEq⟩ := Language.mem_mul.mp spoken
  rw [← wordEq, List.append_assoc]
  exact Language.append_mem_mul isBefore (append_mem_conversation isCurrent goesOn)

theorem append_close_mem {word : List StreamMethod}
    (spoken : word ∈ closedSessions * conversation) : word ++ [.close] ∈ closedSessions := by
  obtain ⟨before, isBefore, current, isCurrent, wordEq⟩ := Language.mem_mul.mp spoken
  rw [← wordEq, List.append_assoc]
  exact append_mem_kstar isBefore
    (Language.append_mem_mul isCurrent (Set.mem_singleton [StreamMethod.close]))

theorem eq_nil_or_append_close {word : List StreamMethod} (spoken : word ∈ closedSessions) :
    word = [] ∨ ∃ before, word = before ++ [.close] := by
  obtain ⟨parts, wordEq, areSessions⟩ := Language.mem_kstar.mp spoken
  rcases List.eq_nil_or_concat parts with none | ⟨earlier, last, partsEq⟩
  · rw [wordEq, none]
    exact Or.inl rfl
  · have isSession := areSessions last (by rw [partsEq]; simp)
    obtain ⟨current, _, final, isFinal, lastEq⟩ := Language.mem_mul.mp isSession
    have finalEq : final = [.close] := isFinal
    refine Or.inr ⟨earlier.flatten ++ current, ?_⟩
    rw [wordEq, partsEq, ← lastEq, finalEq]
    simp

end StreamMethod

namespace Occurrence

variable {κ : Type}

def event? : Occurrence κ → Option StreamEvent
  | .sent _ _ event => some event
  | .restartRefused _ => none

def method? (occurrence : Occurrence κ) : Option StreamMethod :=
  occurrence.event?.map StreamEvent.method

end Occurrence

namespace Sender

variable {κ : Type}

def spoken (happened : List (Occurrence κ)) : List StreamMethod :=
  happened.filterMap Occurrence.method?

/-- Whether an event is one of stream `id`, and sent by a sender that has a time. -/
def Utters (id : StreamId) (speaker : Sender κ) (event : StreamEvent) : Prop :=
  speaker.transmitter.hasTime = true ∧ event.id = id ∧ event ≠ .push id []

structure InSession (id : StreamId) (past : List (Occurrence κ)) (sender : Sender κ) : Prop where
  identity : sender.transmitter.id = id
  opened : sender.transmitter.announced = true →
    spoken past ∈ StreamMethod.closedSessions * StreamMethod.conversation
  ended : sender.transmitter.announced = false → spoken past ∈ StreamMethod.closedSessions
  timed : sender.transmitter.announced = true → sender.transmitter.hasTime = true
  unclosed : sender.transmitter.announced = true → sender.transmitter.closed = false
  uttered : ∀ speaker timestamp event, .sent speaker timestamp event ∈ past →
    Utters id speaker event

theorem spoken_append (past : List (Occurrence κ)) (speaker : Sender κ) (timestamp : Seconds)
    (event : StreamEvent) :
    spoken (past ++ [.sent speaker timestamp event]) = spoken past ++ [event.method] :=
  List.filterMap_append

namespace InSession

variable {id : StreamId} {past : List (Occurrence κ)} {sender next : Sender κ}

theorem sessions (inSession : InSession id past sender) :
    spoken past ∈ StreamMethod.sessions := by
  cases isOpen : sender.transmitter.announced with
  | true =>
      obtain ⟨before, isBefore, current, isCurrent, spokenEq⟩ :=
        Language.mem_mul.mp (inSession.opened isOpen)
      rw [← spokenEq]
      exact Language.append_mem_mul isBefore (Or.inr isCurrent)
  | false =>
      have nothing : [] ∈ 1 + StreamMethod.conversation := Or.inl rfl
      have closed := Language.append_mem_mul (inSession.ended isOpen) nothing
      rwa [List.append_nil] at closed

theorem spoken_sync (inSession : InSession id past sender) :
    spoken past ++ [.sync] ∈ StreamMethod.closedSessions * StreamMethod.conversation := by
  cases isOpen : sender.transmitter.announced with
  | true => exact StreamMethod.append_mem_open (inSession.opened isOpen) nofun
  | false =>
      exact Language.append_mem_mul (inSession.ended isOpen) StreamMethod.sync_mem_conversation

theorem uttered_append (inSession : InSession id past sender) {speaker : Sender κ}
    {timestamp : Seconds} {event : StreamEvent} (utters : Utters id speaker event) :
    ∀ other otherTimestamp otherEvent,
      .sent other otherTimestamp otherEvent ∈ past ++ [.sent speaker timestamp event] →
        Utters id other otherEvent := by
  intro other otherTimestamp otherEvent isMember
  rcases List.mem_append.mp isMember with isEarlier | isLast
  · exact inSession.uttered other otherTimestamp otherEvent isEarlier
  · cases List.mem_singleton.mp isLast
    exact utters

theorem declare (inSession : InSession id past sender) {speaker : Sender κ}
    {timestamp time : Seconds} (identity : next.transmitter.id = id)
    (isOpen : next.transmitter.announced = true) (unclosed : next.transmitter.closed = false)
    (timed : next.transmitter.hasTime = true) (speakerTimed : speaker.transmitter.hasTime = true) :
    InSession id (past ++ [.sent speaker timestamp (.sync id time)]) next := by
  constructor
  case identity => exact identity
  case opened =>
    intro _
    rw [spoken_append]
    exact inSession.spoken_sync
  case ended =>
    intro isEnded
    rw [isOpen] at isEnded
    contradiction
  case timed => exact fun _ => timed
  case unclosed => exact fun _ => unclosed
  case uttered => exact inSession.uttered_append ⟨speakerTimed, rfl, nofun⟩

theorem deliver (inSession : InSession id past sender) {timestamp : Seconds}
    {block : List Sample} (nonempty : block ≠ []) (isOpen : sender.transmitter.announced = true)
    (identity : next.transmitter.id = id) (stillOpen : next.transmitter.announced = true)
    (unclosed : next.transmitter.closed = false) (timed : next.transmitter.hasTime = true) :
    InSession id (past ++ [.sent sender timestamp (.push id block)]) next := by
  constructor
  case identity => exact identity
  case opened =>
    intro _
    rw [spoken_append]
    exact StreamMethod.append_mem_open (inSession.opened isOpen) nofun
  case ended =>
    intro isEnded
    rw [stillOpen] at isEnded
    contradiction
  case timed => exact fun _ => timed
  case unclosed => exact fun _ => unclosed
  case uttered =>
    refine inSession.uttered_append ⟨inSession.timed isOpen, rfl, ?_⟩
    intro empty
    exact nonempty (StreamEvent.push.inj empty).2

theorem finish (inSession : InSession id past sender) {timestamp : Seconds}
    (isOpen : sender.transmitter.announced = true) (identity : next.transmitter.id = id)
    (isEnded : next.transmitter.announced = false) :
    InSession id (past ++ [.sent sender timestamp (.close id)]) next := by
  have notOpen : ¬ next.transmitter.announced = true := Bool.not_eq_true _ |>.mpr isEnded
  constructor
  case identity => exact identity
  case opened => exact fun stillOpen => absurd stillOpen notOpen
  case ended =>
    intro _
    rw [spoken_append]
    exact StreamMethod.append_close_mem (inSession.opened isOpen)
  case timed => exact fun stillOpen => absurd stillOpen notOpen
  case unclosed => exact fun stillOpen => absurd stillOpen notOpen
  case uttered => exact inSession.uttered_append ⟨inSession.timed isOpen, rfl, nofun⟩

theorem refuse (inSession : InSession id past sender) (time : Seconds) :
    InSession id (past ++ [.restartRefused time]) sender := by
  have same : spoken (past ++ [.restartRefused time]) = spoken past := by
    unfold spoken
    rw [List.filterMap_append]
    exact List.append_nil _
  constructor
  case identity => exact inSession.identity
  case opened =>
    rw [same]
    exact inSession.opened
  case ended =>
    rw [same]
    exact inSession.ended
  case timed => exact inSession.timed
  case unclosed => exact inSession.unclosed
  case uttered =>
    intro speaker timestamp event isMember
    rcases List.mem_append.mp isMember with isEarlier | isLast
    · exact inSession.uttered speaker timestamp event isEarlier
    · cases List.mem_singleton.mp isLast

theorem of_same (inSession : InSession id past sender)
    (identity : next.transmitter.id = sender.transmitter.id)
    (announced : next.transmitter.announced = sender.transmitter.announced)
    (closed : next.transmitter.closed = sender.transmitter.closed)
    (timed : sender.transmitter.hasTime = true → next.transmitter.hasTime = true) :
    InSession id past next := by
  constructor
  case identity => exact identity.trans inSession.identity
  case opened =>
    rw [announced]
    exact inSession.opened
  case ended =>
    rw [announced]
    exact inSession.ended
  case timed =>
    rw [announced]
    exact fun isOpen => timed (inSession.timed isOpen)
  case unclosed =>
    rw [announced, closed]
    exact inSession.unclosed
  case uttered => exact inSession.uttered

variable [Link κ]

theorem move {happened : List (Occurrence κ)} (inSession : InSession id past sender)
    (move : Move sender happened next) : InSession id (past ++ happened) next := by
  have identity := inSession.identity
  cases move with
  | looked | awaited | noted | led =>
      rw [List.append_nil]
      exact inSession.of_same rfl rfl rfl fun timed => timed
  | begun timeless =>
      rw [List.append_nil]
      exact inSession.of_same rfl rfl rfl fun _ => rfl
  | declared link timed taken =>
      rw [declaration, identity]
      exact inSession.declare identity rfl rfl timed timed
  | restarted time link timed taken =>
      have restartIdentity : (sender.restart time).transmitter.id = id := identity
      rw [declaration, restartIdentity]
      exact inSession.declare identity rfl rfl timed timed
  | refused time timed => exact (inSession.refuse time).of_same rfl rfl rfl fun timed => timed
  | delivered block link isOpen nonempty taken =>
      rw [delivery, identity]
      exact inSession.deliver nonempty isOpen identity isOpen (inSession.unclosed isOpen)
        (inSession.timed isOpen)
  | ended link isOpen notClosed taken =>
      rw [farewell, identity]
      exact inSession.finish isOpen identity rfl

theorem create {link : κ} {service endpoint : String} {config : TransmitterConfig}
    (created : Sender.create link id service endpoint config = .ok sender) :
    InSession id [] sender := by
  obtain ⟨_, client, senderEq⟩ := create_ok created
  rw [senderEq]
  constructor
  case identity => rfl
  case opened => exact fun isOpen => absurd isOpen Bool.false_ne_true
  case ended => exact fun _ => Language.nil_mem_kstar _
  case timed => exact fun isOpen => absurd isOpen Bool.false_ne_true
  case unclosed => exact fun isOpen => absurd isOpen Bool.false_ne_true
  case uttered => exact fun _ _ _ isMember => absurd isMember List.not_mem_nil

theorem perform (inSession : InSession id past sender) (call : TransmitterCall) :
    InSession id (past ++ sender.history call) (sender.perform call) :=
  (sender.path_perform call).preserves (fun _ _ _ _ holds move => holds.move move) past inSession

theorem run (inSession : InSession id past sender) (steps : List (Step κ)) :
    InSession id (past ++ sender.chronicle steps) (sender.run steps) :=
  run_preserves (fun _ _ _ _ holds move => holds.move move)
    (fun _ _ _ holds => holds.of_same rfl rfl rfl fun timed => timed) sender steps past inSession

theorem announced_perform_close (inSession : InSession id past sender)
    (notRefused : ∀ cause, sender.close ≠ .error cause) :
    (sender.perform .close).transmitter.announced = false := by
  simp only [Sender.perform]
  cases isOpen : sender.transmitter.announced with
  | false =>
      have unchanged : sender.close = .ok sender := by
        unfold close
        rw [isOpen]
        rfl
      rw [unchanged]
      exact isOpen
  | true =>
      cases outcome : sender.close with
      | error cause => exact absurd outcome (notRefused cause)
      | ok closed =>
          rw [close_eq sender isOpen (inSession.unclosed isOpen)] at outcome
          obtain ⟨link, _, closedEq⟩ := send_map_ok outcome
          rw [closedEq]
          rfl

end InSession

end Sender

/-! ### Ledgers -/

/-- A link, and the messages that it took so far. -/
structure Ledger (κ : Type) where
  link : κ
  taken : List Message

namespace Ledger

variable {κ : Type}

def blank (link : κ) : Ledger κ where
  link := link
  taken := []

variable [Link κ]

def status (ledger : Ledger κ) (service : String) : ServiceStatus × Ledger κ :=
  let (status, link) := Link.status ledger.link service
  (status, { ledger with link := link })

def awaitSynchronized (ledger : Ledger κ) (service : String) : Option (Ledger κ) :=
  (Link.awaitSynchronized ledger.link service).map fun link => { ledger with link := link }

def send (ledger : Ledger κ) (message : Message) : Except BusError (Ledger κ) :=
  (Link.send ledger.link message).map fun link =>
    { link := link, taken := ledger.taken ++ [message] }

instance : Link (Ledger κ) where
  now ledger := Link.now ledger.link
  status := status
  awaitSynchronized := awaitSynchronized
  send := send
  note ledger notice := { ledger with link := Link.note ledger.link notice }

theorem send_ok {ledger next : Ledger κ} {message : Message}
    (isTaken : Link.send ledger message = .ok next) :
    ∃ link, Link.send ledger.link message = .ok link ∧
      next = { link := link, taken := ledger.taken ++ [message] } := by
  change (Link.send ledger.link message).map _ = .ok next at isTaken
  cases outcome : Link.send ledger.link message with
  | error cause =>
      rw [outcome] at isTaken
      contradiction
  | ok link =>
      rw [outcome] at isTaken
      exact ⟨link, rfl, (Except.ok.inj isTaken).symm⟩

theorem logs : Sender.Logs (κ := Ledger κ) Ledger.taken where
  looked _ _ := rfl
  awaited ledger service seen found := by
    obtain ⟨link, _, seenEq⟩ := Option.map_eq_some_iff.mp found
    rw [← seenEq]
  noted _ _ := rfl
  taken ledger message next isTaken := by
    obtain ⟨link, _, nextEq⟩ := send_ok isTaken
    rw [nextEq]

end Ledger

namespace Sender

variable {κ : Type} [Link κ]

def ledgerStep (sender : Sender (Ledger κ)) : Step κ → Step (Ledger κ)
  | .call call => .call call
  | .relink link => .relink { sender.link with link := link }

def ledgerSteps (sender : Sender (Ledger κ)) : List (Step κ) → List (Step (Ledger κ))
  | [] => []
  | step :: rest =>
      sender.ledgerStep step :: (sender.advance (sender.ledgerStep step)).ledgerSteps rest

theorem run_ledger (sender : Sender (Ledger κ)) (steps : List (Step κ)) :
    (sender.run (sender.ledgerSteps steps)).link.taken =
      sender.link.taken ++
        (sender.chronicle (sender.ledgerSteps steps)).filterMap Occurrence.message? := by
  induction steps generalizing sender with
  | nil => exact (List.append_nil _).symm
  | cons step rest inductionHypothesis =>
      cases step with
      | call call =>
          have onward := inductionHypothesis (sender.perform call)
          rw [sender.perform_logged Ledger.logs call] at onward
          simp only [ledgerSteps, ledgerStep, chronicle, List.filterMap_append,
            ← List.append_assoc]
          exact onward
      | relink link =>
          exact inductionHypothesis { sender with link := { sender.link with link := link } }

theorem drop_ledger (sender : Sender (Ledger κ)) :
    sender.drop.taken = (sender.perform .close).link.taken := by
  unfold drop perform
  cases sender.close with
  | ok closed => rfl
  | error cause => rfl

/-- The link takes the messages of what happens, up to the last close, and no others. -/
theorem drop_taken {link : κ} {id : StreamId} {service endpoint : String}
    {config : TransmitterConfig} {sender : Sender (Ledger κ)}
    (created : create (Ledger.blank link) id service endpoint config = .ok sender)
    (steps : List (Step κ)) :
    let last := sender.run (sender.ledgerSteps steps)
    last.drop.taken =
      (sender.chronicle (sender.ledgerSteps steps) ++ last.history .close).filterMap
        Occurrence.message? := by
  intro last
  have blank : sender.link.taken = [] := by
    obtain ⟨_, client, senderEq⟩ := create_ok created
    rw [senderEq]
    rfl
  rw [drop_ledger, last.perform_logged Ledger.logs, run_ledger, blank, List.nil_append,
    List.filterMap_append]

/-- Whatever is asked of a transmitter, and whatever its link refuses, the link takes a sequence
of sessions from it.  A transmitter speaks only once it has a time, under its own identity, and
sends no empty block.  When its last close is not refused either, nothing stays open behind it. -/
theorem speaks_in_sessions {link : κ} {id : StreamId} {service endpoint : String}
    {config : TransmitterConfig} {sender : Sender (Ledger κ)}
    (created : create (Ledger.blank link) id service endpoint config = .ok sender)
    (steps : List (Step κ)) :
    let last := sender.run (sender.ledgerSteps steps)
    let happened := sender.chronicle (sender.ledgerSteps steps) ++ last.history .close
    last.drop.taken = happened.filterMap Occurrence.message? ∧
      spoken happened ∈ StreamMethod.sessions ∧
      (∀ speaker timestamp event, .sent speaker timestamp event ∈ happened →
        speaker.transmitter.hasTime = true ∧ event.id = id ∧ event ≠ .push id []) ∧
      ((∀ cause, last.close ≠ .error cause) →
        spoken happened = [] ∨ ∃ before, spoken happened = before ++ [.close]) := by
  intro last happened
  have reached : InSession id (sender.chronicle (sender.ledgerSteps steps)) last :=
    (InSession.create created).run (sender.ledgerSteps steps)
  have inSession : InSession id happened (last.perform .close) := reached.perform .close
  refine ⟨drop_taken created steps, inSession.sessions, inSession.uttered, ?_⟩
  intro notRefused
  exact StreamMethod.eq_nil_or_append_close
    (inSession.ended (reached.announced_perform_close notRefused))

def limitedLedgerSender : Sender (Ledger Recorder) :=
  freshSender promptConfig (Ledger.blank (limitedRecorder (some 2)))

/-- A sync and a block are taken, a close is refused, then all is taken again. -/
def refusedCloseSteps : List (Step Recorder) :=
  [.call (.push [Binary.zero]), .call .close, .relink (limitedRecorder none),
    .call (.push [Binary.zero]), .call .close, .call (.setStreamTime Binary.zero)]

theorem spoken_refusedCloseSteps :
    spoken (limitedLedgerSender.chronicle (limitedLedgerSender.ledgerSteps refusedCloseSteps) ++
        (limitedLedgerSender.run
          (limitedLedgerSender.ledgerSteps refusedCloseSteps)).history .close) =
      [.sync, .push, .push, .close, .sync, .close] := by
  decide +kernel

theorem refusedCloseSteps_speak_in_sessions :
    create (Ledger.blank (limitedRecorder (some 2))) { value := 0 } "mixer" "0" promptConfig =
        .ok limitedLedgerSender ∧
      [StreamMethod.sync, .push, .push, .close, .sync, .close] ∈ StreamMethod.sessions := by
  have created :
      create (Ledger.blank (limitedRecorder (some 2))) { value := 0 } "mixer" "0" promptConfig =
        .ok limitedLedgerSender := create_freshSender rfl _
  refine ⟨created, ?_⟩
  have inSessions := (speaks_in_sessions created refusedCloseSteps).2.1
  rwa [spoken_refusedCloseSteps] at inSessions

end Sender

end AudioBus
