import AudioBus.Proofs.Bus.Schedule

/-!
The traffic on a bus: what clients and handlers send on it, and what polls take off its schedule.

What sending and taking keep, every step of a run keeps.
-/

namespace AudioBus

/-- A message as it was sent: at which time, and after how many others. -/
structure Letter where
  message : Message
  sentAt : Seconds
  sequence : Nat
deriving DecidableEq

namespace Letter

def deadline (letter : Letter) : Seconds :=
  dueAt letter.sentAt letter.message.timestamp

def entry (letter : Letter) : Pending where
  due := letter.deadline
  sequence := letter.sequence
  frame := letter.message.encode

end Letter

namespace Bus

variable {η : Type}

def letter (bus : Bus η) (message : Message) : Letter where
  message := message
  sentAt := bus.clock
  sequence := bus.sent

def entry (bus : Bus η) (message : Message) : Pending where
  due := bus.dueTime message
  sequence := bus.sent
  frame := message.encode

theorem letter_entry (bus : Bus η) (message : Message) :
    (bus.letter message).entry = bus.entry message := by
  unfold entry
  rw [dueTime_eq]
  rfl

theorem send_pending (bus : Bus η) (message : Message) :
    (bus.send message).pending = schedule (bus.entry message) bus.pending :=
  rfl

theorem judge_of_decoded (bus : Bus η) {frame : List UInt8} {message : Message}
    (decoded : Message.decode frame = .ok message) :
    bus.judge frame =
      match bus.methods.find? message.path with
      | none => .unknown message
      | some method =>
          if method.signature.accepts message.arguments then .accepted message method.handler
          else .refused message method.signature := by
  unfold judge
  generalize Message.decode frame = outcome at decoded
  cases decoded
  rfl

def outgoing (bus : Bus η) : Request η → List Letter
  | .send message => [bus.letter message]
  | .bind _ _ _ | .unbind _ | .advanceClock _ => []

/-- What is sent in the course of requests. -/
def mail (bus : Bus η) : List (Request η) → List Letter
  | [] => []
  | request :: rest => bus.outgoing request ++ (bus.perform request).mail rest

/-- What holds of a bus and of what was sent on it, whatever more is sent and whatever else
happens on the bus. -/
structure Kept (holds : Bus η → List Letter → Prop) : Prop where
  send : ∀ (bus : Bus η) (sent : List Letter) (message : Message),
    holds bus sent → holds (bus.send message) (sent ++ [bus.letter message])
  same : ∀ (bus other : Bus η) (sent : List Letter), holds bus sent →
    other.pending = bus.pending → other.sent = bus.sent → holds other sent

namespace Kept

variable {holds : Bus η → List Letter → Prop} {bus : Bus η} {sent : List Letter}

theorem unmoved (kept : Kept holds) {other : Bus η} (initially : holds bus sent)
    (samePending : other.pending = bus.pending) (sameSent : other.sent = bus.sent) :
    holds other (sent ++ []) := by
  rw [List.append_nil]
  exact kept.same bus other sent initially samePending sameSent

theorem note (kept : Kept holds) (initially : holds bus sent) (notice : Notice) :
    holds (bus.note notice) sent :=
  kept.same _ _ _ initially rfl rfl

theorem noteAll (kept : Kept holds) (initially : holds bus sent) (notices : List Notice) :
    holds (bus.noteAll notices) sent := by
  induction notices generalizing bus with
  | nil => exact initially
  | cons notice rest inductionHypothesis => exact inductionHypothesis (kept.note initially notice)

theorem perform (kept : Kept holds) (initially : holds bus sent) (request : Request η) :
    holds (bus.perform request) (sent ++ bus.outgoing request) := by
  cases request with
  | send message => exact kept.send bus sent message initially
  | bind path signature handler =>
      simp only [Bus.perform, Bus.bind]
      by_cases isBound : bus.methods.contains path = true
      · rw [if_pos isBound]
        exact kept.unmoved initially rfl rfl
      · rw [if_neg isBound]
        exact kept.unmoved initially rfl rfl
  | unbind path => exact kept.unmoved initially rfl rfl
  | advanceClock length => exact kept.unmoved initially rfl rfl

theorem performAll (kept : Kept holds) (initially : holds bus sent) (requests : List (Request η)) :
    holds (requests.foldl Bus.perform bus) (sent ++ bus.mail requests) := by
  induction requests generalizing bus sent with
  | nil => exact kept.unmoved initially rfl rfl
  | cons request rest inductionHypothesis =>
      rw [mail, ← List.append_assoc]
      exact inductionHypothesis (kept.perform initially request)

theorem acquire (kept : Kept holds) (initially : holds bus sent) (service : String) :
    holds (bus.acquire service) sent := by
  unfold Bus.acquire
  cases bus.services.find? service with
  | none => exact kept.same _ _ _ initially rfl rfl
  | some providers => exact kept.same _ _ _ initially rfl rfl

theorem release (kept : Kept holds) (initially : holds bus sent) (service : String) :
    holds (bus.release service) sent := by
  unfold Bus.release
  cases bus.services.find? service with
  | none => exact initially
  | some providers =>
      simp only
      split
      · exact kept.same _ _ _ initially rfl rfl
      · exact kept.same _ _ _ initially rfl rfl

end Kept

end Bus

/-- What may be done on a bus. -/
inductive PeerStep (η : Type) where
  | request (request : Request η)
  | acquire (service : String)
  | release (service : String)
  | synchronize (isSynchronized : Bool)
  | setClock (time : Seconds)
  | note (notice : Notice)
  | poll

namespace Peer

variable {η ω : Type}

def advance (behaviour : Behaviour η ω) (peer : Peer η ω) : PeerStep η → Peer η ω
  | .request request => { peer with bus := peer.bus.perform request }
  | .acquire service => { peer with bus := peer.bus.acquire service }
  | .release service => { peer with bus := peer.bus.release service }
  | .synchronize isSynchronized => { peer with bus := peer.bus.synchronize isSynchronized }
  | .setClock time => { peer with bus := peer.bus.setClock time }
  | .note notice => { peer with bus := peer.bus.note notice }
  | .poll => (peer.poll behaviour).1

/-- The peers that come about by any steps from one on a new bus. -/
inductive Reached (behaviour : Behaviour η ω) : Peer η ω → Prop
  | created (peerName : String) (clock : Seconds) (outside : ω) :
      Reached behaviour { bus := Bus.create peerName clock, outside := outside }
  | step {peer : Peer η ω} (step : PeerStep η) (reached : Reached behaviour peer) :
      Reached behaviour (peer.advance behaviour step)

/-- What a step takes off the schedule, in the order of delivery. -/
def dispatched (peer : Peer η ω) : PeerStep η → List Pending
  | .poll => peer.bus.pending.takeWhile (Bus.isDue peer.bus.clock)
  | _ => []

def relieved (peer : Peer η ω) : Peer η ω :=
  { peer with
    bus := { peer.bus with pending := peer.bus.pending.dropWhile (Bus.isDue peer.bus.clock) } }

theorem dispatched_append_relieved (peer : Peer η ω) :
    peer.dispatched .poll ++ peer.relieved.bus.pending = peer.bus.pending :=
  List.takeWhile_append_dropWhile

def reply (behaviour : Behaviour η ω) (peer : Peer η ω) (frame : List UInt8) : List Letter :=
  match peer.bus.judge frame with
  | .accepted message handler =>
      let reaction := behaviour handler message peer.bus.clock peer.outside
      (peer.bus.noteAll reaction.notices).mail reaction.requests
  | .undecodable _ | .unknown _ | .refused _ _ => []

def replies (behaviour : Behaviour η ω) (peer : Peer η ω) : List Pending → List Letter
  | [] => []
  | entry :: rest =>
      peer.reply behaviour entry.frame ++
        (peer.deliver behaviour entry.frame).1.replies behaviour rest

def mail (behaviour : Behaviour η ω) (peer : Peer η ω) : PeerStep η → List Letter
  | .request request => peer.bus.outgoing request
  | .poll => peer.relieved.replies behaviour (peer.dispatched .poll)
  | _ => []

end Peer

namespace Bus.Kept

variable {η ω : Type} {holds : Bus η → List Letter → Prop} {peer : Peer η ω}

theorem deliver {sent : List Letter} (kept : Kept holds) (behaviour : Behaviour η ω)
    (initially : holds peer.bus sent) (frame : List UInt8) :
    holds (peer.deliver behaviour frame).1.bus (sent ++ peer.reply behaviour frame) := by
  unfold Peer.deliver Peer.reply
  cases peer.bus.judge frame with
  | undecodable cause => exact kept.unmoved (kept.noteAll initially _) rfl rfl
  | unknown message => exact kept.unmoved (kept.noteAll initially _) rfl rfl
  | refused message expected => exact kept.unmoved (kept.noteAll initially _) rfl rfl
  | accepted message handler => exact kept.performAll (kept.noteAll initially _) _

theorem deliverAll {sent : List Letter} (kept : Kept holds) (behaviour : Behaviour η ω)
    (initially : holds peer.bus sent) (due : List Pending) :
    holds (peer.deliverAll behaviour due).1.bus (sent ++ peer.replies behaviour due) := by
  induction due generalizing peer sent with
  | nil => exact kept.unmoved initially rfl rfl
  | cons entry rest inductionHypothesis =>
      rw [Peer.replies, ← List.append_assoc]
      exact inductionHypothesis (kept.deliver behaviour initially entry.frame)

/-- What also keeps when due frames are taken off the schedule keeps in every step. -/
theorem advance {ledger : List Pending → Bus η → List Letter → Prop}
    (kept : ∀ taken, Kept (ledger taken))
    (takes : ∀ (bus : Bus η) (sent : List Letter) (taken : List Pending), ledger taken bus sent →
      ledger (taken ++ bus.pending.takeWhile (isDue bus.clock))
        { bus with pending := bus.pending.dropWhile (isDue bus.clock) } sent)
    (behaviour : Behaviour η ω) {taken : List Pending} (sent : List Letter)
    (initially : ledger taken peer.bus sent) (step : PeerStep η) :
    ledger (taken ++ peer.dispatched step) (peer.advance behaviour step).bus
      (sent ++ peer.mail behaviour step) := by
  have still : ledger (taken ++ []) peer.bus sent := by
    rw [List.append_nil]
    exact initially
  have keeps := kept (taken ++ [])
  cases step with
  | request request => exact keeps.perform still request
  | acquire service => exact keeps.unmoved (keeps.acquire still service) rfl rfl
  | release service => exact keeps.unmoved (keeps.release still service) rfl rfl
  | synchronize isSynchronized => exact keeps.unmoved still rfl rfl
  | setClock time => exact keeps.unmoved still rfl rfl
  | note notice => exact keeps.unmoved still rfl rfl
  | poll => exact (kept _).deliverAll behaviour (takes peer.bus sent taken initially) _

end Bus.Kept

end AudioBus
