import AudioBus.Bus.Delivery

/-!
What deliveries keep.  Handlers change the bus by their requests only, so what notices and requests
keep is kept by whole batches, whatever the handlers are.
-/

namespace AudioBus

variable {η ω : Type}

/-- Whether handlers ask the bus for requests of a kind only. -/
def Asks (allowed : Request η → Prop) (behaviour : Behaviour η ω) : Prop :=
  ∀ handler message now outside,
    ∀ request ∈ (behaviour handler message now outside).requests, allowed request

theorem Peer.deliver_verdict (behaviour : Behaviour η ω) (peer : Peer η ω) (frame : List UInt8) :
    (peer.deliver behaviour frame).2 = peer.bus.judge frame := by
  unfold deliver
  cases peer.bus.judge frame with
  | undecodable cause => rfl
  | unknown message => rfl
  | refused message expected => rfl
  | accepted message handler => rfl

namespace Bus

/-- What stays true of a bus when something is noted and when requests of a kind are carried out. -/
structure Persists (holds : Bus η → Prop) (allowed : Request η → Prop) : Prop where
  note : ∀ (bus : Bus η) (notice : Notice), holds bus → holds (bus.note notice)
  perform : ∀ (bus : Bus η) (request : Request η), allowed request → holds bus →
    holds (bus.perform request)

namespace Persists

variable {holds : Bus η → Prop} {allowed : Request η → Prop} {bus : Bus η}
  {behaviour : Behaviour η ω} {peer : Peer η ω}

theorem noteAll (persists : Persists holds allowed) (initially : holds bus)
    (notices : List Notice) : holds (bus.noteAll notices) := by
  induction notices generalizing bus with
  | nil => exact initially
  | cons notice rest inductionHypothesis =>
      exact inductionHypothesis (persists.note bus notice initially)

theorem performAll (persists : Persists holds allowed) (initially : holds bus)
    {requests : List (Request η)} (asked : ∀ request ∈ requests, allowed request) :
    holds (requests.foldl Bus.perform bus) := by
  induction requests generalizing bus with
  | nil => exact initially
  | cons request rest inductionHypothesis =>
      apply inductionHypothesis
      · exact persists.perform bus request (asked request List.mem_cons_self) initially
      · exact fun later isLater => asked later (List.mem_cons_of_mem request isLater)

theorem deliver (persists : Persists holds allowed) (asks : Asks allowed behaviour)
    (initially : holds peer.bus) (frame : List UInt8) :
    holds (peer.deliver behaviour frame).1.bus := by
  unfold Peer.deliver
  cases peer.bus.judge frame with
  | undecodable cause => exact persists.noteAll initially _
  | unknown message => exact persists.noteAll initially _
  | refused message expected => exact persists.noteAll initially _
  | accepted message handler =>
      exact persists.performAll (persists.noteAll initially _) (asks handler message _ _)

theorem deliverAll (persists : Persists holds allowed) (asks : Asks allowed behaviour)
    (initially : holds peer.bus) (batch : List Pending) :
    holds (peer.deliverAll behaviour batch).1.bus ∧
      ∀ verdict ∈ (peer.deliverAll behaviour batch).2,
        ∃ bus frame, holds bus ∧ verdict = bus.judge frame := by
  induction batch generalizing peer with
  | nil => exact ⟨initially, fun _ isVerdict => absurd isVerdict List.not_mem_nil⟩
  | cons entry rest inductionHypothesis =>
      obtain ⟨lastHolds, restJudged⟩ :=
        inductionHypothesis (persists.deliver asks initially entry.frame)
      refine ⟨lastHolds, ?_⟩
      intro verdict isVerdict
      rcases List.mem_cons.mp isVerdict with isFirst | isLater
      · exact ⟨peer.bus, entry.frame, initially,
          isFirst.trans (peer.deliver_verdict behaviour entry.frame)⟩
      · exact restJudged verdict isLater

end Persists

end Bus

end AudioBus
