import AudioBus.Proofs.Mixer.Solo
import AudioBus.Proofs.Receiver.Binding
import AudioBus.Proofs.Transmitter.OnBus

/-!
A receiver that hears a single transmitter.  Its methods give every event to its mixer, which is
idle until the sync and plays the samples of the stream from then on.
-/

namespace AudioBus

/-- What is told of an event: which method it calls, and how many samples it brings. -/
def StreamEvent.gist (event : StreamEvent) : StreamMethod × Nat :=
  (event.method, event.samples.length)

namespace Applied

def gist : Applied → StreamMethod × Nat
  | .declared _ _ _ => (.sync, 0)
  | .taken _ length _ => (.push, length)
  | .closed _ _ => (.close, 0)

def isEarly : Applied → Bool
  | .taken _ _ how => how.placement.isEarly
  | .declared _ _ _ | .closed _ _ => false

end Applied

theorem Mixer.apply_gist (mixer : Mixer Seconds) (event : StreamEvent) :
    (mixer.apply event).2.gist = event.gist := by
  cases event with
  | sync id time => rfl
  | push id samples => rfl
  | close id => rfl

/-- The mixer of a receiver, with the outcome of every event that it was given. -/
structure Reception where
  mixer : Mixer Seconds
  outcomes : List Applied

namespace Reception

def hear (reception : Reception) (event : StreamEvent) : Reception where
  mixer := (reception.mixer.apply event).1
  outcomes := reception.outcomes ++ [(reception.mixer.apply event).2]

/-- Whether no block reached beyond the ring. -/
def Calm (reception : Reception) : Prop :=
  ∀ outcome ∈ reception.outcomes, outcome.isEarly = false

instance : DecidablePred Calm :=
  fun reception => inferInstanceAs (Decidable (∀ outcome ∈ reception.outcomes, _))

theorem hearAll_outcomes (reception : Reception) (events : List StreamEvent) :
    reception.outcomes <+: (events.foldl hear reception).outcomes := by
  induction events generalizing reception with
  | nil => exact List.prefix_refl _
  | cons event rest inductionHypothesis =>
      exact (List.prefix_append _ _).trans (inductionHypothesis (reception.hear event))

end Reception

/-- How the methods of a receiver react: each gives its calls to the mixer. -/
def listening : Behaviour StreamMethod Reception :=
  fun method message _ reception =>
    let (next, notices) := reception.mixer.receive method message
    { outside :=
        { mixer := next
          outcomes :=
            match StreamEvent.ofArguments method message.arguments with
            | .error _ => reception.outcomes
            | .ok event => reception.outcomes ++ [(reception.mixer.apply event).2] }
      notices := notices
      requests := [] }

theorem listening_call (event : StreamEvent) (address : String) (timestamp now : Seconds)
    (reception : Reception) :
    (listening event.method (event.call address timestamp) now reception).outside =
      reception.hear event := by
  unfold listening Mixer.receive
  change Reception.mk _ _ = _
  simp only [StreamEvent.call, StreamEvent.ofArguments_toArguments]
  rfl

namespace Bus

variable {η : Type}

theorem noteAll_alike (bus : Bus η) (notices : List Notice) :
    bus.Alike (bus.noteAll notices) ∧ (bus.noteAll notices).pending = bus.pending := by
  induction notices generalizing bus with
  | nil => exact ⟨Alike.refl bus, rfl⟩
  | cons notice rest inductionHypothesis =>
      obtain ⟨alike, samePending⟩ := inductionHypothesis (bus.note notice)
      have noted : bus.Alike (bus.note notice) := ⟨rfl, rfl, rfl, rfl⟩
      exact ⟨noted.trans alike, samePending⟩

end Bus

/-- An address below which a receiver's methods may be bound, and not too long for a frame. -/
structure Line (address : String) : Prop where
  valid : ∀ method : StreamMethod, isAddress (joinAddresses address method.name) = true
  countable : ∀ method : StreamMethod,
    (bytesOfText (joinAddresses address method.name)).length < 2 ^ 64

namespace Peer

variable {peer : Peer StreamMethod Reception} {address : String}

theorem deliver_hear (line : Line address)
    (bound : Receiver.Bound peer.bus (fun method => method) address) {entry : Pending}
    {event : StreamEvent} (bears : Bears address entry event)
    (block : event.samples.length < 2 ^ 64) :
    (peer.deliver listening entry.frame).1.outside = peer.outside.hear event ∧
      peer.bus.Alike (peer.deliver listening entry.frame).1.bus ∧
      (peer.deliver listening entry.frame).1.bus.pending = peer.bus.pending := by
  obtain ⟨timestamp, frameEq⟩ := bears
  have countable := StreamEvent.call_countable timestamp (line.countable event.method) block
  have accepted : peer.bus.judge entry.frame =
      .accepted (event.call address timestamp) event.method := by
    have isFound : peer.bus.methods.find? (event.call address timestamp).path =
        some { signature := event.method.signature, handler := event.method } :=
      bound event.method
    have isTaken : event.method.signature.accepts (event.call address timestamp).arguments = true :=
      event.accepts_toArguments
    unfold Bus.judge
    rw [frameEq, Message.decode_encode countable]
    simp only [isFound, isTaken, if_true]
  unfold deliver
  rw [accepted]
  obtain ⟨alike, samePending⟩ := peer.bus.noteAll_alike
    (listening event.method (event.call address timestamp) peer.bus.clock peer.outside).notices
  exact ⟨listening_call event address timestamp peer.bus.clock peer.outside, alike, samePending⟩

theorem deliverAll_hear (peer : Peer StreamMethod Reception) (line : Line address)
    (bound : Receiver.Bound peer.bus (fun method => method) address) {batch : List Pending}
    {events : List StreamEvent} (bear : List.Forall₂ (Bears address) batch events)
    (blocks : ∀ event ∈ events, event.samples.length < 2 ^ 64) :
    (peer.deliverAll listening batch).1.outside = events.foldl Reception.hear peer.outside ∧
      peer.bus.Alike (peer.deliverAll listening batch).1.bus ∧
      (peer.deliverAll listening batch).1.bus.pending = peer.bus.pending := by
  induction bear generalizing peer with
  | nil => exact ⟨rfl, Bus.Alike.refl _, rfl⟩
  | @cons entry event laterBatch laterEvents bears _ inductionHypothesis =>
      obtain ⟨heard, alike, samePending⟩ :=
        deliver_hear line bound bears (blocks event List.mem_cons_self)
      have stillBound : Receiver.Bound (peer.deliver listening entry.frame).1.bus
          (fun method => method) address := by
        intro method
        rw [alike.methods]
        exact bound method
      obtain ⟨restHeard, restAlike, restPending⟩ := inductionHypothesis _ stillBound
        fun later isLater => blocks later (List.mem_cons_of_mem event isLater)
      refine ⟨?_, alike.trans restAlike, restPending.trans samePending⟩
      rw [List.foldl_cons, ← heard]
      exact restHeard

end Peer

theorem deliverAll_outcomes (peer : Peer StreamMethod Reception) (batch : List Pending) :
    peer.outside.outcomes <+: (peer.deliverAll listening batch).1.outside.outcomes := by
  induction batch generalizing peer with
  | nil => exact List.prefix_refl _
  | cons entry rest inductionHypothesis =>
      have first : peer.outside.outcomes <+:
          (peer.deliver listening entry.frame).1.outside.outcomes := by
        unfold Peer.deliver
        cases peer.bus.judge entry.frame with
        | undecodable cause => exact List.prefix_refl _
        | unknown message => exact List.prefix_refl _
        | refused message expected => exact List.prefix_refl _
        | accepted message method =>
            change _ <+: (match StreamEvent.ofArguments method message.arguments with
              | .error _ => peer.outside.outcomes
              | .ok event => peer.outside.outcomes ++ [(peer.outside.mixer.apply event).2])
            split
            · exact List.prefix_refl _
            · exact List.prefix_append _ _
      exact first.trans (inductionHypothesis _)

def samplesOf (told : List StreamEvent) : List Sample :=
  told.flatMap StreamEvent.samples

/-- Whether events are a sync of stream `id` and blocks of it, or none at all. -/
def TellsStream (id : StreamId) (told : List StreamEvent) : Prop :=
  told = [] ∨ ∃ (time : Seconds) (cut : List (List Sample)),
    told = .sync id time :: cut.map (StreamEvent.push id)

theorem TellsStream.of_prefix {id : StreamId} {part whole : List StreamEvent}
    (tells : TellsStream id whole) (isPart : part <+: whole) : TellsStream id part := by
  rcases tells with nothing | ⟨time, cut, wholeEq⟩
  · rw [nothing] at isPart
    exact Or.inl (List.prefix_nil.mp isPart)
  · cases part with
    | nil => exact Or.inl rfl
    | cons first rest =>
        rw [wholeEq] at isPart
        obtain ⟨firstEq, isRest⟩ := List.cons_prefix_cons.mp isPart
        refine Or.inr ⟨time, cut.take rest.length, ?_⟩
        rw [firstEq, List.map_take, ← List.prefix_iff_eq_take.mp isRest]

/-- How a reception is after it heard the events `told`.  Until the sync the mixer is idle; from
then on it plays the stream, which began at the read head of that time, `base`. -/
structure Hearing (id : StreamId) (reception : Reception) (base : Option Nat)
    (told : List StreamEvent) : Prop where
  outcomes : reception.outcomes.map Applied.gist = told.map StreamEvent.gist
  quiet : base = none → told = [] ∧ reception.mixer.Idle
  playing : ∀ start, base = some start →
    told ≠ [] ∧ reception.mixer.Solo id start (samplesOf told)

namespace Hearing

variable {id : StreamId} {reception : Reception} {base : Option Nat} {told : List StreamEvent}

theorem hear (hearing : Hearing id reception base told) {event : StreamEvent}
    (tells : TellsStream id (told ++ [event])) (calm : (reception.hear event).Calm) :
    Hearing id (reception.hear event) (some (base.getD reception.mixer.readHead.value))
        (told ++ [event]) ∧
      (reception.hear event).mixer.readHead = reception.mixer.readHead := by
  have outcomes : (reception.hear event).outcomes.map Applied.gist =
      (told ++ [event]).map StreamEvent.gist := by
    change (reception.outcomes ++ [_]).map Applied.gist = _
    rw [List.map_append, List.map_append, hearing.outcomes, List.map_singleton,
      Mixer.apply_gist]
    rfl
  have notEmpty : told ++ [event] ≠ [] :=
    List.append_ne_nil_of_right_ne_nil _ (List.cons_ne_nil _ _)
  rcases tells with nothing | ⟨time, cut, toldEq⟩
  · exact absurd nothing notEmpty
  · cases base with
    | none =>
        -- Nothing was heard before, so this is the sync.
        obtain ⟨toldNil, idle⟩ := hearing.quiet rfl
        rw [toldNil, List.nil_append] at toldEq
        rw [(List.cons.inj toldEq).1] at outcomes ⊢
        refine ⟨⟨outcomes, ?_, ?_⟩, rfl⟩
        · intro contrary
          cases contrary
        · intro start startEq
          cases startEq
          rw [toldNil]
          exact ⟨List.cons_ne_nil _ _, idle.declare id time⟩
    | some base =>
        -- The sync was heard before, and behind it there are only blocks.
        obtain ⟨toldNotNil, solo⟩ := hearing.playing base rfl
        obtain ⟨first, rest, split⟩ := List.exists_cons_of_ne_nil toldNotNil
        rw [split, List.cons_append] at toldEq
        have isBlock : event ∈ cut.map (StreamEvent.push id) := by
          rw [← (List.cons.inj toldEq).2]
          exact List.mem_append_right rest (List.mem_singleton_self event)
        obtain ⟨block, _, eventEq⟩ := List.mem_map.mp isBlock
        rw [← eventEq] at outcomes calm ⊢
        have notEarly : (reception.mixer.push id block).2.placement.isEarly = false :=
          calm _ (List.mem_append_right _ (List.mem_singleton_self _))
        refine ⟨⟨outcomes, ?_, ?_⟩, Ring.mix_readHead _ _ _⟩
        · intro contrary
          cases contrary
        · intro start startEq
          cases startEq
          refine ⟨List.append_ne_nil_of_right_ne_nil _ (List.cons_ne_nil _ _), ?_⟩
          have pushed := solo.push notEarly
          unfold samplesOf at pushed ⊢
          rw [List.flatMap_append]
          change Mixer.Solo _ id base (_ ++ (block ++ []))
          rw [List.append_nil]
          exact pushed

def baseAfter (base : Option Nat) (readHead : Nat) (events : List StreamEvent) : Option Nat :=
  if events = [] then base else some (base.getD readHead)

theorem hearAll (hearing : Hearing id reception base told) {events : List StreamEvent}
    (tells : TellsStream id (told ++ events))
    (calm : (events.foldl Reception.hear reception).Calm) :
    Hearing id (events.foldl Reception.hear reception)
        (baseAfter base reception.mixer.readHead.value events) (told ++ events) ∧
      (events.foldl Reception.hear reception).mixer.readHead = reception.mixer.readHead := by
  induction events generalizing reception base told with
  | nil =>
      rw [List.append_nil]
      exact ⟨hearing, rfl⟩
  | cons event rest inductionHypothesis =>
      rw [List.append_cons] at tells ⊢
      have firstTells := tells.of_prefix (List.prefix_append _ _)
      have firstCalm : (reception.hear event).Calm := by
        intro outcome isOutcome
        exact calm outcome ((Reception.hearAll_outcomes _ rest).subset isOutcome)
      obtain ⟨first, sameReadHead⟩ := hearing.hear firstTells firstCalm
      obtain ⟨last, restReadHead⟩ := inductionHypothesis first tells calm
      refine ⟨?_, restReadHead.trans sameReadHead⟩
      have sameBase : baseAfter (some (base.getD reception.mixer.readHead.value))
          (reception.hear event).mixer.readHead.value rest =
          baseAfter base reception.mixer.readHead.value (event :: rest) := by
        unfold baseAfter
        rw [if_neg (List.cons_ne_nil event rest)]
        split
        · rfl
        · rfl
      rw [← sameBase]
      exact last

end Hearing

end AudioBus
