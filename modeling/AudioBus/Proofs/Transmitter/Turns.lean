import AudioBus.Proofs.Transmitter.OnBus

/-!
Taking turns.  A stream is open after a sync or a block of it, and not after a close.  A transmitter
sends blocks and closes only while its stream is open.
-/

namespace AudioBus

namespace StreamEvent

def opens : StreamEvent → Bool
  | .sync _ _ | .push _ _ => true
  | .close _ => false

end StreamEvent

def openAfter (isOpen : Bool) (told : List StreamEvent) : Bool :=
  told.foldl (fun _ event => event.opens) isOpen

/-- Whether all events but syncs come while their stream is open. -/
def InTurn (isOpen : Bool) : List StreamEvent → Prop
  | [] => True
  | event :: rest => (event.method ≠ .sync → isOpen = true) ∧ InTurn event.opens rest

theorem openAfter_append (isOpen : Bool) (told : List StreamEvent) (event : StreamEvent) :
    openAfter isOpen (told ++ [event]) = event.opens :=
  List.foldl_append

theorem openAfter_iff (told : List StreamEvent) :
    openAfter false told = true ↔
      ∃ event, told.getLast? = some event ∧ event.method ≠ .close := by
  rcases List.eq_nil_or_concat told with nothing | ⟨earlier, last, toldEq⟩
  · rw [nothing]
    exact ⟨fun isOpen => absurd isOpen Bool.false_ne_true, fun ⟨_, isLast, _⟩ => nomatch isLast⟩
  · rw [toldEq, List.concat_eq_append, openAfter_append, List.getLast?_concat]
    constructor
    · intro isOpen
      refine ⟨last, rfl, ?_⟩
      intro isClose
      cases last with
      | close id => exact Bool.false_ne_true isOpen
      | sync id time => cases isClose
      | push id samples => cases isClose
    · rintro ⟨event, isLast, notClose⟩
      cases isLast
      cases last with
      | close id => exact absurd rfl notClose
      | sync id time => rfl
      | push id samples => rfl

theorem inTurn_append {isOpen : Bool} {told : List StreamEvent} {event : StreamEvent} :
    InTurn isOpen (told ++ [event]) ↔
      InTurn isOpen told ∧ (event.method ≠ .sync → openAfter isOpen told = true) := by
  induction told generalizing isOpen with
  | nil => exact ⟨fun inTurn => ⟨trivial, inTurn.1⟩, fun inTurn => ⟨inTurn.2, trivial⟩⟩
  | cons first rest inductionHypothesis =>
      change _ ∧ InTurn first.opens (rest ++ [event]) ↔ (_ ∧ _) ∧ _
      rw [inductionHypothesis, and_assoc]
      rfl

theorem InTurn.of_prefix {isOpen : Bool} {part whole : List StreamEvent}
    (inTurn : InTurn isOpen whole) (isPart : part <+: whole) : InTurn isOpen part := by
  induction part generalizing isOpen whole with
  | nil => trivial
  | cons first rest inductionHypothesis =>
      obtain ⟨more, wholeEq⟩ := isPart
      rw [← wholeEq] at inTurn
      exact ⟨inTurn.1, inductionHypothesis inTurn.2 ⟨more, rfl⟩⟩

/-- What a transmitter has said: events of its own stream, each in its turn. -/
structure Transmitter.TakesTurns (transmitter : Transmitter) (said : List StreamEvent) : Prop where
  announced : transmitter.announced = openAfter false said
  inTurn : InTurn false said
  identity : ∀ event ∈ said, event.id = transmitter.id

namespace Transmitter.TakesTurns

variable {said : List StreamEvent}

theorem say {transmitter later : Transmitter} (turns : transmitter.TakesTurns said)
    {event : StreamEvent} (own : event.id = transmitter.id)
    (timely : event.method ≠ .sync → transmitter.announced = true)
    (sameId : later.id = transmitter.id) (announced : later.announced = event.opens) :
    later.TakesTurns (said ++ [event]) where
  announced := announced.trans (openAfter_append false said event).symm
  inTurn := by
    refine inTurn_append.mpr ⟨turns.inTurn, ?_⟩
    rw [← turns.announced]
    exact timely
  identity := by
    intro other isSaid
    rw [sameId]
    rcases List.mem_append.mp isSaid with wasSaid | isNew
    · exact turns.identity other wasSaid
    · rw [List.mem_singleton.mp isNew]
      exact own

variable {κ : Type} [Link κ] {sender next : Sender κ}

theorem move {happened : List (Occurrence κ)} (turns : sender.transmitter.TakesTurns said)
    (move : Sender.Move sender happened next) :
    next.transmitter.TakesTurns (said ++ happened.filterMap Occurrence.event?) := by
  have quiet : sender.transmitter.TakesTurns (said ++ []) := by
    rw [List.append_nil]
    exact turns
  cases move with
  | looked => exact quiet
  | awaited link seen => exact quiet
  | noted notice => exact quiet
  | begun timeless => exact ⟨quiet.announced, quiet.inTurn, quiet.identity⟩
  | led length => exact ⟨quiet.announced, quiet.inTurn, quiet.identity⟩
  | declared link timed taken => exact turns.say rfl (absurd rfl) rfl rfl
  | restarted time link timed taken => exact turns.say rfl (absurd rfl) rfl rfl
  | refused time timed => exact ⟨quiet.announced, quiet.inTurn, quiet.identity⟩
  | delivered block link isOpen nonempty taken =>
      exact turns.say rfl (fun _ => isOpen) rfl isOpen
  | ended link isOpen notClosed taken => exact turns.say rfl (fun _ => isOpen) rfl rfl

theorem perform (turns : sender.transmitter.TakesTurns said) (call : TransmitterCall) :
    (sender.perform call).transmitter.TakesTurns
      (said ++ (sender.history call).filterMap Occurrence.event?) := by
  have moveKeeps : ∀ (past : List (Occurrence κ)) (sender : Sender κ)
      (happened : List (Occurrence κ)) (next : Sender κ),
      sender.transmitter.TakesTurns (said ++ past.filterMap Occurrence.event?) →
        Sender.Move sender happened next →
          next.transmitter.TakesTurns
            (said ++ (past ++ happened).filterMap Occurrence.event?) := by
    intro past sender happened next holds move
    rw [List.filterMap_append, ← List.append_assoc]
    exact holds.move move
  have initially : sender.transmitter.TakesTurns
      (said ++ ([] : List (Occurrence κ)).filterMap Occurrence.event?) := by
    rw [List.filterMap_nil, List.append_nil]
    exact turns
  exact (sender.path_perform call).preserves moveKeeps [] initially

end Transmitter.TakesTurns

namespace Sender

variable {κ : Type} [Link κ]

theorem mem_blockHistory {sender : Sender κ} {cut : List (List Sample)} {event : StreamEvent}
    (isSaid : event ∈ (sender.blockHistory cut).filterMap Occurrence.event?) :
    event.samples ∈ cut := by
  induction cut generalizing sender with
  | nil => cases isSaid
  | cons block rest inductionHypothesis =>
      unfold blockHistory at isSaid
      cases outcome : sender.sendBlock block with
      | error cause =>
          rw [outcome] at isSaid
          cases isSaid
      | ok sent =>
          rw [outcome] at isSaid
          rcases List.mem_cons.mp isSaid with isFirst | isLater
          · rw [isFirst]
            exact List.mem_cons_self
          · exact List.mem_cons_of_mem _ (inductionHypothesis isLater)

theorem samples_lt_of_mem_history (sender : Sender κ) {call : TransmitterCall} {event : StreamEvent}
    (isSaid : event ∈ (sender.history call).filterMap Occurrence.event?) :
    event.samples.length < 2 ^ 64 := by
  have short {size : SampleCount} {samples : List Sample}
      (isBlock : event.samples ∈ blocks size samples) : event.samples.length < 2 ^ 64 :=
    Nat.lt_of_le_of_lt (length_le_of_mem_blocks isBlock) size.count_lt
  have blockless : ([] : List Sample).length < 2 ^ 64 := by decide
  cases call with
  | awaitSync => cases isSaid
  | setTransmitAhead length => cases isSaid
  | setStreamTime time =>
      simp only [history] at isSaid
      split at isSaid
      · cases isSaid
      · split at isSaid
        · cases isSaid
        · rw [List.mem_singleton.mp isSaid]
          exact blockless
  | push samples =>
      simp only [history] at isSaid
      split at isSaid
      · cases isSaid
      · split at isSaid
        · cases isSaid
        · split at isSaid
          · cases isSaid
          · rw [List.filterMap_append] at isSaid
            rcases List.mem_append.mp isSaid with isDeclaration | isBlock
            · split at isDeclaration
              · cases isDeclaration
              · rw [List.mem_singleton.mp isDeclaration]
                exact blockless
            · exact short (mem_blockHistory isBlock)
  | close =>
      simp only [history] at isSaid
      split at isSaid
      · cases isSaid
      · split at isSaid
        · cases isSaid
        · rw [List.mem_singleton.mp isSaid]
          exact blockless

end Sender

end AudioBus
