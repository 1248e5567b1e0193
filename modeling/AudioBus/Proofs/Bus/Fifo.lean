import AudioBus.Proofs.Bus.Traffic

/-!
What one client posts on a bus, among all that others send: the frames it posted are taken off
the schedule in the order in which it posted them, if none is due before those that still wait.
-/

namespace AudioBus

namespace Bus

variable {η : Type}

/-- Of the frames `posted` by a client some were taken off the schedule, the others wait, each
in the order of posting.  All that were taken from the schedule are `taken`, and what waits of the
client's is due at the frontier or before it. -/
structure InOrder (bus : Bus η) (posted taken : List Pending) (frontier : Int) : Prop where
  ordered : Ordered bus.pending
  pendingNumbered : ∀ entry ∈ bus.pending, entry.sequence < bus.sent
  takenNumbered : ∀ entry ∈ taken, entry.sequence < bus.sent
  postedNumbered : ∀ entry ∈ posted, entry.sequence < bus.sent
  inOrder : taken.filter (· ∈ posted) ++ bus.pending.filter (· ∈ posted) = posted
  bounded : ∀ entry ∈ bus.pending, entry ∈ posted → entry.due.orderKey ≤ frontier

namespace InOrder

variable {bus : Bus η} {posted taken : List Pending} {frontier : Int}

theorem of_idle {bus : Bus η} (idle : bus.pending = []) (frontier : Int) :
    bus.InOrder [] [] frontier := by
  have none : ∀ entry ∈ ([] : List Pending), entry.sequence < bus.sent := by
    intro entry isMember
    cases isMember
  constructor
  case ordered =>
    rw [idle]
    exact List.Pairwise.nil
  case pendingNumbered =>
    rw [idle]
    exact none
  case takenNumbered => exact none
  case postedNumbered => exact none
  case inOrder =>
    rw [idle]
    rfl
  case bounded =>
    intro entry isPending isPosted
    cases isPosted

theorem create (peerName : String) (clock : Seconds) (frontier : Int) :
    (Bus.create (η := η) peerName clock).InOrder [] [] frontier :=
  of_idle rfl frontier

theorem of_same (inOrder : bus.InOrder posted taken frontier) (other : Bus η)
    (samePending : other.pending = bus.pending) (sameSent : other.sent = bus.sent) :
    other.InOrder posted taken frontier := by
  constructor
  · rw [samePending]
    exact inOrder.ordered
  · rw [samePending, sameSent]
    exact inOrder.pendingNumbered
  · rw [sameSent]
    exact inOrder.takenNumbered
  · rw [sameSent]
    exact inOrder.postedNumbered
  · rw [samePending]
    exact inOrder.inOrder
  · rw [samePending]
    exact inOrder.bounded

theorem forget_taken (inOrder : bus.InOrder [] taken frontier) :
    bus.InOrder [] [] frontier := by
  constructor
  case ordered => exact inOrder.ordered
  case pendingNumbered => exact inOrder.pendingNumbered
  case takenNumbered => exact inOrder.postedNumbered
  case postedNumbered => exact inOrder.postedNumbered
  case inOrder =>
    apply List.filter_eq_nil_iff.mpr
    intro entry isPending isPosted
    cases of_decide_eq_true isPosted
  case bounded => exact inOrder.bounded

theorem mono (inOrder : bus.InOrder posted taken frontier) {further : Int}
    (le : frontier ≤ further) : bus.InOrder posted taken further :=
  { inOrder with
    bounded := fun entry isPending isPosted =>
      Int.le_trans (inOrder.bounded entry isPending isPosted) le }

theorem fresh_entry {entries : List Pending} (message : Message)
    (numbered : ∀ entry ∈ entries, entry.sequence < bus.sent) : bus.entry message ∉ entries :=
  fun isMember => Nat.lt_irrefl bus.sent (numbered _ isMember)

theorem numbered_send (message : Message) {entries : List Pending}
    (numbered : ∀ entry ∈ entries, entry.sequence < bus.sent) :
    ∀ entry ∈ entries, entry.sequence < (bus.send message).sent :=
  fun entry isMember => Nat.lt_succ_of_lt (numbered entry isMember)

theorem pendingNumbered_send (message : Message)
    (numbered : ∀ entry ∈ bus.pending, entry.sequence < bus.sent) :
    ∀ entry ∈ (bus.send message).pending, entry.sequence < (bus.send message).sent := by
  intro entry isPending
  rcases mem_schedule.mp isPending with isNew | isOld
  · rw [isNew]
    exact Nat.lt_succ_self bus.sent
  · exact Nat.lt_succ_of_lt (numbered entry isOld)

theorem send_other (inOrder : bus.InOrder posted taken frontier) (message : Message) :
    (bus.send message).InOrder posted taken frontier := by
  have notPosted := fresh_entry message inOrder.postedNumbered
  constructor
  case ordered => exact inOrder.ordered.schedule inOrder.pendingNumbered
  case pendingNumbered => exact pendingNumbered_send message inOrder.pendingNumbered
  case takenNumbered => exact numbered_send message inOrder.takenNumbered
  case postedNumbered => exact numbered_send message inOrder.postedNumbered
  case inOrder =>
    rw [send_pending, filter_schedule_of_not bus.pending (decide_eq_false notPosted)]
    exact inOrder.inOrder
  case bounded =>
    intro entry isPending isPosted
    rcases mem_schedule.mp isPending with isNew | isOld
    · rw [isNew] at isPosted
      exact absurd isPosted notPosted
    · exact inOrder.bounded entry isOld isPosted

theorem filter_append_of_not_mem {entries : List Pending} {last : Pending}
    (notMember : last ∉ entries) :
    entries.filter (· ∈ posted ++ [last]) = entries.filter (· ∈ posted) := by
  apply List.filter_congr
  intro entry isMember
  have different : entry ≠ last := by
    intro same
    rw [same] at isMember
    exact notMember isMember
  apply decide_eq_decide.mpr
  rw [List.mem_append, List.mem_singleton]
  exact or_iff_left different

theorem isBefore_entry (inOrder : bus.InOrder posted taken frontier) {message : Message}
    (notBefore : frontier ≤ (bus.dueTime message).orderKey) {other : Pending}
    (isPending : other ∈ bus.pending) (isPosted : other ∈ posted) :
    other.isBefore (bus.entry message) = true := by
  have dueLe := inOrder.bounded other isPending isPosted
  have numberLt := inOrder.pendingNumbered other isPending
  rw [Pending.isBefore_iff]
  change _ < (bus.dueTime message).orderKey ∨
    _ = (bus.dueTime message).orderKey ∧ _ < bus.sent
  omega

theorem filter_send_own (inOrder : bus.InOrder posted taken frontier) {message : Message}
    (notBefore : frontier ≤ (bus.dueTime message).orderKey) :
    (bus.send message).pending.filter (· ∈ posted ++ [bus.entry message]) =
      bus.pending.filter (· ∈ posted) ++ [bus.entry message] := by
  have notPending := fresh_entry message inOrder.pendingNumbered
  rw [← filter_append_of_not_mem notPending, send_pending]
  apply filter_schedule_of_last inOrder.ordered
  · apply decide_eq_true
    exact List.mem_append_right _ (List.mem_singleton_self _)
  · intro other isPending isOwn
    rcases List.mem_append.mp (of_decide_eq_true isOwn) with isPosted | isNew
    · exact inOrder.isBefore_entry notBefore isPending isPosted
    · rw [List.mem_singleton.mp isNew] at isPending
      exact absurd isPending notPending

/-- The client's next frame stays behind its others when it is not due before the frontier. -/
theorem send_own (inOrder : bus.InOrder posted taken frontier) (message : Message)
    (notBefore : frontier ≤ (bus.dueTime message).orderKey) :
    (bus.send message).InOrder (posted ++ [bus.entry message]) taken
      (bus.dueTime message).orderKey := by
  constructor
  case ordered => exact inOrder.ordered.schedule inOrder.pendingNumbered
  case pendingNumbered => exact pendingNumbered_send message inOrder.pendingNumbered
  case takenNumbered => exact numbered_send message inOrder.takenNumbered
  case postedNumbered =>
    intro entry isPosted
    rcases List.mem_append.mp isPosted with isOld | isNew
    · exact Nat.lt_succ_of_lt (inOrder.postedNumbered entry isOld)
    · rw [List.mem_singleton.mp isNew]
      exact Nat.lt_succ_self bus.sent
  case inOrder =>
    have notTaken := fresh_entry message inOrder.takenNumbered
    rw [inOrder.filter_send_own notBefore, filter_append_of_not_mem notTaken,
      ← List.append_assoc, inOrder.inOrder]
  case bounded =>
    intro entry isPending isPosted
    rcases mem_schedule.mp isPending with isNew | isOld
    · subst isNew
      exact Int.le_refl _
    · rcases List.mem_append.mp isPosted with wasPosted | isNew
      · exact Int.le_trans (inOrder.bounded entry isOld wasPosted) notBefore
      · cases List.mem_singleton.mp isNew
        exact Int.le_refl _

theorem take (inOrder : bus.InOrder posted taken frontier) (isDue : Pending → Bool) :
    { bus with pending := bus.pending.dropWhile isDue }.InOrder posted
      (taken ++ bus.pending.takeWhile isDue) frontier := by
  have later : ∀ entry ∈ bus.pending.dropWhile isDue, entry ∈ bus.pending :=
    fun entry isLater => (List.dropWhile_sublist isDue).subset isLater
  constructor
  case ordered => exact inOrder.ordered.sublist (List.dropWhile_sublist isDue)
  case pendingNumbered =>
    intro entry isLater
    exact inOrder.pendingNumbered entry (later entry isLater)
  case takenNumbered =>
    intro entry isTaken
    rcases List.mem_append.mp isTaken with wasTaken | isDueNow
    · exact inOrder.takenNumbered entry wasTaken
    · exact inOrder.pendingNumbered entry ((List.takeWhile_sublist isDue).subset isDueNow)
  case postedNumbered => exact inOrder.postedNumbered
  case inOrder =>
    change (taken ++ bus.pending.takeWhile isDue).filter (· ∈ posted) ++
      (bus.pending.dropWhile isDue).filter (· ∈ posted) = posted
    rw [List.filter_append, List.append_assoc, ← List.filter_append,
      List.takeWhile_append_dropWhile]
    exact inOrder.inOrder
  case bounded =>
    intro entry isLater
    exact inOrder.bounded entry (later entry isLater)

theorem taken_prefix (inOrder : bus.InOrder posted taken frontier) :
    taken.filter (· ∈ posted) <+: posted :=
  ⟨bus.pending.filter (· ∈ posted), inOrder.inOrder⟩

theorem taken_or_pending (inOrder : bus.InOrder posted taken frontier) {entry : Pending}
    (isPosted : entry ∈ posted) : entry ∈ taken ∨ entry ∈ bus.pending := by
  rw [← inOrder.inOrder] at isPosted
  rcases List.mem_append.mp isPosted with isTaken | isPending
  · exact Or.inl (List.mem_filter.mp isTaken).1
  · exact Or.inr (List.mem_filter.mp isPending).1

theorem note (inOrder : bus.InOrder posted taken frontier) (notice : Notice) :
    (bus.note notice).InOrder posted taken frontier :=
  inOrder.of_same _ rfl rfl

theorem kept (posted taken : List Pending) (frontier : Int) :
    Kept fun (bus : Bus η) _ => bus.InOrder posted taken frontier where
  send _ _ message inOrder := inOrder.send_other message
  same _ other _ inOrder samePending sameSent := inOrder.of_same other samePending sameSent

end InOrder

end Bus

namespace Peer

variable {η ω : Type}

/-- Nothing that others do puts the client's frames out of order. -/
theorem advance_inOrder (behaviour : Behaviour η ω) {peer : Peer η ω} {posted taken : List Pending}
    {frontier : Int} (step : PeerStep η) (inOrder : peer.bus.InOrder posted taken frontier) :
    (peer.advance behaviour step).bus.InOrder posted (taken ++ peer.dispatched step) frontier := by
  have takes : ∀ (bus : Bus η) (sent : List Letter) (taken : List Pending),
      bus.InOrder posted taken frontier →
        { bus with pending := bus.pending.dropWhile (Bus.isDue bus.clock) }.InOrder posted
          (taken ++ bus.pending.takeWhile (Bus.isDue bus.clock)) frontier :=
    fun _ _ _ inOrder => inOrder.take _
  have keeps := fun taken => Bus.InOrder.kept (η := η) posted taken frontier
  exact Bus.Kept.advance keeps takes behaviour [] inOrder step

theorem Reached.inOrder {behaviour : Behaviour η ω} {peer : Peer η ω}
    (reached : Reached behaviour peer) (frontier : Int) :
    ∃ taken, peer.bus.InOrder [] taken frontier := by
  induction reached with
  | created peerName clock outside => exact ⟨[], Bus.InOrder.create peerName clock frontier⟩
  | step step reached inductionHypothesis =>
      obtain ⟨taken, inOrder⟩ := inductionHypothesis
      exact ⟨_, advance_inOrder behaviour step inOrder⟩

end Peer

end AudioBus
