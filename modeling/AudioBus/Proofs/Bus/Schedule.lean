import AudioBus.Bus.Delivery
import AudioBus.Proofs.Binary.Order

/-!
The schedule of a bus is in the order of delivery, whatever is sent and delivered on it.
-/

namespace AudioBus

/-- When a message with this timestamp is due, if it is sent now. -/
def dueAt (now timestamp : Seconds) : Seconds :=
  if Binary.zero.less timestamp then timestamp else now

theorem Bus.dueTime_eq {η : Type} (bus : Bus η) (message : Message) :
    bus.dueTime message = dueAt bus.clock message.timestamp := by
  unfold dueTime Message.isImmediate dueAt
  cases Binary.zero.less message.timestamp <;> rfl

theorem Pending.isBefore_iff {first second : Pending} :
    first.isBefore second = true ↔
      first.due.orderKey < second.due.orderKey ∨
        first.due.orderKey = second.due.orderKey ∧ first.sequence < second.sequence := by
  unfold isBefore
  rw [Bool.or_eq_true, Bool.and_eq_true, decide_eq_true_iff, decide_eq_true_iff,
    decide_eq_true_iff]

theorem Pending.isBefore_trans {first second third : Pending}
    (firstSecond : first.isBefore second = true) (secondThird : second.isBefore third = true) :
    first.isBefore third = true := by
  rw [isBefore_iff] at firstSecond secondThird ⊢
  omega

theorem Pending.not_isBefore_of_isBefore {first second : Pending}
    (firstSecond : first.isBefore second = true) : second.isBefore first = false := by
  cases secondFirst : second.isBefore first with
  | false => rfl
  | true =>
      rw [isBefore_iff] at firstSecond secondFirst
      omega

/-- Of two frames the one sent earlier comes first, unless it is due later. -/
theorem Pending.isBefore_of_sequence_lt {first second : Pending}
    (sequenceLt : first.sequence < second.sequence) (notLater : second.isBefore first = false) :
    first.isBefore second = true := by
  cases firstSecond : first.isBefore second with
  | true => rfl
  | false =>
      have secondNot := mt isBefore_iff.mpr (Bool.not_eq_true _ |>.mpr notLater)
      have firstNot := mt isBefore_iff.mpr (Bool.not_eq_true _ |>.mpr firstSecond)
      omega

def Ordered (pending : List Pending) : Prop :=
  pending.Pairwise fun first second => first.isBefore second = true

theorem mem_schedule {entry other : Pending} {pending : List Pending} :
    other ∈ schedule entry pending ↔ other = entry ∨ other ∈ pending := by
  induction pending with
  | nil =>
      unfold schedule
      rw [List.mem_cons]
  | cons first rest inductionHypothesis =>
      unfold schedule
      split
      · rw [List.mem_cons]
      · rw [List.mem_cons, inductionHypothesis, List.mem_cons]
        exact or_left_comm

theorem Ordered.schedule {entry : Pending} {pending : List Pending} (ordered : Ordered pending)
    (latest : ∀ other ∈ pending, other.sequence < entry.sequence) :
    Ordered (schedule entry pending) := by
  induction pending with
  | nil => exact List.pairwise_singleton _ _
  | cons first rest inductionHypothesis =>
      obtain ⟨firstBefore, restOrdered⟩ := List.pairwise_cons.mp ordered
      unfold AudioBus.schedule
      split
      · rename_i entryBefore
        apply List.Pairwise.cons _ ordered
        intro other isMember
        rcases List.mem_cons.mp isMember with isFirst | isLater
        · rw [isFirst]
          exact entryBefore
        · exact Pending.isBefore_trans entryBefore (firstBefore other isLater)
      · rename_i notBefore
        have restLatest : ∀ other ∈ rest, other.sequence < entry.sequence :=
          fun other isMember => latest other (List.mem_cons_of_mem first isMember)
        apply List.Pairwise.cons _ (inductionHypothesis restOrdered restLatest)
        intro other isMember
        rcases mem_schedule.mp isMember with isEntry | isLater
        · rw [isEntry]
          exact Pending.isBefore_of_sequence_lt (latest first List.mem_cons_self)
            (Bool.not_eq_true _ |>.mp notBefore)
        · exact firstBefore other isLater

theorem filter_schedule_of_not {chosen : Pending → Bool} {entry : Pending}
    (pending : List Pending) (notChosen : chosen entry = false) :
    (schedule entry pending).filter chosen = pending.filter chosen := by
  have entrySkipped : ¬ chosen entry = true := Bool.not_eq_true _ |>.mpr notChosen
  induction pending with
  | nil => exact List.filter_cons_of_neg entrySkipped
  | cons first rest inductionHypothesis =>
      unfold schedule
      split
      · exact List.filter_cons_of_neg entrySkipped
      · rw [List.filter_cons, List.filter_cons, inductionHypothesis]

theorem filter_schedule_of_last {chosen : Pending → Bool} {entry : Pending}
    {pending : List Pending} (ordered : Ordered pending) (isChosen : chosen entry = true)
    (last : ∀ other ∈ pending, chosen other = true → other.isBefore entry = true) :
    (schedule entry pending).filter chosen = pending.filter chosen ++ [entry] := by
  induction pending with
  | nil => exact List.filter_cons_of_pos isChosen
  | cons first rest inductionHypothesis =>
      obtain ⟨firstBefore, restOrdered⟩ := List.pairwise_cons.mp ordered
      unfold schedule
      split
      · rename_i entryBefore
        have noneChosen : (first :: rest).filter chosen = [] := by
          apply List.filter_eq_nil_iff.mpr
          intro other isMember otherChosen
          have otherBefore := last other isMember otherChosen
          have entryBeforeOther : entry.isBefore other = true := by
            rcases List.mem_cons.mp isMember with isFirst | isLater
            · rw [isFirst]
              exact entryBefore
            · exact Pending.isBefore_trans entryBefore (firstBefore other isLater)
          rw [Pending.not_isBefore_of_isBefore entryBeforeOther] at otherBefore
          contradiction
        rw [List.filter_cons_of_pos isChosen, noneChosen]
        rfl
      · have restLast : ∀ other ∈ rest, chosen other = true → other.isBefore entry = true :=
          fun other isMember => last other (List.mem_cons_of_mem first isMember)
        rw [List.filter_cons, List.filter_cons, inductionHypothesis restOrdered restLast]
        split <;> rfl

theorem schedule_perm (entry : Pending) (pending : List Pending) :
    (schedule entry pending).Perm (entry :: pending) := by
  induction pending with
  | nil => exact List.Perm.refl _
  | cons first rest inductionHypothesis =>
      unfold schedule
      split
      · exact List.Perm.refl _
      · exact (inductionHypothesis.cons first).trans (List.Perm.swap entry first rest)

theorem append_schedule_perm {taken pending posted : List Pending}
    (balanced : (taken ++ pending).Perm posted) (entry : Pending) :
    (taken ++ schedule entry pending).Perm (posted ++ [entry]) := by
  calc List.Perm (taken ++ schedule entry pending) (taken ++ entry :: pending) :=
        (schedule_perm entry pending).append_left taken
    List.Perm _ (entry :: (taken ++ pending)) := List.perm_middle
    List.Perm _ (entry :: posted) := balanced.cons entry
    List.Perm _ (posted ++ [entry]) := (List.perm_append_singleton entry posted).symm

theorem Bus.isDue_iff {now : Seconds} {entry : Pending} (nowNumber : now.isNaN = false)
    (dueNumber : entry.due.isNaN = false) :
    Bus.isDue now entry = true ↔ entry.due.atMost now = true := by
  unfold Bus.isDue
  rw [Bool.not_eq_true', Binary.atMost_iff]
  constructor
  · intro notLess
    exact ⟨dueNumber, nowNumber, Binary.rank_le_of_not_less nowNumber dueNumber notLess⟩
  · rintro ⟨_, _, rankLe⟩
    apply Bool.not_eq_true _ |>.mp
    intro isLess
    exact absurd (Binary.less_iff.mp isLess).2.2 (Int.not_lt.mpr rankLe)

theorem isDue_of_isBefore {now : Seconds} {first second : Pending}
    (isBefore : first.isBefore second = true) (firstNumber : first.due.isNaN = false)
    (secondNumber : second.due.isNaN = false) (secondDue : Bus.isDue now second = true) :
    Bus.isDue now first = true := by
  unfold Bus.isDue at secondDue ⊢
  rw [Bool.not_eq_true'] at secondDue ⊢
  apply Bool.not_eq_true _ |>.mp
  intro firstLater
  obtain ⟨nowNumber, _, nowLt⟩ := Binary.less_iff.mp firstLater
  have secondLe := Binary.rank_le_of_not_less nowNumber secondNumber secondDue
  have keyLt : second.due.orderKey < first.due.orderKey := by
    apply Binary.orderKey_lt_of_less
    exact Binary.less_iff.mpr ⟨secondNumber, firstNumber, Int.lt_of_le_of_lt secondLe nowLt⟩
  have keyLe := Pending.isBefore_iff.mp isBefore
  omega

theorem Ordered.due_eq {pending : List Pending} (ordered : Ordered pending)
    (numbers : ∀ entry ∈ pending, entry.due.isNaN = false) (now : Seconds) :
    pending.takeWhile (Bus.isDue now) = pending.filter (Bus.isDue now) ∧
      pending.dropWhile (Bus.isDue now) = pending.filter fun entry => !Bus.isDue now entry := by
  induction pending with
  | nil => exact ⟨rfl, rfl⟩
  | cons first rest inductionHypothesis =>
      obtain ⟨firstBefore, restOrdered⟩ := List.pairwise_cons.mp ordered
      have restNumbers : ∀ entry ∈ rest, entry.due.isNaN = false :=
        fun entry isMember => numbers entry (List.mem_cons_of_mem first isMember)
      by_cases firstDue : Bus.isDue now first = true
      · obtain ⟨taken, left⟩ := inductionHypothesis restOrdered restNumbers
        simp only [List.takeWhile_cons, List.dropWhile_cons, List.filter_cons, firstDue, if_true,
          Bool.not_true, Bool.false_eq_true, if_false]
        exact ⟨congrArg (first :: ·) taken, left⟩
      · have noneDue : ∀ entry ∈ rest, ¬ Bus.isDue now entry = true := by
          intro entry isMember entryDue
          exact firstDue (isDue_of_isBefore (firstBefore entry isMember)
            (numbers first List.mem_cons_self) (restNumbers entry isMember) entryDue)
        have restKept : rest.filter (fun entry => !Bus.isDue now entry) = rest := by
          apply List.filter_eq_self.mpr
          intro entry isMember
          rw [Bool.not_eq_true _ |>.mp (noneDue entry isMember)]
          rfl
        simp only [List.takeWhile_cons, List.dropWhile_cons, List.filter_cons, firstDue, if_false,
          Bool.false_eq_true, Bool.not_false, if_true]
        exact ⟨(List.filter_eq_nil_iff.mpr noneDue).symm, congrArg (first :: ·) restKept.symm⟩

end AudioBus
