import AudioBus.Proofs.Binary.Arithmetic
import AudioBus.Proofs.Transmitter.Protocol
import AudioBus.Proofs.Transmitter.Session

/-!
Holding an event back never delays it beyond the time at which it is meant to be heard.

The invariant is that the latest timestamp is not beyond both the present and the stream time.  An
event that is held back to it is therefore still in time, whatever it is and however the lead time
has changed, unless a restart turns the stream back.
-/

namespace AudioBus

open TransmitterConfig (isUsableDuration)

theorem usable_spec {length : Seconds} (usable : isUsableDuration length = true) :
    length.isFinite = true ∧ length.isNaN = false ∧ Binary.zero.atMost length = true ∧
      0 ≤ length.rank := by
  obtain ⟨finite, nonneg⟩ := Bool.and_eq_true _ _ |>.mp usable
  exact ⟨finite, (Binary.number_of_finite finite).1, nonneg, (Binary.atMost_iff.mp nonneg).2.2⟩

theorem TransmitterConfig.lead_usable_of_validate (config : TransmitterConfig)
    (validated : config.validate = .ok ()) : isUsableDuration config.transmitAhead = true := by
  unfold validate at validated
  split at validated
  · contradiction
  · rename_i usable
    cases outcome : isUsableDuration config.transmitAhead with
    | true => rfl
    | false => exact absurd (by rw [outcome]; rfl) usable

/-! ### Links with a steady clock -/

/-- Whether the clock of a link, if it shows a finite time from zero up, still does so later and
has not gone back. -/
def Onward {κ : Type} [Link κ] (former later : κ) : Prop :=
  isUsableDuration (Link.now former) = true →
    isUsableDuration (Link.now later) = true ∧
      (Link.now former).atMost (Link.now later) = true

/-- Nothing that an endpoint does with the link turns its clock back. -/
class SteadyLink (κ : Type) [Link κ] : Prop where
  looked : ∀ (link : κ) (service : String), Onward link (Link.status link service).2
  awaited : ∀ (link : κ) (service : String) (seen : κ),
    Link.awaitSynchronized link service = some seen → Onward link seen
  noted : ∀ (link : κ) (notice : Notice), Onward link (Link.note link notice)
  taken : ∀ (link : κ) (message : Message) (next : κ),
    Link.send link message = .ok next → Onward link next

theorem onward_of_same {κ : Type} [Link κ] {former later : κ}
    (same : Link.now later = Link.now former) : Onward former later := by
  intro usable
  obtain ⟨_, number, _, _⟩ := usable_spec usable
  rw [same]
  exact ⟨usable, Binary.atMost_iff.mpr ⟨number, number, Int.le_refl _⟩⟩

instance {η : Type} : SteadyLink (Bus η) where
  looked _ _ := onward_of_same rfl
  awaited link service seen found := by
    rw [Bus.eq_of_awaitSynchronized found]
    exact onward_of_same rfl
  noted _ _ := onward_of_same rfl
  taken _ _ _ isTaken := by
    cases isTaken
    exact onward_of_same rfl

instance {κ : Type} [Link κ] [SteadyLink κ] : SteadyLink (Ledger κ) where
  looked ledger service := SteadyLink.looked ledger.link service
  awaited ledger service seen found := by
    obtain ⟨link, isSeen, seenEq⟩ := Option.map_eq_some_iff.mp found
    rw [← seenEq]
    exact SteadyLink.awaited ledger.link service link isSeen
  noted ledger notice := SteadyLink.noted ledger.link notice
  taken ledger message next isTaken := by
    obtain ⟨link, isSent, nextEq⟩ := Ledger.send_ok isTaken
    rw [nextEq]
    exact SteadyLink.taken ledger.link message link isSent

namespace Transmitter

def elapsed (transmitter : Transmitter) : Seconds :=
  Binary.ofNat transmitter.sampleCounter / Binary.ofNat transmitter.config.sampleRate.hertz

theorem frequency_spec (rate : SampleRate) :
    (Binary.ofNat rate.hertz : Seconds).isInfinite = false ∧
      (Binary.ofNat rate.hertz : Seconds).magnitude ≠ 0 := by
  have atLeast : (Binary.ofNat 1 : Seconds).magnitude ≤
      (Binary.ofNat rate.hertz : Seconds).magnitude := Binary.magnitude_ofNat_mono rate.hertz_pos
  have atMost : (Binary.ofNat rate.hertz : Seconds).magnitude ≤
      (Binary.ofNat 0x1_0000_0000 : Seconds).magnitude :=
    Binary.magnitude_ofNat_mono (Nat.le_of_lt rate.hertz_lt)
  have lowest : 0 < (Binary.ofNat 1 : Seconds).magnitude := by decide +kernel
  have highest : (Binary.ofNat 0x1_0000_0000 : Seconds).magnitude < Format.double.infinity := by
    decide +kernel
  have bounded : (Binary.ofNat rate.hertz : Seconds).magnitude ≠ Format.double.infinity := by
    omega
  exact ⟨decide_eq_false bounded, by omega⟩

theorem elapsed_length (transmitter : Transmitter) : transmitter.elapsed.IsLength :=
  have frequency := frequency_spec transmitter.config.sampleRate
  Binary.isLength_div (Binary.isLength_ofNat _) (Binary.isLength_ofNat _) frequency.1 frequency.2

theorem elapsed_zero {transmitter : Transmitter} (atStart : transmitter.sampleCounter = 0) :
    transmitter.elapsed.magnitude = 0 := by
  obtain ⟨finite, nonzero⟩ := frequency_spec transmitter.config.sampleRate
  unfold elapsed
  rw [atStart, Binary.div_of_finite (Binary.isLength_ofNat _) (Binary.isLength_ofNat _) finite
    nonzero]
  have noUnits : (Binary.ofNat 0 : Seconds).units = 0 := by decide +kernel
  have bounded : ¬ (Binary.ofNat 0 : Seconds).isInfinite = true := by decide +kernel
  rw [if_neg bounded, noUnits, Nat.zero_mul]
  exact Format.double.nearestPattern_of_zero _

variable {transmitter : Transmitter}

theorem streamTime_number (finite : transmitter.time.isFinite = true) :
    transmitter.streamTime.isNaN = false :=
  Binary.isNaN_add finite transmitter.elapsed_length

theorem streamTime_counted (finite : transmitter.time.isFinite = true) (samples : Nat) :
    transmitter.streamTime.rank ≤
      { transmitter with
        sampleCounter := transmitter.sampleCounter + samples }.streamTime.rank := by
  obtain ⟨rateFinite, rateNonzero⟩ := frequency_spec transmitter.config.sampleRate
  apply Binary.rank_add_mono finite transmitter.elapsed_length (elapsed_length _)
  apply Binary.magnitude_div_mono (Binary.isLength_ofNat _) (Binary.isLength_ofNat _)
    (Binary.isLength_ofNat _) rateFinite rateNonzero
  exact Binary.magnitude_ofNat_mono (Nat.le_add_right _ _)

theorem streamTime_at_start (finite : transmitter.time.isFinite = true)
    (atStart : transmitter.sampleCounter = 0) :
    transmitter.streamTime.rank = transmitter.time.rank :=
  Binary.rank_add_zero finite transmitter.elapsed_length (elapsed_zero atStart)

theorem deadline_le {now time : Seconds} (number : time.isNaN = false)
    (lead : isUsableDuration transmitter.config.transmitAhead = true) :
    (transmitter.deadline now time).isNaN = false ∧
      (transmitter.deadline now time).rank ≤ max 0 time.rank := by
  obtain ⟨finite, _, nonneg, _⟩ := usable_spec lead
  obtain ⟨targetNumber, targetLe⟩ := Binary.rank_sub_le number finite nonneg
  unfold deadline
  simp only
  split
  · have zeroRank : (Binary.zero : Seconds).rank = 0 := rfl
    exact ⟨rfl, by omega⟩
  · exact ⟨targetNumber, by omega⟩

theorem holdBack_le {now time timestamp : Seconds} (clock : 0 ≤ now.rank)
    (number : timestamp.isNaN = false) (prompt : timestamp.rank ≤ max 0 time.rank)
    (waiting : transmitter.lastDeadline.rank ≤ max now.rank time.rank) :
    (transmitter.holdBack now timestamp).isNaN = false ∧
      (transmitter.holdBack now timestamp).rank ≤ max 0 time.rank := by
  unfold holdBack
  by_cases waits : now.less transmitter.lastDeadline = true
  · obtain ⟨_, lastNumber, nowLt⟩ := Binary.less_iff.mp waits
    obtain ⟨heldNumber, heldRank⟩ := Binary.rank_larger number lastNumber
    rw [if_pos waits]
    exact ⟨heldNumber, by omega⟩
  · rw [if_neg waits]
    exact ⟨number, prompt⟩

end Transmitter

theorem dueAt_le {now time timestamp : Seconds} (nowNumber : now.isNaN = false)
    (clock : 0 ≤ now.rank) (timeNumber : time.isNaN = false) (number : timestamp.isNaN = false)
    (prompt : timestamp.rank ≤ max 0 time.rank) :
    (dueAt now timestamp).atMost (now.larger time) = true := by
  obtain ⟨largerNumber, largerRank⟩ := Binary.rank_larger nowNumber timeNumber
  rw [Binary.atMost_iff]
  unfold dueAt
  split
  · exact ⟨number, largerNumber, by omega⟩
  · exact ⟨nowNumber, largerNumber, by omega⟩

/-! ### Events in time -/

namespace Sender

variable {κ : Type} [Link κ]

/-- When an event is meant to be heard: a sync at the time that it declares, a block when its
first sample is, and a close behind the last one. -/
def meantFor (speaker : Sender κ) : StreamEvent → Seconds
  | .sync _ time => time
  | .push _ _ => speaker.transmitter.streamTime
  | .close _ => speaker.transmitter.streamTime

end Sender

/-- Whether an event is due by the time at which it is meant to be heard, or at once. -/
def Occurrence.InTime {κ : Type} [Link κ] : Occurrence κ → Prop
  | .sent speaker timestamp event =>
      (dueAt speaker.now (speaker.message timestamp event).timestamp).atMost
        (speaker.now.larger (speaker.meantFor event)) = true
  | .restartRefused _ => True

namespace Sender

variable {κ : Type} [Link κ]

structure Punctual (sender : Sender κ) : Prop where
  clock : isUsableDuration sender.now = true
  time : sender.transmitter.time.isFinite = true
  lead : isUsableDuration sender.transmitter.config.transmitAhead = true
  waiting : sender.transmitter.lastDeadline.rank ≤
    max sender.now.rank sender.transmitter.streamTime.rank
  timed : sender.transmitter.announced = true → sender.transmitter.hasTime = true
  untimed : sender.transmitter.hasTime = false → sender.transmitter.lastDeadline.rank ≤ 0

namespace Punctual

variable {sender : Sender κ}

theorem streamTime_number (punctual : sender.Punctual) :
    sender.transmitter.streamTime.isNaN = false :=
  Transmitter.streamTime_number punctual.time

theorem relink (punctual : sender.Punctual) {link : κ} (onward : Onward sender.link link) :
    { sender with link := link }.Punctual := by
  obtain ⟨clock, notBack⟩ := onward punctual.clock
  have clockLe : sender.now.rank ≤ (Link.now link).rank := (Binary.atMost_iff.mp notBack).2.2
  have waiting := punctual.waiting
  constructor
  case clock => exact clock
  case time => exact punctual.time
  case lead => exact punctual.lead
  case waiting =>
    change sender.transmitter.lastDeadline.rank ≤
      max (Link.now link).rank sender.transmitter.streamTime.rank
    omega
  case timed => exact punctual.timed
  case untimed => exact punctual.untimed

theorem restart (punctual : sender.Punctual) {time : Seconds} (finite : time.isFinite = true)
    (notBefore : sender.transmitter.lastDeadline.rank ≤ max sender.now.rank time.rank) :
    (sender.restart time).Punctual := by
  have atStart : (sender.restart time).transmitter.streamTime.rank = time.rank :=
    Transmitter.streamTime_at_start finite rfl
  constructor
  case clock => exact punctual.clock
  case time => exact finite
  case lead => exact punctual.lead
  case waiting =>
    rw [atStart]
    exact notBefore
  case timed => exact punctual.timed
  case untimed => exact punctual.untimed

theorem begun (punctual : sender.Punctual) (timeless : sender.transmitter.hasTime = false) :
    sender.begun.Punctual ∧ sender.begun.transmitter.lastDeadline.rank ≤ 0 := by
  have nothingSent := punctual.untimed timeless
  obtain ⟨finite, _, _, nonneg⟩ := usable_spec punctual.clock
  have restarted := punctual.restart finite (by omega)
  refine ⟨?_, nothingSent⟩
  constructor
  case clock => exact restarted.clock
  case time => exact restarted.time
  case lead => exact restarted.lead
  case waiting => exact restarted.waiting
  case timed => exact fun _ => rfl
  case untimed => exact fun contrary => absurd contrary.symm Bool.false_ne_true

theorem count (punctual : sender.Punctual) (block : List Sample) :
    (sender.counted block).Punctual := by
  have grown := Transmitter.streamTime_counted punctual.time block.length
  have waiting := punctual.waiting
  constructor
  case clock => exact punctual.clock
  case time => exact punctual.time
  case lead => exact punctual.lead
  case waiting =>
    change _ ≤ max sender.now.rank (sender.counted block).transmitter.streamTime.rank
    change _ ≤ (sender.counted block).transmitter.streamTime.rank at grown
    change sender.transmitter.lastDeadline.rank ≤ _
    omega
  case timed => exact punctual.timed
  case untimed => exact punctual.untimed

theorem ahead_prompt (punctual : sender.Punctual) :
    sender.aheadTimestamp.isNaN = false ∧
      sender.aheadTimestamp.rank ≤ max 0 sender.transmitter.streamTime.rank :=
  Transmitter.deadline_le punctual.streamTime_number punctual.lead

theorem close_prompt (punctual : sender.Punctual) :
    sender.closeTimestamp.isNaN = false ∧
      sender.closeTimestamp.rank ≤ max 0 sender.transmitter.streamTime.rank := by
  unfold closeTimestamp
  simp only
  split
  · exact ⟨punctual.streamTime_number, Int.le_max_right _ _⟩
  · exact ⟨rfl, Int.le_max_left _ _⟩

theorem held (punctual : sender.Punctual) {timestamp : Seconds}
    (prompt : timestamp.isNaN = false ∧
      timestamp.rank ≤ max 0 sender.transmitter.streamTime.rank) :
    (sender.transmitter.holdBack sender.now timestamp).isNaN = false ∧
      (sender.transmitter.holdBack sender.now timestamp).rank ≤
        max 0 sender.transmitter.streamTime.rank :=
  Transmitter.holdBack_le (usable_spec punctual.clock).2.2.2 prompt.1 prompt.2 punctual.waiting

theorem inTime (punctual : sender.Punctual) {timestamp : Seconds}
    (prompt : timestamp.isNaN = false ∧
      timestamp.rank ≤ max 0 sender.transmitter.streamTime.rank) {event : StreamEvent}
    (meant : sender.meantFor event = sender.transmitter.streamTime) :
    (Occurrence.sent sender timestamp event).InTime := by
  obtain ⟨_, nowNumber, _, nonneg⟩ := usable_spec punctual.clock
  obtain ⟨heldNumber, heldLe⟩ := punctual.held prompt
  change (dueAt sender.now (sender.transmitter.holdBack sender.now timestamp)).atMost
    (sender.now.larger (sender.meantFor event)) = true
  rw [meant]
  exact dueAt_le nowNumber nonneg punctual.streamTime_number heldNumber heldLe

variable [SteadyLink κ]

theorem note (punctual : sender.Punctual) (notice : Notice) : (sender.note notice).Punctual :=
  punctual.relink (SteadyLink.noted sender.link notice)

theorem accept (punctual : sender.Punctual) {timestamp : Seconds} {event : StreamEvent} {link : κ}
    (timed : sender.transmitter.hasTime = true)
    (prompt : timestamp.isNaN = false ∧
      timestamp.rank ≤ max 0 sender.transmitter.streamTime.rank)
    (isTaken : Link.send sender.link (sender.message timestamp event) = .ok link) :
    (sender.accepted timestamp link).Punctual := by
  obtain ⟨clock, notBack⟩ := SteadyLink.taken _ _ _ isTaken punctual.clock
  obtain ⟨_, _, _, nonneg⟩ := usable_spec clock
  obtain ⟨_, heldLe⟩ := punctual.held prompt
  constructor
  case clock => exact clock
  case time => exact punctual.time
  case lead => exact punctual.lead
  case waiting =>
    change (sender.transmitter.holdBack sender.now timestamp).rank ≤
      max (Link.now link).rank sender.transmitter.streamTime.rank
    omega
  case timed => exact fun _ => timed
  case untimed =>
    intro timeless
    change sender.transmitter.hasTime = false at timeless
    rw [timed] at timeless
    contradiction

theorem announce (punctual : sender.Punctual) (timed : sender.transmitter.hasTime = true)
    {next : Sender κ} (announced : sender.announce = .ok next) :
    next.Punctual ∧ sender.declaration.InTime ∧ next.transmitter.hasTime = true := by
  rw [announce_eq] at announced
  obtain ⟨link, isTaken, nextEq⟩ := send_map_ok announced
  have accepted := punctual.accept timed punctual.ahead_prompt isTaken
  rw [nextEq]
  refine ⟨?_, punctual.inTime punctual.ahead_prompt rfl, timed⟩
  exact
    { clock := accepted.clock
      time := accepted.time
      lead := accepted.lead
      waiting := accepted.waiting
      timed := fun _ => timed
      untimed := accepted.untimed }

theorem start (punctual : sender.Punctual) (timeless : sender.transmitter.hasTime = false) :
    sender.start.Punctual ∧ sender.start.transmitter.lastDeadline.rank ≤ 0 := by
  obtain ⟨begun, nothingSent⟩ := punctual.begun timeless
  exact ⟨begun.note (.synchronized sender.transmitter.id sender.now), nothingSent⟩

theorem awaitSync (punctual : sender.Punctual) {ready : Sender κ}
    (ended : sender.awaitSync = some ready) :
    ready.Punctual ∧ ready.transmitter.hasTime = true ∧
      (ready = sender ∧ sender.transmitter.hasTime = true ∨
        ready.transmitter.lastDeadline.rank ≤ 0) := by
  unfold Sender.awaitSync at ended
  by_cases timed : sender.transmitter.hasTime = true
  · rw [if_pos timed] at ended
    cases ended
    exact ⟨punctual, timed, Or.inl ⟨rfl, timed⟩⟩
  · have timeless : sender.transmitter.hasTime = false := Bool.not_eq_true _ |>.mp timed
    have looked := punctual.relink
      (SteadyLink.looked sender.link sender.transmitter.client.service)
    rw [if_neg timed] at ended
    simp only at ended
    split at ended
    · cases ended
      obtain ⟨started, nothingSent⟩ := looked.start timeless
      exact ⟨started, rfl, Or.inr nothingSent⟩
    · rcases Option.map_eq_some_iff.mp ended with ⟨link, seen, readyEq⟩
      have waited := (looked.note (.awaitingSync sender.transmitter.id)).relink
        (SteadyLink.awaited _ _ _ seen)
      obtain ⟨started, nothingSent⟩ := waited.start timeless
      rw [← readyEq]
      exact ⟨started, rfl, Or.inr nothingSent⟩

theorem ensureAnnounced (punctual : sender.Punctual) (timed : sender.transmitter.hasTime = true)
    {ready : Sender κ} (isReady : sender.ensureAnnounced = .ok ready) :
    ready.Punctual ∧ ready.transmitter.hasTime = true ∧
      ∀ occurrence ∈ if sender.transmitter.announced then [] else [sender.declaration],
        occurrence.InTime := by
  unfold Sender.ensureAnnounced at isReady
  by_cases isOpen : sender.transmitter.announced = true
  · rw [if_pos isOpen] at isReady ⊢
    cases isReady
    exact ⟨punctual, timed, fun _ isMember => absurd isMember List.not_mem_nil⟩
  · rw [if_neg isOpen] at isReady ⊢
    obtain ⟨next, inTime, stillTimed⟩ := punctual.announce timed isReady
    refine ⟨next, stillTimed, ?_⟩
    intro occurrence isMember
    rw [List.mem_singleton.mp isMember]
    exact inTime

theorem sendBlocks (punctual : sender.Punctual) (timed : sender.transmitter.hasTime = true)
    (cut : List (List Sample)) :
    (sender.sendBlocks cut).1.Punctual ∧
      ∀ occurrence ∈ sender.blockHistory cut, occurrence.InTime := by
  induction cut generalizing sender with
  | nil => exact ⟨punctual, fun _ isMember => absurd isMember List.not_mem_nil⟩
  | cons block rest inductionHypothesis =>
      unfold Sender.sendBlocks blockHistory
      cases outcome : sender.sendBlock block with
      | error cause => exact ⟨punctual, fun _ isMember => absurd isMember List.not_mem_nil⟩
      | ok sent =>
          rw [sendBlock_eq] at outcome
          obtain ⟨link, isTaken, sentEq⟩ := send_map_ok outcome
          have accepted := (punctual.accept timed punctual.ahead_prompt isTaken).count block
          rw [← sentEq] at accepted
          have stillTimed : sent.transmitter.hasTime = true := by
            rw [sentEq]
            exact timed
          obtain ⟨last, laterInTime⟩ := inductionHypothesis accepted stillTimed
          refine ⟨last, ?_⟩
          intro occurrence isMember
          rcases List.mem_cons.mp isMember with isFirst | isLater
          · rw [isFirst]
            exact punctual.inTime punctual.ahead_prompt rfl
          · exact laterInTime occurrence isLater

theorem push (punctual : sender.Punctual) (samples : List Sample) :
    (sender.perform (.push samples)).Punctual ∧
      ∀ occurrence ∈ sender.history (.push samples), occurrence.InTime := by
  have none : ∀ occurrence ∈ ([] : List (Occurrence κ)), occurrence.InTime :=
    fun _ isMember => absurd isMember List.not_mem_nil
  simp only [perform, history, Sender.push]
  by_cases empty : samples = []
  · rw [if_pos empty, if_pos empty]
    exact ⟨punctual, none⟩
  · rw [if_neg empty, if_neg empty]
    cases waited : sender.awaitSync with
    | none => exact ⟨punctual, none⟩
    | some ready =>
        obtain ⟨readyPunctual, timed, _⟩ := punctual.awaitSync waited
        simp only [Option.map_some, Option.getD_some]
        cases announced : ready.ensureAnnounced with
        | error cause => exact ⟨readyPunctual, none⟩
        | ok opened =>
            obtain ⟨openedPunctual, stillTimed, openingInTime⟩ :=
              readyPunctual.ensureAnnounced timed announced
            obtain ⟨last, blocksInTime⟩ := openedPunctual.sendBlocks stillTimed
              (blocks ready.transmitter.config.effectiveMaxChunk samples)
            refine ⟨last, ?_⟩
            intro occurrence isMember
            rcases List.mem_append.mp isMember with isOpening | isBlock
            · exact openingInTime occurrence isOpening
            · exact blocksInTime occurrence isBlock

theorem setStreamTime (punctual : sender.Punctual) {time : Seconds}
    (finite : time.isFinite = true)
    (forward : sender.transmitter.hasTime = true →
      sender.transmitter.streamTime.atMost time = true) :
    (sender.perform (.setStreamTime time)).Punctual ∧
      ∀ occurrence ∈ sender.history (.setStreamTime time), occurrence.InTime := by
  simp only [perform, history]
  cases waited : sender.awaitSync with
  | none =>
      simp only [Sender.setStreamTime, waited, Option.map_none, Option.getD_none]
      exact ⟨punctual, fun _ isMember => absurd isMember List.not_mem_nil⟩
  | some ready =>
      obtain ⟨readyPunctual, timed, origin⟩ := punctual.awaitSync waited
      have notBefore :
          ready.transmitter.lastDeadline.rank ≤ max ready.now.rank time.rank := by
        rcases origin with ⟨same, hadTime⟩ | nothingSent
        · have waiting := readyPunctual.waiting
          have streamLe := (Binary.atMost_iff.mp (forward hadTime)).2.2
          rw [← same] at streamLe
          omega
        · have nonneg := (usable_spec readyPunctual.clock).2.2.2
          omega
      have restarted := readyPunctual.restart finite notBefore
      simp only [setStreamTime_awaited waited, Option.map_some, Option.getD_some]
      cases announced : (ready.restart time).announce with
      | error cause =>
          refine ⟨restarted, ?_⟩
          intro occurrence isMember
          rw [List.mem_singleton.mp isMember]
          trivial
      | ok sent =>
          obtain ⟨sentPunctual, inTime, _⟩ := restarted.announce timed announced
          refine ⟨sentPunctual, ?_⟩
          intro occurrence isMember
          rw [List.mem_singleton.mp isMember]
          exact inTime

theorem close (punctual : sender.Punctual) :
    (sender.perform .close).Punctual ∧
      ∀ occurrence ∈ sender.history .close, occurrence.InTime := by
  have none : ∀ occurrence ∈ ([] : List (Occurrence κ)), occurrence.InTime :=
    fun _ isMember => absurd isMember List.not_mem_nil
  simp only [perform, history]
  by_cases idle : (!sender.transmitter.announced || sender.transmitter.closed) = true
  · have unchanged : sender.close = .ok sender := if_pos idle
    rw [if_pos idle, unchanged]
    exact ⟨punctual, none⟩
  · have isOpen : sender.transmitter.announced = true := by
      cases announced : sender.transmitter.announced with
      | false => exact absurd (by rw [announced]; rfl) idle
      | true => rfl
    have notClosed : sender.transmitter.closed = false := by
      cases closed : sender.transmitter.closed with
      | false => rfl
      | true => exact absurd (by rw [closed, Bool.or_true]) idle
    rw [if_neg idle]
    cases outcome : sender.close with
    | error cause => exact ⟨punctual, none⟩
    | ok sent =>
        rw [close_eq sender isOpen notClosed] at outcome
        obtain ⟨link, isTaken, sentEq⟩ := send_map_ok outcome
        have accepted :=
          punctual.accept (punctual.timed isOpen) punctual.close_prompt isTaken
        have ended : (sender.accepted sender.closeTimestamp link).ended.Punctual :=
          { clock := accepted.clock
            time := accepted.time
            lead := accepted.lead
            waiting := accepted.waiting
            timed := fun stillOpen => absurd stillOpen Bool.false_ne_true
            untimed := accepted.untimed }
        rw [sentEq]
        refine ⟨ended.note _, ?_⟩
        intro occurrence isMember
        rw [List.mem_singleton.mp isMember]
        exact punctual.inTime punctual.close_prompt rfl

end Punctual

/-! ### Runs -/

/-- Whether a step leaves the clock at a finite time from zero up that is not before the present,
sets a finite lead time from zero up, and restarts the stream, if it runs already, at a finite time
that is not before its stream time. -/
def AsksForward (sender : Sender κ) : Step κ → Prop
  | .call (.setStreamTime time) =>
      time.isFinite = true ∧
        (sender.transmitter.hasTime = true → sender.transmitter.streamTime.atMost time = true)
  | .call (.setTransmitAhead length) => isUsableDuration length = true
  | .call .awaitSync => True
  | .call (.push _) => True
  | .call .close => True
  | .relink link =>
      isUsableDuration (Link.now link) = true ∧ sender.now.atMost (Link.now link) = true

instance decidableAsksForward (sender : Sender κ) : DecidablePred sender.AsksForward
  | .call (.setStreamTime _) => inferInstanceAs (Decidable (_ ∧ _))
  | .call (.setTransmitAhead _) => inferInstanceAs (Decidable (_ = _))
  | .call .awaitSync => inferInstanceAs (Decidable True)
  | .call (.push _) => inferInstanceAs (Decidable True)
  | .call .close => inferInstanceAs (Decidable True)
  | .relink _ => inferInstanceAs (Decidable (_ ∧ _))

def GoesForward (sender : Sender κ) : List (Step κ) → Prop
  | [] => True
  | step :: rest => sender.AsksForward step ∧ (sender.advance step).GoesForward rest

instance decidableGoesForward :
    (sender : Sender κ) → (steps : List (Step κ)) → Decidable (sender.GoesForward steps)
  | _, [] => inferInstanceAs (Decidable True)
  | sender, step :: rest =>
      have _restDecidable := decidableGoesForward (sender.advance step) rest
      inferInstanceAs (Decidable (_ ∧ _))

namespace Punctual

variable [SteadyLink κ] {sender : Sender κ}

theorem perform (punctual : sender.Punctual) (call : TransmitterCall)
    (forward : sender.AsksForward (.call call)) :
    (sender.perform call).Punctual ∧
      ∀ occurrence ∈ sender.history call, occurrence.InTime := by
  have none : ∀ occurrence ∈ ([] : List (Occurrence κ)), occurrence.InTime :=
    fun _ isMember => absurd isMember List.not_mem_nil
  cases call with
  | awaitSync =>
      simp only [Sender.perform]
      cases waited : sender.awaitSync with
      | none => exact ⟨punctual, none⟩
      | some ready => exact ⟨(punctual.awaitSync waited).1, none⟩
  | setStreamTime time => exact punctual.setStreamTime forward.1 forward.2
  | push samples => exact punctual.push samples
  | close => exact punctual.close
  | setTransmitAhead length =>
      refine ⟨?_, none⟩
      constructor
      case clock => exact punctual.clock
      case time => exact punctual.time
      case lead => exact forward
      case waiting => exact punctual.waiting
      case timed => exact punctual.timed
      case untimed => exact punctual.untimed

theorem run (punctual : sender.Punctual) (steps : List (Step κ))
    (forward : sender.GoesForward steps) :
    (sender.run steps).Punctual ∧
      ∀ occurrence ∈ sender.chronicle steps, occurrence.InTime := by
  induction steps generalizing sender with
  | nil => exact ⟨punctual, fun _ isMember => absurd isMember List.not_mem_nil⟩
  | cons step rest inductionHypothesis =>
      obtain ⟨asksForward, restForward⟩ := forward
      cases step with
      | call call =>
          obtain ⟨performed, callInTime⟩ := punctual.perform call asksForward
          obtain ⟨last, laterInTime⟩ := inductionHypothesis performed restForward
          refine ⟨last, ?_⟩
          intro occurrence isMember
          rcases List.mem_append.mp isMember with isNow | isLater
          · exact callInTime occurrence isNow
          · exact laterInTime occurrence isLater
      | relink link =>
          have relinked := punctual.relink fun _ => asksForward
          exact inductionHypothesis relinked restForward

theorem create {link : κ} {id : StreamId} {service endpoint : String}
    {config : TransmitterConfig} (clock : isUsableDuration (Link.now link) = true)
    (created : Sender.create link id service endpoint config = .ok sender) : sender.Punctual := by
  obtain ⟨validated, client, senderEq⟩ := create_ok created
  obtain ⟨noted, _⟩ := SteadyLink.noted link (.transmitting id client.address) clock
  have nonneg := (usable_spec noted).2.2.2
  have zeroRank : (Binary.zero : Seconds).rank = 0 := rfl
  rw [senderEq]
  constructor
  case clock => exact noted
  case time => rfl
  case lead => exact config.lead_usable_of_validate validated
  case waiting =>
    change (Binary.zero : Seconds).rank ≤ max (Link.now (Link.note link _)).rank _
    omega
  case timed => exact fun contrary => absurd contrary Bool.false_ne_true
  case untimed => exact fun _ => Int.le_refl 0

end Punctual

/-- All that is said in a run, and by the close at its end, is said in time. -/
theorem Punctual.inTime_run [SteadyLink κ] {sender : Sender κ} (punctual : sender.Punctual)
    (steps : List (Step κ)) (forward : sender.GoesForward steps) :
    ∀ occurrence ∈ sender.chronicle steps ++ (sender.run steps).history .close,
      occurrence.InTime := by
  obtain ⟨last, inTime⟩ := punctual.run steps forward
  intro occurrence isMember
  rcases List.mem_append.mp isMember with isEarlier | isLast
  · exact inTime occurrence isEarlier
  · exact last.close.2 occurrence isLast

/-- Every message that the link takes is that of an event, and every event is due by the time at
which it is meant to be heard, or at once, whatever still waits when it is sent. -/
theorem due_when_meant [SteadyLink κ] {link : κ} {id : StreamId} {service endpoint : String}
    {config : TransmitterConfig} {sender : Sender (Ledger κ)}
    (clock : isUsableDuration (Link.now link) = true)
    (created : create (Ledger.blank link) id service endpoint config = .ok sender)
    (steps : List (Step κ)) (forward : sender.GoesForward (sender.ledgerSteps steps)) :
    let last := sender.run (sender.ledgerSteps steps)
    let happened := sender.chronicle (sender.ledgerSteps steps) ++ last.history .close
    last.drop.taken = happened.filterMap Occurrence.message? ∧
      ∀ speaker timestamp event, .sent speaker timestamp event ∈ happened →
        (dueAt speaker.now (speaker.message timestamp event).timestamp).atMost
          (speaker.now.larger (speaker.meantFor event)) = true := by
  intro last happened
  have punctual : sender.Punctual := Punctual.create clock created
  exact ⟨drop_taken created steps,
    fun _ _ _ isSent => punctual.inTime_run (sender.ledgerSteps steps) forward _ isSent⟩

/-- The stream is closed and opened again while the close is still waiting; then the lead time
grows, the clock moves on, and the stream is put to 102 s. -/
def reopeningSteps : List (Step (Bus Unit)) :=
  [.call (.push [Binary.zero, Binary.zero]), .call .close, .call (.push [Binary.zero]),
    .call (.setTransmitAhead (Binary.ofBits 0x3ff0000000000000)),
    .relink (Session.mixingPeer.bus.setClock (Binary.ofBits 0x4059400000000000)),
    .call (.setStreamTime (Binary.ofBits 0x4059800000000000)), .call .close]

theorem reopeningSteps_due_when_meant :
    let sender := freshSender promptConfig (Ledger.blank Session.mixingPeer.bus)
    let last := sender.run (sender.ledgerSteps reopeningSteps)
    let happened := sender.chronicle (sender.ledgerSteps reopeningSteps) ++ last.history .close
    spoken happened = [.sync, .push, .close, .sync, .push, .sync, .close] ∧
      last.drop.taken = happened.filterMap Occurrence.message? ∧
      ∀ speaker timestamp event, .sent speaker timestamp event ∈ happened →
        (dueAt speaker.now (speaker.message timestamp event).timestamp).atMost
          (speaker.now.larger (speaker.meantFor event)) = true := by
  intro sender last happened
  have clock : isUsableDuration (Link.now Session.mixingPeer.bus) = true := by decide +kernel
  have forward : sender.GoesForward (sender.ledgerSteps reopeningSteps) := by decide +kernel
  constructor
  · decide +kernel
  · exact due_when_meant clock (create_freshSender rfl _) reopeningSteps forward

end Sender

end AudioBus
