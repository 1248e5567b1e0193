import AudioBus.Proofs.Bus.Contract
import AudioBus.Proofs.Bus.Delivery

/-!
How often a bus is polled.  As long as handlers neither send nor change what is bound, a poll hands
out what is due with the table of methods as it stands, and many polls hand out what the last of
them alone would.
-/

namespace AudioBus

theorem takeWhile_append_takeWhile {α : Type} {first second : α → Bool}
    (wider : ∀ item, first item = true → second item = true) (items : List α) :
    items.takeWhile first ++ (items.dropWhile first).takeWhile second = items.takeWhile second ∧
      (items.dropWhile first).dropWhile second = items.dropWhile second := by
  induction items with
  | nil => exact ⟨rfl, rfl⟩
  | cons item rest inductionHypothesis =>
      by_cases isTaken : first item = true
      · simp [isTaken, wider item isTaken, inductionHypothesis]
      · simp [isTaken]

theorem Bus.isDue_of_atMost {earlier later : Seconds} (onward : earlier.atMost later = true)
    {entry : Pending} (wasDue : Bus.isDue earlier entry = true) : Bus.isDue later entry = true := by
  obtain ⟨earlierNumber, _, rankLe⟩ := Binary.atMost_iff.mp onward
  unfold isDue at wasDue ⊢
  rw [Bool.not_eq_true'] at wasDue ⊢
  apply Bool.not_eq_true _ |>.mp
  intro isLater
  obtain ⟨_, dueNumber, laterLt⟩ := Binary.less_iff.mp isLater
  have wasLater : earlier.less entry.due = true :=
    Binary.less_iff.mpr ⟨earlierNumber, dueNumber, Int.lt_of_le_of_lt rankLe laterLt⟩
  rw [wasDue] at wasLater
  contradiction

def Request.isQuiet {η : Type} : Request η → Bool
  | .advanceClock _ => true
  | .send _ | .bind _ _ _ | .unbind _ => false

/-- Whether handlers neither send nor change what is bound. -/
def Quiet {η ω : Type} (behaviour : Behaviour η ω) : Prop :=
  Asks (fun request => request.isQuiet = true) behaviour

theorem Quiet.watch {η ω : Type} {behaviour : Behaviour η ω} (quiet : Quiet behaviour) :
    Quiet (watch behaviour) :=
  fun handler message now watched => quiet handler message now watched.outside

namespace Bus

variable {η : Type}

/-- Whether two buses have the same messages waiting and the same methods bound. -/
structure SameWork (former later : Bus η) : Prop where
  pending : later.pending = former.pending
  methods : later.methods = former.methods

namespace SameWork

variable {first second third : Bus η}

theorem refl (bus : Bus η) : bus.SameWork bus :=
  ⟨rfl, rfl⟩

theorem trans (onward : first.SameWork second) (further : second.SameWork third) :
    first.SameWork third where
  pending := further.pending.trans onward.pending
  methods := further.methods.trans onward.methods

theorem persists (bus : Bus η) : Persists bus.SameWork fun request => request.isQuiet = true where
  note _ _ same := same.trans ⟨rfl, rfl⟩
  perform later request isQuiet same := by
    cases request with
    | advanceClock length => exact same.trans ⟨rfl, rfl⟩
    | send message => cases isQuiet
    | bind path signature handler => cases isQuiet
    | unbind path => cases isQuiet

theorem judge (same : first.SameWork second) (frame : List UInt8) :
    second.judge frame = first.judge frame := by
  unfold Bus.judge
  rw [same.methods]

end SameWork

end Bus

namespace Peer

variable {η ω : Type} {behaviour : Behaviour η ω}

theorem deliverAll_quiet (quiet : Quiet behaviour) (peer : Peer η ω) (due : List Pending) :
    peer.bus.SameWork (peer.deliverAll behaviour due).1.bus ∧
      (peer.deliverAll behaviour due).2 = due.map fun entry => peer.bus.judge entry.frame := by
  induction due generalizing peer with
  | nil => exact ⟨Bus.SameWork.refl _, rfl⟩
  | cons entry rest inductionHypothesis =>
      have firstSame := (Bus.SameWork.persists peer.bus).deliver quiet (Bus.SameWork.refl peer.bus)
        entry.frame
      have firstVerdict := peer.deliver_verdict behaviour entry.frame
      obtain ⟨restSame, restVerdicts⟩ := inductionHypothesis (peer.deliver behaviour entry.frame).1
      refine ⟨firstSame.trans restSame, ?_⟩
      rw [List.map_cons, deliverAll]
      simp only [firstVerdict, restVerdicts, firstSame.judge]

def pollAt (behaviour : Behaviour η ω) (peer : Peer η ω) (time : Seconds) :
    Peer η ω × List (Verdict η) :=
  { peer with bus := peer.bus.setClock time }.poll behaviour

/-- Polls at one time after another, and what each of them hands out. -/
def pollAll (behaviour : Behaviour η ω) (peer : Peer η ω) :
    List Seconds → Peer η ω × List (List (Verdict η))
  | [] => (peer, [])
  | time :: rest =>
      let (next, verdicts) := peer.pollAt behaviour time
      let (last, later) := next.pollAll behaviour rest
      (last, verdicts :: later)

theorem pollAt_quiet (quiet : Quiet behaviour) (peer : Peer η ω) (time : Seconds) :
    (peer.pollAt behaviour time).1.bus.pending =
        peer.bus.pending.dropWhile (Bus.isDue time) ∧
      (peer.pollAt behaviour time).1.bus.methods = peer.bus.methods ∧
      (peer.pollAt behaviour time).2 =
        (peer.bus.pending.takeWhile (Bus.isDue time)).map
          fun entry => peer.bus.judge entry.frame := by
  obtain ⟨same, verdicts⟩ := deliverAll_quiet quiet
    { peer with
      bus :=
        { peer.bus.setClock time with
          pending := peer.bus.pending.dropWhile (Bus.isDue time) } }
    (peer.bus.pending.takeWhile (Bus.isDue time))
  exact ⟨same.pending, same.methods, verdicts⟩

/-- Polls up to a time hand out, one after another, what a poll at that time hands out. -/
theorem pollAll_quiet (quiet : Quiet behaviour) (peer : Peer η ω) {times : List Seconds}
    {last : Seconds} (upTo : ∀ time ∈ times, time.atMost last = true) :
    (peer.pollAll behaviour (times ++ [last])).1.bus.pending =
        (peer.pollAt behaviour last).1.bus.pending ∧
      (peer.pollAll behaviour (times ++ [last])).2.flatten = (peer.pollAt behaviour last).2 := by
  induction times generalizing peer with
  | nil => exact ⟨rfl, List.append_nil _⟩
  | cons time rest inductionHypothesis =>
      have onward := upTo time List.mem_cons_self
      obtain ⟨pending, methods, verdicts⟩ := pollAt_quiet quiet peer time
      obtain ⟨restPending, restVerdicts⟩ := inductionHypothesis (peer.pollAt behaviour time).1
        fun other isLater => upTo other (List.mem_cons_of_mem time isLater)
      obtain ⟨lastPending, _, lastVerdicts⟩ :=
        pollAt_quiet quiet (peer.pollAt behaviour time).1 last
      obtain ⟨oncePending, _, onceVerdicts⟩ := pollAt_quiet quiet peer last
      have sameJudge (entry : Pending) :
          (peer.pollAt behaviour time).1.bus.judge entry.frame = peer.bus.judge entry.frame := by
        unfold Bus.judge
        rw [methods]
      obtain ⟨taken, left⟩ := takeWhile_append_takeWhile
        (fun _ wasDue => Bus.isDue_of_atMost onward wasDue) peer.bus.pending
      constructor
      · change ((peer.pollAt behaviour time).1.pollAll behaviour (rest ++ [last])).1.bus.pending = _
        rw [restPending, lastPending, pending, left, oncePending]
      · change (peer.pollAt behaviour time).2 ++
          ((peer.pollAt behaviour time).1.pollAll behaviour (rest ++ [last])).2.flatten = _
        rw [restVerdicts, lastVerdicts, pending, verdicts, onceVerdicts, ← taken, List.map_append]
        simp only [sameJudge]

end Peer

def Verdict.call? {η : Type} : Verdict η → Option (η × Message)
  | .accepted message handler => some (handler, message)
  | .undecodable _ | .unknown _ | .refused _ _ => none

namespace Peer

variable {η ω : Type}

theorem deliverAll_calls (behaviour : Behaviour η ω) (peer : Peer η (Watched η ω))
    (due : List Pending) :
    (peer.deliverAll (watch behaviour) due).1.outside.calls =
      peer.outside.calls ++ (peer.deliverAll (watch behaviour) due).2.filterMap Verdict.call? := by
  induction due generalizing peer with
  | nil => exact (List.append_nil _).symm
  | cons entry rest inductionHypothesis =>
      have first : (peer.deliver (watch behaviour) entry.frame).1.outside.calls =
          peer.outside.calls ++
            [(peer.deliver (watch behaviour) entry.frame).2].filterMap Verdict.call? := by
        unfold deliver
        cases peer.bus.judge entry.frame with
        | accepted message handler => rfl
        | _ => exact (List.append_nil _).symm
      have later := inductionHypothesis (peer.deliver (watch behaviour) entry.frame).1
      rw [first, List.append_assoc, ← List.filterMap_append] at later
      exact later

theorem pollAt_calls (behaviour : Behaviour η ω) (peer : Peer η (Watched η ω)) (time : Seconds) :
    (peer.pollAt (watch behaviour) time).1.outside.calls = peer.outside.calls ++
      (peer.pollAt (watch behaviour) time).2.filterMap Verdict.call? :=
  deliverAll_calls behaviour _ _

theorem pollAll_calls (behaviour : Behaviour η ω) (peer : Peer η (Watched η ω))
    (times : List Seconds) :
    (peer.pollAll (watch behaviour) times).1.outside.calls =
      peer.outside.calls ++
        (peer.pollAll (watch behaviour) times).2.flatten.filterMap Verdict.call? := by
  induction times generalizing peer with
  | nil => exact (List.append_nil _).symm
  | cons time rest inductionHypothesis =>
      have later := inductionHypothesis (peer.pollAt (watch behaviour) time).1
      rw [pollAt_calls, List.append_assoc, ← List.filterMap_append] at later
      exact later

/-- How often a bus is polled on the way to a time makes no difference: with quiet handlers, polls
at times that never go back make the calls that a single poll at the last of them makes, in the
same order, their results add up to its result, and they leave the same messages waiting.  That
poll takes what is due, and calls the handlers of what it accepts. -/
theorem polls_add_up {behaviour : Behaviour η ω} (quiet : Quiet behaviour)
    (peer : Peer η (Watched η ω)) (times : List Seconds) (last : Seconds)
    (onward : (times ++ [last]).Pairwise fun earlier later => earlier.atMost later = true) :
    let often := peer.pollAll (watch behaviour) (times ++ [last])
    let once := peer.pollAt (watch behaviour) last
    (once.2 = (peer.bus.pending.takeWhile (Bus.isDue last)).map
          (fun entry => peer.bus.judge entry.frame) ∧
        once.1.bus.pending = peer.bus.pending.dropWhile (Bus.isDue last) ∧
        once.1.outside.calls = peer.outside.calls ++ once.2.filterMap Verdict.call?) ∧
      often.1.outside.calls = once.1.outside.calls ∧
      often.2.flatten = once.2 ∧
      (often.2.map handled).sum = handled once.2 ∧
      often.1.bus.pending = once.1.bus.pending := by
  intro often once
  have upTo : ∀ time ∈ times, time.atMost last = true :=
    fun time isTime => (List.pairwise_append.mp onward).2.2 time isTime last List.mem_cons_self
  obtain ⟨left, _, judged⟩ := pollAt_quiet quiet.watch peer last
  have called := pollAt_calls behaviour peer last
  obtain ⟨samePending, sameVerdicts⟩ := pollAll_quiet quiet.watch peer upTo
  refine ⟨⟨judged, left, called⟩, ?_, sameVerdicts, ?_, samePending⟩
  · calc often.1.outside.calls
        = peer.outside.calls ++ often.2.flatten.filterMap Verdict.call? :=
          pollAll_calls behaviour peer _
      _ = peer.outside.calls ++ once.2.filterMap Verdict.call? := by rw [sameVerdicts]
      _ = once.1.outside.calls := called.symm
  · unfold handled
    rw [← List.countP_flatten, sameVerdicts]

/-- Messages for 100 s and, sent later, for 50 s, the second of which finds no method.  One more
message is for a time beyond. -/
def timetable : Peer Unit (Watched Unit Unit) where
  bus :=
    let call (bits : Nat) (path : String) : Message :=
      { timestamp := Binary.ofBits bits, path := path, arguments := [] }
    [call 0x4059000000000000 "mixer/tick", call 0x4049000000000000 "mixer/tick",
      call 0x4049000000000000 "mixer/tock", call 0x4069000000000000 "mixer/tick",
      call 0x4059000000000000 "mixer/tick"].foldl Bus.send
        ((Bus.create "peer" Binary.zero).perform (.bind "mixer/tick" { kinds := [] } ()))
  outside := { outside := (), calls := [] }

def tickingBehaviour : Behaviour Unit Unit :=
  fun _ message _ outside =>
    { outside := outside, notices := [], requests := [.advanceClock message.timestamp] }

def haltingTimes : List Seconds :=
  [Binary.zero, Binary.ofBits 0x4049000000000000, Binary.ofBits 0x4049000000000000]

theorem timetable_polls_add_up :
    let last : Seconds := Binary.ofBits 0x4059000000000000
    let often := timetable.pollAll (watch tickingBehaviour) (haltingTimes ++ [last])
    let once := timetable.pollAt (watch tickingBehaviour) last
    often.2.map handled = [0, 1, 0, 2] ∧ once.1.bus.pending.map Pending.sequence = [3] ∧
      often.1.outside.calls.map (fun call => call.2.path) =
        ["mixer/tick", "mixer/tick", "mixer/tick"] ∧
      once.1.outside.calls = once.2.filterMap Verdict.call? ∧
      often.1.outside.calls = once.1.outside.calls ∧ (often.2.map handled).sum = handled once.2 ∧
      often.1.bus.pending = once.1.bus.pending := by
  have quiet : Quiet tickingBehaviour := by
    intro handler message now outside request isAsked
    rw [List.mem_singleton.mp isAsked]
    rfl
  have onward : (haltingTimes ++ [Binary.ofBits 0x4059000000000000]).Pairwise
      fun earlier later : Seconds => earlier.atMost later = true := by
    decide +kernel
  obtain ⟨⟨_, _, called⟩, sameCalls, _, sameCount, samePending⟩ :=
    polls_add_up quiet timetable haltingTimes (Binary.ofBits 0x4059000000000000) onward
  refine ⟨?_, ?_, ?_, called, sameCalls, sameCount, samePending⟩
  · decide +kernel
  · decide +kernel
  · decide +kernel

end Peer

end AudioBus
