import AudioBus.Bus.Recorder
import AudioBus.Proofs.Transmitter.Run

/-!
Where a transmitter is on the timeline of its stream, and where its receiver believes it to be.

The receiver knows the latest sync and the blocks that followed it.  A restart that the link
refuses moves the transmitter only, and the stream stays announced.
-/

namespace AudioBus

namespace Occurrence

variable {κ : Type}

def isSync : Occurrence κ → Bool
  | .sent _ _ (.sync _ _) => true
  | _ => false

def isPush : Occurrence κ → Bool
  | .sent _ _ (.push _ _) => true
  | _ => false

def isRestart : Occurrence κ → Bool
  | .restartRefused _ => true
  | _ => false

def pushedSamples : Occurrence κ → Nat
  | .sent _ _ (.push _ block) => block.length
  | _ => 0

def moved (place : Seconds × Nat) : Occurrence κ → Seconds × Nat
  | .sent _ _ (.push _ block) => (place.1, place.2 + block.length)
  | .restartRefused time => (time, 0)
  | _ => place

end Occurrence

def pushedSamples {κ : Type} : List (Occurrence κ) → Nat
  | [] => 0
  | occurrence :: rest => occurrence.pushedSamples + pushedSamples rest

namespace Sender

variable {κ : Type}

def place (sender : Sender κ) : Seconds × Nat :=
  (sender.transmitter.time, sender.transmitter.sampleCounter)

/-- Whether `sender` is where its receiver places it: at the declared time, and behind all
samples sent since. -/
def AgreesWith (sender declared : Sender κ) (since : List (Occurrence κ)) : Prop :=
  sender.transmitter.time = declared.transmitter.time ∧
    sender.transmitter.sampleCounter =
      declared.transmitter.sampleCounter + pushedSamples since

/-- Whether the latest restart refused since a declaration left the place where the receiver
was then. -/
def Displaced (declared : Sender κ) (since : List (Occurrence κ)) : Prop :=
  ∃ before time after,
    since = before ++ .restartRefused time :: after ∧
      (∀ occurrence ∈ after, occurrence.isRestart = false) ∧
      (time ≠ declared.transmitter.time ∨
        declared.transmitter.sampleCounter + pushedSamples before ≠ 0)

/-- The latest sync of `past`, with the sender as it was then and what happened since. -/
def LatestSync (id : StreamId) (past : List (Occurrence κ)) (declared : Sender κ)
    (since : List (Occurrence κ)) : Prop :=
  ∃ before timestamp,
    past = before ++
      .sent declared timestamp (.sync id declared.transmitter.streamTime) :: since ∧
    ∀ occurrence ∈ since, occurrence.isSync = false

theorem nil_of_no_sync_behind {occurrence other : Occurrence κ}
    {since otherSince gap : List (Occurrence κ)}
    (split : occurrence :: since = gap ++ other :: otherSince) (isSync : other.isSync = true)
    (noSync : ∀ later ∈ since, later.isSync = false) : gap = [] := by
  cases gap with
  | nil => rfl
  | cons first rest =>
      rw [(List.cons.inj split).2] at noSync
      have notSync := noSync other (List.mem_append_right rest List.mem_cons_self)
      exact absurd (notSync.symm.trans isSync) Bool.false_ne_true

/-- There is one latest sync at most. -/
theorem LatestSync.unique {id : StreamId} {past since otherSince : List (Occurrence κ)}
    {declared other : Sender κ} (latest : LatestSync id past declared since)
    (otherLatest : LatestSync id past other otherSince) :
    declared = other ∧ since = otherSince := by
  obtain ⟨before, timestamp, pastEq, noSync⟩ := latest
  obtain ⟨otherBefore, otherTimestamp, otherEq, otherNoSync⟩ := otherLatest
  rw [pastEq] at otherEq
  rcases List.append_eq_append_iff.mp otherEq with ⟨gap, _, behind⟩ | ⟨gap, _, behind⟩
  · cases nil_of_no_sync_behind behind rfl noSync
    cases behind
    exact ⟨rfl, rfl⟩
  · cases nil_of_no_sync_behind behind rfl otherNoSync
    cases behind
    exact ⟨rfl, rfl⟩

theorem foldl_moved_of_no_restart (place : Seconds × Nat) (happened : List (Occurrence κ))
    (noRestart : ∀ occurrence ∈ happened, occurrence.isRestart = false) :
    happened.foldl Occurrence.moved place = (place.1, place.2 + pushedSamples happened) := by
  induction happened generalizing place with
  | nil => rfl
  | cons occurrence rest inductionHypothesis =>
      have restNone : ∀ later ∈ rest, later.isRestart = false :=
        fun later isLater => noRestart later (List.mem_cons_of_mem occurrence isLater)
      have headNone := noRestart occurrence List.mem_cons_self
      rw [List.foldl_cons, inductionHypothesis _ restNone, pushedSamples, ← Nat.add_assoc]
      cases occurrence with
      | sent sender timestamp event => cases event <;> rfl
      | restartRefused time => contradiction

theorem foldl_moved_across (place : Seconds × Nat) (before : List (Occurrence κ))
    (time : Seconds) {after : List (Occurrence κ)}
    (noRestart : ∀ occurrence ∈ after, occurrence.isRestart = false) :
    (before ++ .restartRefused time :: after).foldl Occurrence.moved place =
      (time, pushedSamples after) := by
  rw [List.foldl_append, List.foldl_cons, foldl_moved_of_no_restart _ after noRestart]
  exact congrArg (Prod.mk time) (Nat.zero_add _)

theorem exists_last_restart (happened : List (Occurrence κ)) :
    (∀ occurrence ∈ happened, occurrence.isRestart = false) ∨
      ∃ before time after,
        happened = before ++ .restartRefused time :: after ∧
          ∀ occurrence ∈ after, occurrence.isRestart = false := by
  induction happened with
  | nil => exact Or.inl fun occurrence isMember => absurd isMember List.not_mem_nil
  | cons occurrence rest inductionHypothesis =>
      rcases inductionHypothesis with restNone | ⟨before, time, after, restEq, afterNone⟩
      · cases occurrence with
        | sent sender timestamp event =>
            refine Or.inl fun other isMember => ?_
            rcases List.mem_cons.mp isMember with isHead | isLater
            · rw [isHead]
              rfl
            · exact restNone other isLater
        | restartRefused time => exact Or.inr ⟨[], time, rest, rfl, restNone⟩
      · exact Or.inr ⟨occurrence :: before, time, after, by rw [restEq]; rfl, afterNone⟩

theorem pushedSamples_across (before after : List (Occurrence κ)) (time : Seconds) :
    pushedSamples (before ++ .restartRefused time :: after) =
      pushedSamples before + pushedSamples after := by
  induction before with
  | nil => rfl
  | cons occurrence rest inductionHypothesis =>
      rw [List.cons_append, pushedSamples, pushedSamples, inductionHypothesis, Nat.add_assoc]

/-- A sender that has moved along with what happened agrees with its receiver unless it was
displaced. -/
theorem agreesWith_iff {sender declared : Sender κ} {since : List (Occurrence κ)}
    (follows : sender.place = since.foldl Occurrence.moved declared.place) :
    sender.AgreesWith declared since ↔ ¬ Displaced declared since := by
  constructor
  · intro agrees displaced
    rcases displaced with ⟨before, time, after, sinceEq, afterNone, moved⟩
    rw [sinceEq, foldl_moved_across _ before time afterNone] at follows
    have timeEq : sender.transmitter.time = time := congrArg Prod.fst follows
    have counterEq : sender.transmitter.sampleCounter = pushedSamples after :=
      congrArg Prod.snd follows
    obtain ⟨sameTime, sameCounter⟩ := agrees
    rw [sinceEq, pushedSamples_across] at sameCounter
    rcases moved with timeMoved | counterMoved
    · exact timeMoved (timeEq.symm.trans sameTime)
    · omega
  · intro notDisplaced
    rcases exists_last_restart since with none | ⟨before, time, after, sinceEq, afterNone⟩
    · rw [foldl_moved_of_no_restart _ since none] at follows
      exact ⟨congrArg Prod.fst follows, congrArg Prod.snd follows⟩
    · rw [sinceEq, foldl_moved_across _ before time afterNone] at follows
      have timeEq : sender.transmitter.time = time := congrArg Prod.fst follows
      have counterEq : sender.transmitter.sampleCounter = pushedSamples after :=
        congrArg Prod.snd follows
      have sameTime : time = declared.transmitter.time := by
        apply Classical.not_not.mp
        intro timeMoved
        exact notDisplaced ⟨before, time, after, sinceEq, afterNone, Or.inl timeMoved⟩
      have atStart : declared.transmitter.sampleCounter + pushedSamples before = 0 := by
        apply Classical.not_not.mp
        intro counterMoved
        exact notDisplaced ⟨before, time, after, sinceEq, afterNone, Or.inr counterMoved⟩
      constructor
      · exact timeEq.trans sameTime
      · rw [sinceEq, pushedSamples_across]
        omega

def Follows (id : StreamId) (past : List (Occurrence κ)) (sender : Sender κ) : Prop :=
  ∃ declared since, LatestSync id past declared since ∧
    sender.place = since.foldl Occurrence.moved declared.place

/-- An announced stream has a time, and its sender follows its latest sync. -/
def Tracked (past : List (Occurrence κ)) (sender : Sender κ) : Prop :=
  sender.transmitter.announced = true →
    sender.transmitter.hasTime = true ∧ Follows sender.transmitter.id past sender

def PushesFollow (past : List (Occurrence κ)) : Prop :=
  ∀ earlier pusher timestamp id block later,
    past = earlier ++ .sent pusher timestamp (.push id block) :: later → Follows id earlier pusher

theorem LatestSync.declare (declared : Sender κ) (timestamp : Seconds)
    (past : List (Occurrence κ)) (id : StreamId) :
    LatestSync id
      (past ++ [.sent declared timestamp (.sync id declared.transmitter.streamTime)])
      declared [] :=
  ⟨past, timestamp, rfl, fun _ isMember => absurd isMember List.not_mem_nil⟩

theorem LatestSync.append {id : StreamId} {past since : List (Occurrence κ)}
    {declared : Sender κ} {occurrence : Occurrence κ} (latest : LatestSync id past declared since)
    (notSync : occurrence.isSync = false) :
    LatestSync id (past ++ [occurrence]) declared (since ++ [occurrence]) := by
  rcases latest with ⟨before, timestamp, pastEq, none⟩
  refine ⟨before, timestamp, ?_, ?_⟩
  · rw [pastEq, List.append_assoc]
    rfl
  · intro other isMember
    rcases List.mem_append.mp isMember with isEarlier | isLast
    · exact none other isEarlier
    · rw [List.mem_singleton.mp isLast]
      exact notSync

theorem Follows.append {id : StreamId} {past : List (Occurrence κ)} {sender next : Sender κ}
    {occurrence : Occurrence κ} (follows : Follows id past sender)
    (notSync : occurrence.isSync = false)
    (moves : next.place = Occurrence.moved sender.place occurrence) :
    Follows id (past ++ [occurrence]) next := by
  rcases follows with ⟨declared, since, latest, placeEq⟩
  refine ⟨declared, since ++ [occurrence], latest.append notSync, ?_⟩
  rw [moves, List.foldl_append, ← placeEq]
  rfl

theorem concat_cases {past earlier later : List (Occurrence κ)} {last occurrence : Occurrence κ}
    (split : past ++ [last] = earlier ++ occurrence :: later) :
    (past = earlier ∧ last = occurrence) ∨ ∃ init, past = earlier ++ occurrence :: init := by
  rcases List.eq_nil_or_concat later with isLast | ⟨init, final, laterEq⟩
  · rw [isLast] at split
    obtain ⟨pastEq, same⟩ := List.append_inj' split rfl
    exact Or.inl ⟨pastEq, (List.cons.inj same).1⟩
  · rw [laterEq, List.concat_eq_append, ← List.cons_append, ← List.append_assoc] at split
    exact Or.inr ⟨init, (List.append_inj' split rfl).1⟩

theorem PushesFollow.append_other {past : List (Occurrence κ)} {occurrence : Occurrence κ}
    (pushes : PushesFollow past) (notPush : occurrence.isPush = false) :
    PushesFollow (past ++ [occurrence]) := by
  intro earlier pusher timestamp id block later split
  rcases concat_cases split with ⟨_, same⟩ | ⟨init, within⟩
  · rw [same] at notPush
    contradiction
  · exact pushes earlier pusher timestamp id block init within

theorem PushesFollow.append_push {past : List (Occurrence κ)} {pusher : Sender κ}
    {timestamp : Seconds} {id : StreamId} {block : List Sample} (pushes : PushesFollow past)
    (follows : Follows id past pusher) :
    PushesFollow (past ++ [.sent pusher timestamp (.push id block)]) := by
  intro earlier other otherTimestamp otherId otherBlock later split
  rcases concat_cases split with ⟨pastEq, same⟩ | ⟨init, within⟩
  · cases same
    rw [← pastEq]
    exact follows
  · exact pushes earlier other otherTimestamp otherId otherBlock init within

variable [Link κ]

theorem Tracked.move {past : List (Occurrence κ)} {sender next : Sender κ}
    {happened : List (Occurrence κ)} (tracked : Tracked past sender)
    (move : Move sender happened next) : Tracked (past ++ happened) next := by
  cases move with
  | looked | awaited | noted | led =>
      rw [List.append_nil]
      exact tracked
  | begun timeless =>
      intro isOpen
      have timed := (tracked isOpen).1
      rw [timeless] at timed
      contradiction
  | declared link timed taken =>
      exact fun _ => ⟨timed, sender, [], LatestSync.declare sender _ past _, rfl⟩
  | restarted time link timed taken =>
      exact fun _ => ⟨timed, sender.restart time, [], LatestSync.declare _ _ past _, rfl⟩
  | refused time timed =>
      intro isOpen
      exact ⟨timed, (tracked isOpen).2.append rfl rfl⟩
  | delivered block link isOpen nonempty taken =>
      intro _
      exact ⟨(tracked isOpen).1, (tracked isOpen).2.append rfl rfl⟩
  | ended link isOpen notClosed taken =>
      intro stillOpen
      contradiction

theorem PushesFollow.move {past : List (Occurrence κ)} {sender next : Sender κ}
    {happened : List (Occurrence κ)} (pushes : PushesFollow past) (tracked : Tracked past sender)
    (move : Move sender happened next) : PushesFollow (past ++ happened) := by
  cases move with
  | looked | awaited | noted | begun | led =>
      rw [List.append_nil]
      exact pushes
  | declared | restarted | refused | ended => exact pushes.append_other rfl
  | delivered block link isOpen nonempty taken => exact pushes.append_push (tracked isOpen).2

structure Accounted (past : List (Occurrence κ)) (sender : Sender κ) : Prop where
  tracked : Tracked past sender
  pushes : PushesFollow past

theorem Accounted.move {past : List (Occurrence κ)} {sender next : Sender κ}
    {happened : List (Occurrence κ)} (accounted : Accounted past sender)
    (move : Move sender happened next) : Accounted (past ++ happened) next :=
  ⟨accounted.tracked.move move, accounted.pushes.move accounted.tracked move⟩

theorem created_accounted {link : κ} {id : StreamId} {service endpoint : String}
    {config : TransmitterConfig} {sender : Sender κ}
    (created : create link id service endpoint config = .ok sender) : Accounted [] sender := by
  obtain ⟨_, client, senderEq⟩ := create_ok created
  constructor
  · intro isOpen
    rw [senderEq] at isOpen
    contradiction
  · intro earlier pusher timestamp streamId block later split
    exact absurd split.symm (List.append_ne_nil_of_right_ne_nil _ (List.cons_ne_nil _ _))

/-- At every block sent there has been a sync, and the sender is where that sync and the blocks
after it put the stream, exactly if no restart refused since then displaced it. -/
theorem push_agrees_iff_not_displaced {link : κ} {id : StreamId} {service endpoint : String}
    {config : TransmitterConfig} {sender : Sender κ}
    (created : create link id service endpoint config = .ok sender) (steps : List (Step κ))
    (earlier later : List (Occurrence κ)) (pusher : Sender κ) (timestamp : Seconds)
    (streamId : StreamId) (block : List Sample)
    (isSent : sender.chronicle steps =
      earlier ++ .sent pusher timestamp (.push streamId block) :: later) :
    ∃ declared since, LatestSync streamId earlier declared since ∧
      (pusher.AgreesWith declared since ↔ ¬ Displaced declared since) := by
  have accounted : Accounted ([] ++ sender.chronicle steps) (sender.run steps) :=
    run_preserves (fun _ _ _ _ accounted move => accounted.move move)
      (fun _ _ _ accounted => ⟨accounted.tracked, accounted.pushes⟩) sender steps []
      (created_accounted created)
  obtain ⟨declared, since, latest, follows⟩ :=
    accounted.pushes earlier pusher timestamp streamId block later isSent
  exact ⟨declared, since, latest, agreesWith_iff follows⟩

/-! ### A refused restart -/

/-- What a receiver may expect of every block: that its sender agrees with the latest sync. -/
def EveryPushAgrees (happened : List (Occurrence κ)) : Prop :=
  ∀ earlier pusher timestamp id block later,
    happened = earlier ++ .sent pusher timestamp (.push id block) :: later →
      ∃ declared since, LatestSync id earlier declared since ∧ pusher.AgreesWith declared since

def limitedSender : Sender Recorder := freshSender promptConfig (limitedRecorder (some 2))

/-- A sync and a block are taken, then a restart at 50 s is refused, then all is taken again. -/
def refusedSteps : List (Step Recorder) :=
  [.call (.push [Binary.zero]), .call (.setStreamTime (Binary.ofBits 0x4049000000000000)),
    .relink (limitedRecorder none), .call (.push [Binary.zero])]

theorem refusedSteps_chronicle :
    ∃ declared first second declaredAt firstAt secondAt,
      limitedSender.chronicle refusedSteps =
        [.sent declared declaredAt (.sync { value := 0 } declared.transmitter.streamTime),
          .sent first firstAt (.push { value := 0 } [Binary.zero]),
          .restartRefused (Binary.ofBits 0x4049000000000000)] ++
          [.sent second secondAt (.push { value := 0 } [Binary.zero])] ∧
      declared.transmitter.time = Binary.ofBits 0x4059000000000000 ∧
      second.transmitter.time = Binary.ofBits 0x4049000000000000 := by
  with_unfolding_all exact ⟨_, _, _, _, _, _, rfl, rfl, rfl⟩

/-- The block after the refused restart belongs at 50 s, but the only sync said 100 s. -/
theorem refusedSteps_displaced :
    ∃ earlier second secondAt declared since,
      limitedSender.chronicle refusedSteps =
          earlier ++ [.sent second secondAt (.push { value := 0 } [Binary.zero])] ∧
        LatestSync { value := 0 } earlier declared since ∧ Displaced declared since ∧
        second.transmitter.time ≠ declared.transmitter.time := by
  obtain ⟨declared, first, second, declaredAt, firstAt, secondAt, chronicleEq, startedAt,
    restartedAt⟩ := refusedSteps_chronicle
  refine ⟨_, second, secondAt, declared, [_, _], chronicleEq, ⟨[], declaredAt, rfl, ?_⟩,
    ⟨[_], _, [], rfl, fun _ isMember => absurd isMember List.not_mem_nil, Or.inl ?_⟩, ?_⟩
  · intro occurrence isMember
    rcases List.mem_cons.mp isMember with isPush | isRefused
    · rw [isPush]
      rfl
    · rw [List.mem_singleton.mp isRefused]
      rfl
  · rw [startedAt]
    decide
  · rw [startedAt, restartedAt]
    decide

theorem refusedSteps_push_agrees_iff :
    ∃ earlier pusher timestamp declared since,
      limitedSender.chronicle refusedSteps =
          earlier ++ [.sent pusher timestamp (.push { value := 0 } [Binary.zero])] ∧
        LatestSync { value := 0 } earlier declared since ∧
        (pusher.AgreesWith declared since ↔ ¬ Displaced declared since) ∧
        Displaced declared since ∧ ¬ pusher.AgreesWith declared since := by
  obtain ⟨earlier, second, secondAt, declared, since, chronicleEq, latest, displaced, _⟩ :=
    refusedSteps_displaced
  have created : create (limitedRecorder (some 2)) { value := 0 } "mixer" "0" promptConfig =
      .ok limitedSender := create_freshSender rfl _
  obtain ⟨_, _, isLatest, agreesIff⟩ := push_agrees_iff_not_displaced created refusedSteps
    earlier [] second secondAt { value := 0 } [Binary.zero] chronicleEq
  obtain ⟨rfl, rfl⟩ := latest.unique isLatest
  exact ⟨earlier, second, secondAt, declared, since, chronicleEq, latest, agreesIff, displaced,
    fun agrees => agreesIff.mp agrees displaced⟩

/-- After a restart was refused, a block need not be where the latest sync puts it. -/
theorem refused_restart_displaces_stream :
    ¬ EveryPushAgrees (limitedSender.chronicle refusedSteps) := by
  intro everyAgrees
  obtain ⟨earlier, second, secondAt, declared, since, chronicleEq, latest, _, elsewhere⟩ :=
    refusedSteps_displaced
  obtain ⟨_, _, isLatest, sameTime, _⟩ :=
    everyAgrees earlier second secondAt { value := 0 } [Binary.zero] [] chronicleEq
  obtain ⟨rfl, _⟩ := latest.unique isLatest
  exact elsewhere sameTime

end Sender

end AudioBus
