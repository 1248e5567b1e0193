import AudioBus.Proofs.Transmitter.OnBus
import AudioBus.Proofs.Transmitter.Place

/-!
Pushes that the link interrupts.  A push stops at the first message that the link refuses.  What
was taken until then is the beginning of the samples, cut as all of them would be, and counted; so a
push of the others goes on where the first one stopped.
-/

namespace AudioBus

theorem blocks_full {size : SampleCount} {samples block : List Sample}
    {earlier later : List (List Sample)} (split : blocks size samples = earlier ++ block :: later)
    (notLast : later ≠ []) : block.length = size.count := by
  induction earlier generalizing samples with
  | nil =>
      rw [blocks] at split
      by_cases empty : samples = []
      · rw [if_pos empty] at split
        contradiction
      · rw [if_neg empty] at split
        obtain ⟨isFirst, isRest⟩ := List.cons.inj split
        have dropped : samples.drop size.count ≠ [] := by
          intro nothing
          rw [nothing, blocks, if_pos rfl] at isRest
          exact notLast isRest.symm
        have longer := List.length_pos_iff.mpr dropped
        rw [List.length_drop] at longer
        rw [← isFirst, List.length_take]
        omega
  | cons first rest inductionHypothesis =>
      rw [blocks] at split
      by_cases empty : samples = []
      · rw [if_pos empty] at split
        contradiction
      · rw [if_neg empty] at split
        exact inductionHypothesis (List.cons.inj split).2

theorem size_dvd_of_blocks {size : SampleCount} {samples : List Sample}
    {earlier later : List (List Sample)} (split : blocks size samples = earlier ++ later)
    (notLast : later ≠ []) : size.count ∣ earlier.flatten.length := by
  have full : ∀ block ∈ earlier, block.length = size.count := by
    intro block isEarlier
    obtain ⟨before, after, earlierEq⟩ := List.append_of_mem isEarlier
    rw [earlierEq, List.append_assoc] at split
    exact blocks_full split (List.append_ne_nil_of_right_ne_nil after notLast)
  rw [List.length_flatten, List.map_congr_left full, List.map_const', List.sum_replicate_nat]
  exact Nat.dvd_mul_left _ _

theorem flatten_eq_take_of_blocks {size : SampleCount} {samples : List Sample}
    {earlier later : List (List Sample)} (split : blocks size samples = earlier ++ later) :
    earlier.flatten = samples.take earlier.flatten.length ∧
      earlier.flatten.length + later.flatten.length = samples.length := by
  have whole : earlier.flatten ++ later.flatten = samples := by
    rw [← List.flatten_append, ← split, flatten_blocks]
  constructor
  · conv => rhs; rw [← whole]
    rw [List.take_left]
  · rw [← List.length_append, whole]

theorem length_lt_of_blocks {size : SampleCount} {samples : List Sample}
    {earlier later : List (List Sample)} (split : blocks size samples = earlier ++ later)
    (notLast : later ≠ []) : earlier.flatten.length < samples.length := by
  obtain ⟨block, others, laterEq⟩ := List.exists_cons_of_ne_nil notLast
  have isBlock : block ∈ blocks size samples := by
    rw [split, laterEq]
    exact List.mem_append_right _ List.mem_cons_self
  have blockLength := List.length_pos_iff.mpr (ne_nil_of_mem_blocks isBlock)
  have lengths := (flatten_eq_take_of_blocks split).2
  rw [laterEq, List.flatten_cons, List.length_append] at lengths
  omega

namespace Occurrence

variable {κ : Type}

def block? : Occurrence κ → Option (List Sample)
  | .sent _ _ (.push _ block) => some block
  | _ => none

variable [Link κ]

def isTaken : Occurrence κ → Bool
  | .sent sender timestamp event =>
      (Link.send sender.link (sender.message timestamp event)).isOk
  | .restartRefused _ => false

def IsRefused (cause : BusError) : Occurrence κ → Prop
  | .sent sender timestamp event =>
      Link.send sender.link (sender.message timestamp event) = .error cause
  | .restartRefused _ => False

theorem IsRefused.not_taken {attempt : Occurrence κ} {cause : BusError}
    (refused : attempt.IsRefused cause) : attempt.isTaken = false := by
  cases attempt with
  | sent sender timestamp event =>
      change (Link.send _ _).isOk = false
      change Link.send _ _ = _ at refused
      rw [refused]
      rfl
  | restartRefused time => rfl

theorem IsRefused.filter_cons {attempt : Occurrence κ} {cause : BusError}
    (refused : attempt.IsRefused cause) (rest : List (Occurrence κ)) :
    (attempt :: rest).filter isTaken = rest.filter isTaken := by
  rw [List.filter_cons, refused.not_taken]
  rfl

end Occurrence

namespace Sender

variable {κ : Type} [Link κ]

/-! ### Attempts -/

theorem send_eq (sender : Sender κ) (timestamp : Seconds) (event : StreamEvent) :
    sender.send timestamp event =
      (Link.send sender.link (sender.message timestamp event)).map (sender.accepted timestamp) := by
  unfold send Client.send joinPath
  simp only [isAddress_method, if_true]
  unfold message
  cases Link.send sender.link _ with
  | error cause => rfl
  | ok link => rfl

def blockAttempts (sender : Sender κ) : List (List Sample) → List (Occurrence κ)
  | [] => []
  | block :: rest =>
      sender.delivery block ::
        match sender.sendBlock block with
        | .error _ => []
        | .ok sent => sent.blockAttempts rest

/-- The sends that a sender tries for samples. -/
def pushAttempts (sender : Sender κ) (samples : List Sample) : List (Occurrence κ) :=
  if samples = [] then []
  else
    match sender.awaitSync with
    | none => []
    | some ready =>
        (if ready.transmitter.announced then [] else [ready.declaration]) ++
          match ready.ensureAnnounced with
          | .error _ => []
          | .ok announced =>
              announced.blockAttempts (blocks ready.transmitter.config.effectiveMaxChunk samples)

/-- The blocks of the messages that a push sends successfully. -/
def payloads (sender : Sender κ) (samples : List Sample) : List (List Sample) :=
  ((sender.pushAttempts samples).filter Occurrence.isTaken).filterMap Occurrence.block?

/-- Whether all attempts are taken but the last, which the link refuses. -/
def StopsFor (cause : BusError) (attempts : List (Occurrence κ)) : Prop :=
  ∃ earlier refused, attempts = earlier ++ [refused] ∧
    (∀ attempt ∈ earlier, attempt.isTaken = true) ∧ refused.IsRefused cause

theorem StopsFor.cons {cause : BusError} {attempts : List (Occurrence κ)}
    {attempt : Occurrence κ} (isTaken : attempt.isTaken = true) (stops : StopsFor cause attempts) :
    StopsFor cause (attempt :: attempts) := by
  obtain ⟨earlier, refused, attemptsEq, allTaken, isRefused⟩ := stops
  refine ⟨attempt :: earlier, refused, by rw [attemptsEq]; rfl, ?_, isRefused⟩
  exact List.forall_mem_cons.mpr ⟨isTaken, allTaken⟩

theorem sendBlock_cases (sender : Sender κ) (block : List Sample) :
    (∃ sent, sender.sendBlock block = .ok sent ∧ (sender.delivery block).isTaken = true ∧
      sent.transmitter.sampleCounter = sender.transmitter.sampleCounter + block.length) ∨
    ∃ cause, sender.sendBlock block = .error cause ∧ (sender.delivery block).IsRefused cause := by
  rw [sendBlock_eq, send_eq]
  cases answer : Link.send sender.link (sender.message sender.aheadTimestamp
      (.push sender.transmitter.id block)) with
  | ok link =>
      refine Or.inl ⟨_, rfl, ?_, rfl⟩
      change (Link.send _ _).isOk = true
      rw [answer]
      rfl
  | error cause => exact Or.inr ⟨cause, rfl, answer⟩

/-- What comes of sending blocks: some are delivered, and those left are there only if the link
refused the first of them. -/
structure Delivers (sender : Sender κ) (cut delivered left : List (List Sample)) : Prop where
  split : cut = delivered ++ left
  taken : ((sender.blockAttempts cut).filter Occurrence.isTaken).filterMap Occurrence.block? =
    delivered
  counted : (sender.sendBlocks cut).1.transmitter.sampleCounter =
    sender.transmitter.sampleCounter + delivered.flatten.length
  noSync : ∀ attempt ∈ sender.blockAttempts cut, attempt.isSync = false
  ended : left = [] ∧ (sender.sendBlocks cut).2 = .ok () ∧
      (∀ attempt ∈ sender.blockAttempts cut, attempt.isTaken = true) ∨
    left ≠ [] ∧ ∃ cause, (sender.sendBlocks cut).2 = .error cause ∧
      StopsFor cause (sender.blockAttempts cut)

theorem exists_delivers (sender : Sender κ) (cut : List (List Sample)) :
    ∃ delivered left, sender.Delivers cut delivered left := by
  induction cut generalizing sender with
  | nil =>
      refine ⟨[], [], rfl, rfl, rfl, ?_, Or.inl ⟨rfl, rfl, ?_⟩⟩
      · exact fun _ isMember => absurd isMember List.not_mem_nil
      · exact fun _ isMember => absurd isMember List.not_mem_nil
  | cons block rest inductionHypothesis =>
      rcases sender.sendBlock_cases block with
        ⟨sent, isSent, isTaken, counted⟩ | ⟨cause, isRefused, refused⟩
      · obtain ⟨delivered, left, onward⟩ := inductionHypothesis sent
        have attempts : sender.blockAttempts (block :: rest) =
            sender.delivery block :: sent.blockAttempts rest := by
          rw [blockAttempts, isSent]
        have blocksSent : sender.sendBlocks (block :: rest) = sent.sendBlocks rest := by
          rw [sendBlocks, isSent]
        refine ⟨block :: delivered, left, ?_⟩
        constructor
        case split => rw [onward.split, List.cons_append]
        case taken =>
          rw [attempts, List.filter_cons_of_pos isTaken, ← onward.taken]
          rfl
        case counted =>
          rw [blocksSent, onward.counted, counted, List.flatten_cons, List.length_append,
            Nat.add_assoc]
        case noSync =>
          rw [attempts]
          exact List.forall_mem_cons.mpr ⟨rfl, onward.noSync⟩
        case ended =>
          rw [blocksSent, attempts]
          rcases onward.ended with ⟨noneLeft, isDone, allTaken⟩ | ⟨someLeft, cause, isError, stops⟩
          · exact Or.inl ⟨noneLeft, isDone, List.forall_mem_cons.mpr ⟨isTaken, allTaken⟩⟩
          · exact Or.inr ⟨someLeft, cause, isError, stops.cons isTaken⟩
      · have attempts : sender.blockAttempts (block :: rest) = [sender.delivery block] := by
          rw [blockAttempts, isRefused]
        have blocksSent : sender.sendBlocks (block :: rest) = (sender, .error cause) := by
          rw [sendBlocks, isRefused]
        refine ⟨[], block :: rest, ?_⟩
        constructor
        case split => rfl
        case taken =>
          rw [attempts, refused.filter_cons]
          rfl
        case counted => rw [blocksSent]; rfl
        case noSync =>
          rw [attempts]
          exact List.forall_mem_singleton.mpr rfl
        case ended =>
          rw [blocksSent, attempts]
          refine Or.inr ⟨List.cons_ne_nil _ _, cause, rfl, [], _, rfl, ?_, refused⟩
          exact fun _ isMember => absurd isMember List.not_mem_nil

theorem ensureAnnounced_cases (sender : Sender κ) :
    (∃ ready, sender.ensureAnnounced = .ok ready ∧
      ready.transmitter.sampleCounter = sender.transmitter.sampleCounter ∧
      ∀ attempt ∈ if sender.transmitter.announced then [] else [sender.declaration],
        attempt.isTaken = true) ∨
    ∃ cause, sender.ensureAnnounced = .error cause ∧ sender.transmitter.announced = false ∧
      sender.declaration.IsRefused cause := by
  unfold ensureAnnounced
  by_cases isOpen : sender.transmitter.announced = true
  · rw [if_pos isOpen, if_pos isOpen]
    exact Or.inl ⟨sender, rfl, rfl, fun _ isMember => absurd isMember List.not_mem_nil⟩
  · rw [if_neg isOpen, if_neg isOpen, announce_eq, send_eq]
    cases answer : Link.send sender.link (sender.message sender.aheadTimestamp
        (.sync sender.transmitter.id sender.transmitter.streamTime)) with
    | ok link =>
        refine Or.inl ⟨_, rfl, rfl, List.forall_mem_singleton.mpr ?_⟩
        change (Link.send _ _).isOk = true
        rw [answer]
        rfl
    | error cause =>
        exact Or.inr ⟨cause, rfl, (Bool.not_eq_true _).mp isOpen, answer⟩

/-- Whether a sender has counted samples, or announced its stream, only if it has a time. -/
structure Timed (sender : Sender κ) : Prop where
  announced : sender.transmitter.announced = true → sender.transmitter.hasTime = true
  counted : sender.transmitter.hasTime = false → sender.transmitter.sampleCounter = 0

theorem Timed.move {sender next : Sender κ} {happened : List (Occurrence κ)} (timed : sender.Timed)
    (move : Move sender happened next) : next.Timed := by
  cases move with
  | looked => exact ⟨timed.announced, timed.counted⟩
  | awaited link seen => exact ⟨timed.announced, timed.counted⟩
  | noted notice => exact ⟨timed.announced, timed.counted⟩
  | led length => exact ⟨timed.announced, timed.counted⟩
  | begun timeless => exact ⟨fun _ => rfl, fun _ => rfl⟩
  | declared link hasTime taken => exact ⟨fun _ => hasTime, timed.counted⟩
  | restarted time link hasTime taken => exact ⟨fun _ => hasTime, fun _ => rfl⟩
  | refused time hasTime => exact ⟨fun _ => hasTime, fun _ => rfl⟩
  | delivered block link isOpen nonempty taken =>
      refine ⟨timed.announced, ?_⟩
      intro timeless
      have hasTime := timed.announced isOpen
      change sender.transmitter.hasTime = false at timeless
      rw [hasTime] at timeless
      contradiction
  | ended link isOpen notClosed taken => exact ⟨nofun, timed.counted⟩

theorem Timed.run {sender : Sender κ} (timed : sender.Timed) (steps : List (Step κ)) :
    (sender.run steps).Timed := by
  have moveKeeps : ∀ (past : List (Occurrence κ)) (sender : Sender κ)
      (happened : List (Occurrence κ)) (next : Sender κ),
      sender.Timed → Move sender happened next → next.Timed :=
    fun _ _ _ _ timed move => timed.move move
  exact run_preserves moveKeeps (fun _ _ _ timed => ⟨timed.announced, timed.counted⟩) sender steps
    [] timed

theorem created_timed {link : κ} {id : StreamId} {service endpoint : String}
    {config : TransmitterConfig} {sender : Sender κ}
    (created : create link id service endpoint config = .ok sender) : sender.Timed := by
  obtain ⟨_, client, senderEq⟩ := create_ok created
  rw [senderEq]
  exact ⟨nofun, fun _ => rfl⟩

theorem Timed.awaitSync {sender ready : Sender κ} (timed : sender.Timed)
    (waited : sender.awaitSync = some ready) :
    ready.transmitter.sampleCounter = sender.transmitter.sampleCounter ∧
      ready.transmitter.announced = sender.transmitter.announced ∧
      ready.transmitter.config = sender.transmitter.config := by
  unfold Sender.awaitSync at waited
  by_cases hasTime : sender.transmitter.hasTime = true
  · rw [if_pos hasTime] at waited
    cases waited
    exact ⟨rfl, rfl, rfl⟩
  · have uncounted := timed.counted ((Bool.not_eq_true _).mp hasTime)
    rw [if_neg hasTime] at waited
    simp only at waited
    split at waited
    · cases waited
      exact ⟨uncounted.symm, rfl, rfl⟩
    · rcases Option.map_eq_some_iff.mp waited with ⟨link, _, readyEq⟩
      rw [← readyEq]
      exact ⟨uncounted.symm, rfl, rfl⟩

/-! ### What is sent and what is asked -/

theorem blockHistory_eq (sender : Sender κ) (cut : List (List Sample)) :
    sender.blockHistory cut = (sender.blockAttempts cut).filter Occurrence.isTaken := by
  induction cut generalizing sender with
  | nil => rfl
  | cons block rest inductionHypothesis =>
      rcases sender.sendBlock_cases block with
        ⟨sent, isSent, isTaken, _⟩ | ⟨cause, isRefused, refused⟩
      · simp only [blockHistory, blockAttempts, isSent]
        rw [List.filter_cons_of_pos isTaken, inductionHypothesis]
      · simp only [blockHistory, blockAttempts, isRefused]
        rw [refused.filter_cons]
        rfl

theorem history_push_eq (sender : Sender κ) (samples : List Sample) :
    sender.history (.push samples) =
      (sender.pushAttempts samples).filter Occurrence.isTaken := by
  simp only [history, pushAttempts]
  by_cases empty : samples = []
  · rw [if_pos empty, if_pos empty]
    rfl
  · rw [if_neg empty, if_neg empty]
    cases sender.awaitSync with
    | none => rfl
    | some ready =>
        rcases ready.ensureAnnounced_cases with
          ⟨announced, isReady, _, allTaken⟩ | ⟨cause, isRefused, unannounced, refused⟩
        · simp only [isReady]
          rw [List.filter_append, List.filter_eq_self.mpr allTaken, blockHistory_eq]
        · simp only [isRefused, unannounced]
          simp only [Bool.false_eq_true, if_false, List.append_nil, refused.filter_cons,
            List.filter_nil]

@[reducible]
def answering (answer : κ → Message → Except BusError κ) : Link κ where
  now := Link.now
  status := Link.status
  awaitSynchronized := Link.awaitSynchronized
  send := answer
  note := Link.note

/-- Whether attempts are answered as the link answers them. -/
def AnswersTo (attempts : List (Occurrence κ)) (answer : κ → Message → Except BusError κ) : Prop :=
  ∀ sender timestamp event, .sent sender timestamp event ∈ attempts →
    answer sender.link (sender.message timestamp event) =
      Link.send sender.link (sender.message timestamp event)

variable {answer : κ → Message → Except BusError κ}

theorem send_answering {sender : Sender κ} {timestamp : Seconds} {event : StreamEvent}
    (same : answer sender.link (sender.message timestamp event) =
      Link.send sender.link (sender.message timestamp event)) :
    @send κ (answering answer) sender timestamp event = sender.send timestamp event := by
  refine (@send_eq κ (answering answer) sender timestamp event).trans ?_
  refine Eq.trans ?_ (sender.send_eq timestamp event).symm
  exact congrArg (Except.map (sender.accepted timestamp)) same

theorem sendBlock_answering {sender : Sender κ} {block : List Sample}
    {attempts : List (Occurrence κ)} (same : AnswersTo attempts answer)
    (isAttempt : sender.delivery block ∈ attempts) :
    @sendBlock κ (answering answer) sender block = sender.sendBlock block := by
  refine (@sendBlock_eq κ (answering answer) sender block).trans ?_
  refine Eq.trans ?_ (sender.sendBlock_eq block).symm
  exact congrArg (Except.map fun sent => sent.counted block)
    (send_answering (same _ _ _ isAttempt))

theorem announce_answering {sender : Sender κ} {attempts : List (Occurrence κ)}
    (same : AnswersTo attempts answer) (isAttempt : sender.declaration ∈ attempts) :
    @announce κ (answering answer) sender = sender.announce := by
  refine (@announce_eq κ (answering answer) sender).trans ?_
  refine Eq.trans ?_ sender.announce_eq.symm
  exact congrArg (Except.map opened) (send_answering (same _ _ _ isAttempt))

theorem sendBlocks_answering (sender : Sender κ) (cut : List (List Sample))
    (same : AnswersTo (sender.blockAttempts cut) answer) :
    @sendBlocks κ (answering answer) sender cut = sender.sendBlocks cut := by
  induction cut generalizing sender with
  | nil => rfl
  | cons block rest inductionHypothesis =>
      have isSame := sendBlock_answering same List.mem_cons_self
      simp only [sendBlocks, isSame]
      cases outcome : sender.sendBlock block with
      | error cause => rfl
      | ok sent =>
          simp only [blockAttempts, outcome] at same
          exact inductionHypothesis sent fun speaker timestamp event isLater =>
            same speaker timestamp event (List.mem_cons_of_mem _ isLater)

theorem ensureAnnounced_answering (sender : Sender κ)
    (same : AnswersTo (if sender.transmitter.announced then [] else [sender.declaration]) answer) :
    @ensureAnnounced κ (answering answer) sender = sender.ensureAnnounced := by
  unfold ensureAnnounced
  by_cases isOpen : sender.transmitter.announced = true
  · rw [if_pos isOpen, if_pos isOpen]
  · rw [if_neg isOpen] at same
    rw [if_neg isOpen, if_neg isOpen, announce_answering same List.mem_cons_self]

theorem push_answering (sender : Sender κ) (samples : List Sample)
    (same : AnswersTo (sender.pushAttempts samples) answer) :
    @push κ (answering answer) sender samples = sender.push samples := by
  simp only [push]
  by_cases empty : samples = []
  · rw [if_pos empty, if_pos empty]
  · rw [if_neg empty, if_neg empty]
    have waits : @awaitSync κ (answering answer) sender = sender.awaitSync := rfl
    rw [waits]
    simp only [pushAttempts, if_neg empty] at same
    cases waited : sender.awaitSync with
    | none => rfl
    | some ready =>
        simp only [waited] at same
        have announces := ready.ensureAnnounced_answering fun speaker timestamp event isFirst =>
          same speaker timestamp event (List.mem_append_left _ isFirst)
        simp only [Option.map_some, announces]
        cases outcome : ready.ensureAnnounced with
        | error cause => rfl
        | ok announced =>
            simp only [outcome] at same
            have delivers := announced.sendBlocks_answering
              (blocks ready.transmitter.config.effectiveMaxChunk samples)
              fun speaker timestamp event isBlock =>
                same speaker timestamp event (List.mem_append_right _ isBlock)
            simp only [delivers]

/-! ### Prefixes -/

/-- What a push of samples comes to if it sends the first `count` of them. -/
structure SendsPrefix (sender : Sender κ) (samples : List Sample) (count : Nat) (last : Sender κ)
    (result : Except BusError Nat) : Prop where
  counted : last.transmitter.sampleCounter = sender.transmitter.sampleCounter + count
  carried : (sender.payloads samples).flatten = samples.take count
  /-- Blocks are full, except possibly the last block of all samples. -/
  cut : ∀ earlier block later, sender.payloads samples = earlier ++ block :: later →
    block.length = sender.transmitter.config.effectiveMaxChunk.count ∨
      later = [] ∧ count = samples.length ∧ 1 ≤ block.length ∧
        block.length ≤ sender.transmitter.config.effectiveMaxChunk.count
  ok_iff : result = .ok samples.length ↔
    count = samples.length ∧ ∀ attempt ∈ sender.pushAttempts samples, attempt.isTaken = true
  /-- Otherwise the last attempt is the first that the link refuses. -/
  stops : result ≠ .ok samples.length → ∃ cause, result = .error cause ∧
    StopsFor cause (sender.pushAttempts samples) ∧
    sender.transmitter.config.effectiveMaxChunk.count ∣ count ∧ count < samples.length
  unannounced : ∀ attempt ∈ sender.pushAttempts samples, attempt.isSync = true →
    attempt.isTaken = false → count = 0 ∧ last.transmitter.announced = false
  logged : ∀ log, Logs log → log last.link = log sender.link ++
    ((sender.pushAttempts samples).filter Occurrence.isTaken).filterMap Occurrence.message?
  onlyAttempts : ∀ answer, AnswersTo (sender.pushAttempts samples) answer →
    @push κ (answering answer) sender samples = some (last, result)

theorem push_logged {sender last : Sender κ} {samples : List Sample}
    {result : Except BusError Nat} (pushed : sender.push samples = some (last, result))
    (log : κ → List Message) (logs : Logs log) :
    log last.link = log sender.link ++
      ((sender.pushAttempts samples).filter Occurrence.isTaken).filterMap Occurrence.message? := by
  have performed : sender.perform (.push samples) = last := by
    rw [perform, pushed]
    rfl
  rw [← history_push_eq, ← performed]
  exact perform_logged logs sender (.push samples)

theorem sendsPrefix_of_empty (sender : Sender κ) :
    sender.SendsPrefix [] 0 sender (.ok 0) where
  counted := rfl
  carried := rfl
  cut _ _ _ split := absurd split (List.append_ne_nil_of_right_ne_nil _ (List.cons_ne_nil _ _)).symm
  ok_iff := ⟨fun _ => ⟨rfl, fun _ isMember => absurd isMember List.not_mem_nil⟩, fun _ => rfl⟩
  stops refused := absurd rfl refused
  unannounced _ isMember := absurd isMember List.not_mem_nil
  logged := push_logged rfl
  onlyAttempts _ same := push_answering sender [] same

theorem sendsPrefix_of_unannounced {sender ready : Sender κ} (timed : sender.Timed)
    {samples : List Sample} (nonempty : samples ≠ []) (waited : sender.awaitSync = some ready)
    {cause : BusError} (isRefused : ready.ensureAnnounced = .error cause)
    (unannounced : ready.transmitter.announced = false)
    (refused : ready.declaration.IsRefused cause) :
    sender.push samples = some (ready, .error cause) ∧
      sender.SendsPrefix samples 0 ready (.error cause) := by
  have pushed : sender.push samples = some (ready, .error cause) := by
    rw [push, if_neg nonempty, waited, Option.map_some, isRefused]
  have attempts : sender.pushAttempts samples = [ready.declaration] := by
    simp only [pushAttempts, if_neg nonempty, waited, isRefused, unannounced]
    rfl
  have nothing : sender.payloads samples = [] := by
    rw [payloads, attempts, refused.filter_cons]
    rfl
  refine ⟨pushed, ?_⟩
  constructor
  case counted => exact (timed.awaitSync waited).1
  case carried => rw [nothing, List.take_zero, List.flatten_nil]
  case cut =>
    intro earlier block later split
    rw [nothing] at split
    exact absurd split.symm (List.append_ne_nil_of_right_ne_nil _ (List.cons_ne_nil _ _))
  case ok_iff =>
    constructor
    · intro isDone
      contradiction
    · intro isWhole
      exact absurd isWhole.1.symm (List.length_pos_iff.mpr nonempty).ne'
  case stops =>
    intro _
    refine ⟨cause, rfl, ⟨[], _, attempts, ?_, refused⟩, Nat.dvd_zero _,
      List.length_pos_iff.mpr nonempty⟩
    exact fun _ isMember => absurd isMember List.not_mem_nil
  case unannounced => exact fun _ _ _ _ => ⟨rfl, unannounced⟩
  case logged => exact push_logged pushed
  case onlyAttempts =>
    intro answer same
    rw [push_answering sender samples same, pushed]

theorem sendsPrefix_of_announced {sender ready announced : Sender κ} (timed : sender.Timed)
    {samples : List Sample} (nonempty : samples ≠ []) (waited : sender.awaitSync = some ready)
    (isReady : ready.ensureAnnounced = .ok announced)
    (sameCount : announced.transmitter.sampleCounter = ready.transmitter.sampleCounter)
    (openingTaken : ∀ attempt ∈ if ready.transmitter.announced then [] else [ready.declaration],
      attempt.isTaken = true) :
    ∃ count last result, sender.push samples = some (last, result) ∧
      sender.SendsPrefix samples count last result := by
  obtain ⟨readyCount, _, sameConfig⟩ := timed.awaitSync waited
  obtain ⟨delivered, left, delivers⟩ := announced.exists_delivers
    (blocks sender.transmitter.config.effectiveMaxChunk samples)
  have pushed : sender.push samples =
      some ((announced.sendBlocks (blocks sender.transmitter.config.effectiveMaxChunk samples)).1,
        (announced.sendBlocks
          (blocks sender.transmitter.config.effectiveMaxChunk samples)).2.map
            fun _ => samples.length) := by
    rw [push, if_neg nonempty, waited, Option.map_some, isReady, sameConfig]
  have attempts : sender.pushAttempts samples =
      (if ready.transmitter.announced then [] else [ready.declaration]) ++
        announced.blockAttempts (blocks sender.transmitter.config.effectiveMaxChunk samples) := by
    simp only [pushAttempts, if_neg nonempty, waited, isReady, sameConfig]
  have payloadsEq : sender.payloads samples = delivered := by
    have opening : (if ready.transmitter.announced then [] else [ready.declaration]).filterMap
        Occurrence.block? = [] := by
      split
      · rfl
      · rfl
    rw [payloads, attempts, List.filter_append, List.filter_eq_self.mpr openingTaken,
      List.filterMap_append, opening, delivers.taken, List.nil_append]
  obtain ⟨isPrefix, lengths⟩ := flatten_eq_take_of_blocks delivers.split
  refine ⟨delivered.flatten.length, _, _, pushed, ?_⟩
  constructor
  case counted => rw [delivers.counted, sameCount, readyCount]
  case carried =>
    rw [payloadsEq]
    exact isPrefix
  case cut =>
    intro earlier block later split
    rw [payloadsEq] at split
    have blocksSplit := delivers.split
    rw [split, List.append_assoc, List.cons_append] at blocksSplit
    by_cases isLast : later ++ left = []
    · obtain ⟨noneLater, noneLeft⟩ := List.append_eq_nil_iff.mp isLast
      have isBlock : block ∈ blocks sender.transmitter.config.effectiveMaxChunk samples := by
        rw [blocksSplit]
        exact List.mem_append_right _ List.mem_cons_self
      rw [noneLeft, List.flatten_nil, List.length_nil, Nat.add_zero] at lengths
      exact Or.inr ⟨noneLater, lengths, List.length_pos_iff.mpr (ne_nil_of_mem_blocks isBlock),
        length_le_of_mem_blocks isBlock⟩
    · exact Or.inl (blocks_full blocksSplit isLast)
  case ok_iff =>
    rw [attempts, List.forall_mem_append]
    rcases delivers.ended with ⟨noneLeft, isDone, allTaken⟩ | ⟨someLeft, cause, isError, _⟩
    · rw [isDone]
      rw [noneLeft, List.flatten_nil, List.length_nil, Nat.add_zero] at lengths
      exact ⟨fun _ => ⟨lengths, openingTaken, allTaken⟩, fun _ => rfl⟩
    · rw [isError]
      constructor
      · intro isDone
        contradiction
      · intro isWhole
        exact absurd isWhole.1 (length_lt_of_blocks delivers.split someLeft).ne
  case stops =>
    intro notAll
    rcases delivers.ended with ⟨_, isDone, _⟩ | ⟨someLeft, cause, isError, stops⟩
    · rw [isDone] at notAll
      contradiction
    · refine ⟨cause, by rw [isError]; rfl, ?_, size_dvd_of_blocks delivers.split someLeft,
        length_lt_of_blocks delivers.split someLeft⟩
      rw [attempts]
      obtain ⟨earlier, refused, blocksEq, allTaken, isRefused⟩ := stops
      refine ⟨_ ++ earlier, refused, by rw [blocksEq, List.append_assoc], ?_, isRefused⟩
      exact List.forall_mem_append.mpr ⟨openingTaken, allTaken⟩
  case unannounced =>
    intro attempt isAttempt isSync notTaken
    rw [attempts] at isAttempt
    rcases List.mem_append.mp isAttempt with isOpening | isBlock
    · rw [openingTaken attempt isOpening] at notTaken
      contradiction
    · rw [delivers.noSync attempt isBlock] at isSync
      contradiction
  case logged => exact push_logged pushed
  case onlyAttempts =>
    intro answer same
    rw [push_answering sender samples same, pushed]

/-- A push whose wait has an end sends a prefix. -/
theorem Timed.push_spec {sender : Sender κ} (timed : sender.Timed) (samples : List Sample) :
    sender.push samples = none ∧ sender.awaitSync = none ∨
      ∃ count last result, sender.push samples = some (last, result) ∧
        sender.SendsPrefix samples count last result := by
  by_cases empty : samples = []
  · rw [empty]
    exact Or.inr ⟨0, sender, .ok 0, rfl, sender.sendsPrefix_of_empty⟩
  · cases waited : sender.awaitSync with
    | none =>
        refine Or.inl ⟨?_, rfl⟩
        rw [push, if_neg empty, waited, Option.map_none]
    | some ready =>
        rcases ready.ensureAnnounced_cases with
          ⟨announced, isReady, sameCount, openingTaken⟩ |
            ⟨cause, isRefused, unannounced, refused⟩
        · exact Or.inr (sendsPrefix_of_announced timed empty waited isReady sameCount openingTaken)
        · obtain ⟨pushed, sendsPrefix⟩ :=
            sendsPrefix_of_unannounced timed empty waited isRefused unannounced refused
          exact Or.inr ⟨0, ready, .error cause, pushed, sendsPrefix⟩

theorem awaitSync_ne_none {sender : Sender κ}
    (synchronized : sender.transmitter.hasTime = true ∨
      (Link.status sender.link sender.transmitter.client.service).1.isSynchronized = true) :
    sender.awaitSync ≠ none := by
  unfold awaitSync
  by_cases hasTime : sender.transmitter.hasTime = true
  · rw [if_pos hasTime]
    exact Option.some_ne_none sender
  · have isSynchronized := synchronized.resolve_left hasTime
    rw [if_neg hasTime]
    simp only [isSynchronized, if_true]
    exact Option.some_ne_none _

/-- Whatever was called before and whichever sends fail, a push on a synchronized bus sends the
first samples of a block: as many as it counts, and in full messages, except possibly for the last
message of the whole block.  It is done if and only if all samples are sent and no send failed.
Otherwise it ends at the first send that fails, with the error of it, behind a number of full
messages; if that is the announcement, nothing is sent and the stream stays unannounced.  So when
the other samples are pushed later, the messages of both calls carry the samples one after another,
and the whole block as soon as the later call is done. -/
theorem push_sends_prefix {link : κ} {id : StreamId} {service endpoint : String}
    {config : TransmitterConfig} {first : Sender κ}
    (created : create link id service endpoint config = .ok first) (steps : List (Step κ))
    (samples : List Sample)
    (synchronized : (first.run steps).transmitter.hasTime = true ∨
      (Link.status (first.run steps).link
        (first.run steps).transmitter.client.service).1.isSynchronized = true) :
    let sender := first.run steps
    ∃ count last result, sender.push samples = some (last, result) ∧
      sender.SendsPrefix samples count last result ∧
      ∀ between later lastResult,
        (last.run between).push (samples.drop count) = some (later, lastResult) →
          ∃ more, (last.run between).SendsPrefix (samples.drop count) more later lastResult ∧
            (sender.payloads samples ++
              (last.run between).payloads (samples.drop count)).flatten =
                samples.take (count + more) ∧
            (lastResult = .ok (samples.length - count) →
              (sender.payloads samples ++
                (last.run between).payloads (samples.drop count)).flatten = samples) := by
  intro sender
  have timed : sender.Timed := (created_timed created).run steps
  rcases timed.push_spec samples with ⟨_, endless⟩ | ⟨count, last, result, pushed, sendsPrefix⟩
  · exact absurd endless (awaitSync_ne_none synchronized)
  refine ⟨count, last, result, pushed, sendsPrefix, ?_⟩
  intro between later lastResult pushedLater
  have lastEq : sender.run [.call (.push samples)] = last := by
    change ((sender.push samples).map Prod.fst).getD sender = last
    rw [pushed]
    rfl
  have timedLater : (last.run between).Timed := by
    rw [← lastEq]
    exact (timed.run _).run between
  rcases timedLater.push_spec (samples.drop count) with
    ⟨stuck, _⟩ | ⟨more, _, _, pushedAgain, sendsOthers⟩
  · rw [stuck] at pushedLater
    contradiction
  rw [pushedLater, Option.some.injEq, Prod.mk.injEq] at pushedAgain
  obtain ⟨rfl, rfl⟩ := pushedAgain
  have together : (sender.payloads samples ++
      (last.run between).payloads (samples.drop count)).flatten = samples.take (count + more) := by
    rw [List.flatten_append, sendsPrefix.carried, sendsOthers.carried, List.take_add]
  refine ⟨more, sendsOthers, together, ?_⟩
  intro isDone
  rw [← List.length_drop] at isDone
  have all := (sendsOthers.ok_iff.mp isDone).1
  rw [List.length_drop] at all
  rw [together, List.take_of_length_le (by omega)]

def threeAtOnceConfig : TransmitterConfig :=
  { promptConfig with
    maxChunk := some { count := 3, count_pos := by decide, count_lt := by decide } }

/-- A sender of three samples at once; its link takes two messages. -/
def halting : Sender Recorder := freshSender threeAtOnceConfig (limitedRecorder (some 2))

def fiveSamples : List Sample :=
  [1, 2, 3, 4, 5].map Binary.ofNat

theorem halting_sends_prefix :
    create (limitedRecorder (some 2)) { value := 0 } "mixer" "0" halting.transmitter.config =
        .ok halting ∧
      (Link.status halting.link halting.transmitter.client.service).1.isSynchronized = true ∧
      halting.payloads fiveSamples = [[1, 2, 3].map Binary.ofNat] ∧
      ∃ last cause, halting.push fiveSamples = some (last, .error cause) ∧
        last.transmitter.sampleCounter = 3 ∧
        last.link.sent.map Message.path = ["mixer/0/sync", "mixer/0/push"] ∧
        StopsFor cause (halting.pushAttempts fiveSamples) ∧
        (halting.payloads fiveSamples ++
          (last.run [.relink (limitedRecorder none)]).payloads (fiveSamples.drop 3)).flatten =
            fiveSamples := by
  have created : create (limitedRecorder (some 2)) { value := 0 } "mixer" "0"
      halting.transmitter.config = .ok halting := rfl
  have synchronized :
      (Link.status halting.link halting.transmitter.client.service).1.isSynchronized = true := rfl
  have payloadsEq : halting.payloads fiveSamples = [[1, 2, 3].map Binary.ofNat] := by
    with_unfolding_all rfl
  obtain ⟨count, last, result, pushed, sendsPrefix, resumes⟩ :=
    push_sends_prefix created [] fiveSamples (Or.inr synchronized)
  have countEq : count = 3 := by
    have lengths := congrArg List.length sendsPrefix.carried
    have isThree : (halting.payloads fiveSamples).flatten.length = 3 := by
      rw [payloadsEq]
      rfl
    have isFive : fiveSamples.length = 5 := rfl
    change (halting.payloads fiveSamples).flatten.length = _ at lengths
    rw [isThree, List.length_take, isFive] at lengths
    omega
  subst count
  have notDone : result ≠ .ok fiveSamples.length := by
    intro isDone
    have isThree := (sendsPrefix.ok_iff.mp isDone).1
    contradiction
  obtain ⟨cause, resultEq, stops, _, _⟩ := sendsPrefix.stops notDone
  have lastEq : halting.perform (.push fiveSamples) = last := by
    change ((halting.push fiveSamples).map Prod.fst).getD halting = last
    rw [show halting.push fiveSamples = _ from pushed]
    rfl
  have resumed : ∃ later,
      ((halting.perform (.push fiveSamples)).run [.relink (limitedRecorder none)]).push
        (fiveSamples.drop 3) = some (later, .ok 2) := by
    with_unfolding_all exact ⟨_, rfl⟩
  rw [lastEq] at resumed
  obtain ⟨later, pushedLater⟩ := resumed
  obtain ⟨_, _, _, whole⟩ := resumes [.relink (limitedRecorder none)] later (.ok 2) pushedLater
  have logged := sendsPrefix.logged Recorder.sent recorder_logs
  have sent : last.link.sent.map Message.path = ["mixer/0/sync", "mixer/0/push"] := by
    rw [logged]
    decide +kernel
  rw [resultEq] at pushed
  exact ⟨created, synchronized, payloadsEq, last, cause, pushed, sendsPrefix.counted, sent, stops,
    whole rfl⟩

end Sender

end AudioBus
