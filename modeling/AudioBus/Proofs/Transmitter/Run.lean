import AudioBus.Bus.Recorder
import AudioBus.Stream.Transmitter

/-!
Runs of a transmitter: any calls of its user, and what the transmitter does in the course of them.

A call is a path of moves, and every move is one of ten.  What moves keep is therefore kept by
calls, and by whatever is built of calls.
-/

namespace AudioBus

theorem Bus.eq_of_awaitSynchronized {η : Type} {bus seen : Bus η} {service : String}
    (found : Link.awaitSynchronized bus service = some seen) : seen = bus := by
  change (if _ then some bus else none) = some seen at found
  split at found
  · exact (Option.some.inj found).symm
  · contradiction

namespace Recorder

theorem look_spec (recorder : Recorder) (service : String) :
    (recorder.look service).2.sent = recorder.sent ∧
      (recorder.look service).2.queries = recorder.queries ++ [service] := by
  obtain ⟨clock, status, script, allowance, sent, queries, journal⟩ := recorder
  cases script with
  | nil => exact ⟨rfl, rfl⟩
  | cons item rest => exact ⟨rfl, rfl⟩

theorem lookAlong_preserves {holds : Recorder → Prop} {service : String}
    (lookKeeps : ∀ recorder, holds recorder → holds (recorder.look service).2)
    {recorder last : Recorder} {items : List (ServiceStatus × Seconds)}
    (found : recorder.lookAlong service items = some last) (initially : holds recorder) :
    holds last := by
  have looked := lookKeeps recorder initially
  induction items generalizing recorder with
  | nil =>
      simp only [lookAlong] at found
      split at found
      · rwa [← Option.some.inj found]
      · contradiction
  | cons item rest inductionHypothesis =>
      simp only [lookAlong] at found
      split at found
      · rwa [← Option.some.inj found]
      · exact inductionHypothesis found looked (lookKeeps _ looked)

theorem record_spec {recorder next : Recorder} {message : Message}
    (taken : recorder.record message = .ok next) :
    next.sent = recorder.sent ++ [message] ∧ next.queries = recorder.queries := by
  unfold record at taken
  split at taken
  · contradiction
  · rw [← Except.ok.inj taken]
    exact ⟨rfl, rfl⟩
  · rw [← Except.ok.inj taken]
    exact ⟨rfl, rfl⟩

end Recorder

inductive TransmitterCall where
  | awaitSync
  | setStreamTime (time : Seconds)
  | push (samples : List Sample)
  | close
  | setTransmitAhead (length : Seconds)

/-- What a transmitter does that others may notice or miss: an event it sends, with the
timestamp it wants for it, or a restart that the link refuses to tell the receiver of.  The sender
of an event is given as it was just before. -/
inductive Occurrence (κ : Type) where
  | sent (sender : Sender κ) (timestamp : Seconds) (event : StreamEvent)
  | restartRefused (time : Seconds)

namespace Sender

variable {κ : Type} [Link κ]

def message (sender : Sender κ) (timestamp : Seconds) (event : StreamEvent) : Message where
  timestamp := sender.transmitter.holdBack sender.now timestamp
  path := joinAddresses sender.transmitter.client.address event.method.name
  arguments := event.toArguments

def aheadTimestamp (sender : Sender κ) : Seconds :=
  sender.transmitter.deadline sender.now sender.transmitter.streamTime

def closeTimestamp (sender : Sender κ) : Seconds :=
  let finish := sender.transmitter.streamTime
  if sender.now.less finish then finish else Binary.zero

def declaration (sender : Sender κ) : Occurrence κ :=
  .sent sender sender.aheadTimestamp
    (.sync sender.transmitter.id sender.transmitter.streamTime)

def delivery (sender : Sender κ) (block : List Sample) : Occurrence κ :=
  .sent sender sender.aheadTimestamp (.push sender.transmitter.id block)

def farewell (sender : Sender κ) : Occurrence κ :=
  .sent sender sender.closeTimestamp (.close sender.transmitter.id)

end Sender

def Occurrence.message? {κ : Type} [Link κ] : Occurrence κ → Option Message
  | .sent sender timestamp event => some (sender.message timestamp event)
  | .restartRefused _ => none

namespace Sender

variable {κ : Type} [Link κ]

def accepted (sender : Sender κ) (timestamp : Seconds) (link : κ) : Sender κ where
  transmitter :=
    { sender.transmitter with
      lastDeadline := sender.transmitter.holdBack sender.now timestamp }
  link := link

def begun (sender : Sender κ) : Sender κ :=
  { sender with
    transmitter :=
      { sender.transmitter with hasTime := true, time := sender.now, sampleCounter := 0 } }

omit [Link κ] in
def restart (sender : Sender κ) (time : Seconds) : Sender κ :=
  { sender with transmitter := { sender.transmitter with time := time, sampleCounter := 0 } }

def opened (sender : Sender κ) : Sender κ :=
  { sender with transmitter := { sender.transmitter with announced := true, closed := false } }

def counted (sender : Sender κ) (block : List Sample) : Sender κ :=
  { sender with
    transmitter :=
      { sender.transmitter with
        sampleCounter := sender.transmitter.sampleCounter + block.length } }

def ended (sender : Sender κ) : Sender κ :=
  { sender with transmitter := { sender.transmitter with closed := true, announced := false } }

theorem send_ok {sender sent : Sender κ} {timestamp : Seconds} {event : StreamEvent}
    (isSent : sender.send timestamp event = .ok sent) :
    ∃ link, Link.send sender.link (sender.message timestamp event) = .ok link ∧
      sent = sender.accepted timestamp link := by
  unfold send Client.send joinPath at isSent
  by_cases valid :
      isAddress (joinAddresses sender.transmitter.client.address event.method.name) = true
  · simp only [valid, if_true] at isSent
    cases outcome : Link.send sender.link (sender.message timestamp event) with
    | error cause =>
        unfold message at outcome
        rw [outcome] at isSent
        contradiction
    | ok link =>
        unfold message at outcome
        rw [outcome] at isSent
        exact ⟨link, rfl, (Except.ok.inj isSent).symm⟩
  · simp only [valid] at isSent
    contradiction

theorem send_map_ok {sender last : Sender κ} {timestamp : Seconds} {event : StreamEvent}
    {change : Sender κ → Sender κ}
    (isSent : (sender.send timestamp event).map change = .ok last) :
    ∃ link, Link.send sender.link (sender.message timestamp event) = .ok link ∧
      last = change (sender.accepted timestamp link) := by
  cases outcome : sender.send timestamp event with
  | error cause =>
      rw [outcome] at isSent
      contradiction
  | ok taken =>
      obtain ⟨link, isTaken, takenEq⟩ := send_ok outcome
      rw [outcome] at isSent
      refine ⟨link, isTaken, ?_⟩
      rw [← takenEq]
      exact (Except.ok.inj isSent).symm

theorem announce_eq (sender : Sender κ) :
    sender.announce =
      (sender.send sender.aheadTimestamp
        (.sync sender.transmitter.id sender.transmitter.streamTime)).map opened :=
  rfl

theorem sendBlock_eq (sender : Sender κ) (block : List Sample) :
    sender.sendBlock block =
      (sender.send sender.aheadTimestamp (.push sender.transmitter.id block)).map
        fun sent => sent.counted block :=
  rfl

theorem close_eq (sender : Sender κ) (isOpen : sender.transmitter.announced = true)
    (notClosed : sender.transmitter.closed = false) :
    sender.close =
      (sender.send sender.closeTimestamp (.close sender.transmitter.id)).map fun sent =>
        sent.ended.note
          (.transmissionClosed sender.transmitter.id sender.transmitter.streamTime) := by
  unfold close
  rw [isOpen, notClosed]
  rfl

/-! ### Calls -/

theorem create_ok {link : κ} {id : StreamId} {service endpoint : String}
    {config : TransmitterConfig} {sender : Sender κ}
    (created : create link id service endpoint config = .ok sender) :
    config.validate = .ok () ∧
      ∃ client, sender =
        { transmitter :=
            { client := client
              id := id
              config := config
              time := Binary.zero
              sampleCounter := 0
              lastDeadline := Binary.zero
              hasTime := false
              announced := false
              closed := false }
          link := Link.note link (.transmitting id client.address) } := by
  unfold create at created
  cases validated : config.validate with
  | error cause =>
      rw [validated] at created
      contradiction
  | ok done =>
      rw [validated] at created
      cases addressed : Client.create (joinAddresses service endpoint) with
      | error cause =>
          rw [addressed] at created
          contradiction
      | ok client =>
          rw [addressed] at created
          exact ⟨rfl, client, (Except.ok.inj created).symm⟩

theorem address_of_create {link : κ} {id : StreamId} {service endpoint : String}
    {config : TransmitterConfig} {sender : Sender κ}
    (created : create link id service endpoint config = .ok sender) :
    sender.transmitter.client.address = joinAddresses service endpoint := by
  unfold create Client.create at created
  split at created
  · cases created
  · split at created
    · cases created
    · rename_i client made
      split at made
      · cases made
        cases created
        rfl
      · cases made

def perform (sender : Sender κ) : TransmitterCall → Sender κ
  | .awaitSync => sender.awaitSync.getD sender
  | .setStreamTime time => ((sender.setStreamTime time).map Prod.fst).getD sender
  | .push samples => ((sender.push samples).map Prod.fst).getD sender
  | .close =>
      match sender.close with
      | .ok closed => closed
      | .error _ => sender
  | .setTransmitAhead length =>
      { sender with transmitter := sender.transmitter.setTransmitAhead length }

def blockHistory (sender : Sender κ) : List (List Sample) → List (Occurrence κ)
  | [] => []
  | block :: rest =>
      match sender.sendBlock block with
      | .error _ => []
      | .ok sent => sender.delivery block :: sent.blockHistory rest

def history (sender : Sender κ) : TransmitterCall → List (Occurrence κ)
  | .awaitSync => []
  | .setStreamTime time =>
      match sender.awaitSync with
      | none => []
      | some ready =>
          match (ready.restart time).announce with
          | .error _ => [.restartRefused time]
          | .ok _ => [(ready.restart time).declaration]
  | .push samples =>
      if samples = [] then []
      else
        match sender.awaitSync with
        | none => []
        | some ready =>
            match ready.ensureAnnounced with
            | .error _ => []
            | .ok announced =>
                (if ready.transmitter.announced then [] else [ready.declaration]) ++
                  announced.blockHistory
                    (blocks ready.transmitter.config.effectiveMaxChunk samples)
  | .close =>
      if !sender.transmitter.announced || sender.transmitter.closed then []
      else
        match sender.close with
        | .error _ => []
        | .ok _ => [sender.farewell]
  | .setTransmitAhead _ => []

/-! ### Moves -/

/-- What a transmitter can do at once, with what happens in it. -/
inductive Move : Sender κ → List (Occurrence κ) → Sender κ → Prop
  | looked (sender : Sender κ) :
      Move sender []
        { sender with
          link := (Link.status sender.link sender.transmitter.client.service).2 }
  | awaited (sender : Sender κ) (link : κ)
      (seen : Link.awaitSynchronized sender.link sender.transmitter.client.service = some link) :
      Move sender [] { sender with link := link }
  | noted (sender : Sender κ) (notice : Notice) : Move sender [] (sender.note notice)
  | begun (sender : Sender κ) (timeless : sender.transmitter.hasTime = false) :
      Move sender [] sender.begun
  | led (sender : Sender κ) (length : Seconds) :
      Move sender []
        { sender with transmitter := sender.transmitter.setTransmitAhead length }
  | declared (sender : Sender κ) (link : κ) (timed : sender.transmitter.hasTime = true)
      (taken : Link.send sender.link
        (sender.message sender.aheadTimestamp
          (.sync sender.transmitter.id sender.transmitter.streamTime)) = .ok link) :
      Move sender [sender.declaration] (sender.accepted sender.aheadTimestamp link).opened
  | restarted (sender : Sender κ) (time : Seconds) (link : κ)
      (timed : sender.transmitter.hasTime = true)
      (taken : Link.send sender.link
        ((sender.restart time).message (sender.restart time).aheadTimestamp
          (.sync sender.transmitter.id (sender.restart time).transmitter.streamTime)) =
            .ok link) :
      Move sender [(sender.restart time).declaration]
        ((sender.restart time).accepted (sender.restart time).aheadTimestamp link).opened
  | refused (sender : Sender κ) (time : Seconds) (timed : sender.transmitter.hasTime = true) :
      Move sender [.restartRefused time] (sender.restart time)
  | delivered (sender : Sender κ) (block : List Sample) (link : κ)
      (isOpen : sender.transmitter.announced = true) (nonempty : block ≠ [])
      (taken : Link.send sender.link
        (sender.message sender.aheadTimestamp (.push sender.transmitter.id block)) = .ok link) :
      Move sender [sender.delivery block]
        ((sender.accepted sender.aheadTimestamp link).counted block)
  | ended (sender : Sender κ) (link : κ) (isOpen : sender.transmitter.announced = true)
      (notClosed : sender.transmitter.closed = false)
      (taken : Link.send sender.link
        (sender.message sender.closeTimestamp (.close sender.transmitter.id)) = .ok link) :
      Move sender [sender.farewell] (sender.accepted sender.closeTimestamp link).ended

/-- Any number of moves, with all that happens in them. -/
inductive Path : Sender κ → List (Occurrence κ) → Sender κ → Prop
  | refl (sender : Sender κ) : Path sender [] sender
  | step {first second last : Sender κ} {labels rest : List (Occurrence κ)}
      (move : Move first labels second) (onward : Path second rest last) :
      Path first (labels ++ rest) last

namespace Path

theorem single {first last : Sender κ} {labels : List (Occurrence κ)}
    (move : Move first labels last) : Path first labels last := by
  have path := Path.step move (Path.refl last)
  rwa [List.append_nil] at path

theorem trans {first second last : Sender κ} {labels rest : List (Occurrence κ)}
    (path : Path first labels second) (onward : Path second rest last) :
    Path first (labels ++ rest) last := by
  induction path with
  | refl sender => exact onward
  | step move _ inductionHypothesis =>
      rw [List.append_assoc]
      exact Path.step move (inductionHypothesis onward)

/-- What every move keeps, with all that happened so far in view, a path keeps. -/
theorem preserves {holds : List (Occurrence κ) → Sender κ → Prop} {first last : Sender κ}
    {labels : List (Occurrence κ)} (path : Path first labels last)
    (moveKeeps : ∀ past sender happened next, holds past sender →
      Move sender happened next → holds (past ++ happened) next)
    (past : List (Occurrence κ)) (initially : holds past first) :
    holds (past ++ labels) last := by
  induction path generalizing past with
  | refl sender =>
      rw [List.append_nil]
      exact initially
  | step move _ inductionHypothesis =>
      rw [← List.append_assoc]
      exact inductionHypothesis _ (moveKeeps _ _ _ _ initially move)

end Path

theorem path_start (sender : Sender κ) (timeless : sender.transmitter.hasTime = false) :
    Path sender [] sender.start :=
  Path.step (Move.begun sender timeless)
    (Path.single (Move.noted sender.begun (.synchronized sender.transmitter.id sender.now)))

theorem path_awaitSync {sender ready : Sender κ} (ended : sender.awaitSync = some ready) :
    Path sender [] ready ∧ ready.transmitter.hasTime = true := by
  unfold awaitSync at ended
  by_cases timed : sender.transmitter.hasTime = true
  · rw [if_pos timed] at ended
    cases ended
    exact ⟨Path.refl sender, timed⟩
  · have timeless : sender.transmitter.hasTime = false := Bool.not_eq_true _ |>.mp timed
    rw [if_neg timed] at ended
    have looked := Path.single (Move.looked sender)
    simp only at ended
    split at ended
    · cases ended
      exact ⟨looked.trans (path_start _ timeless), rfl⟩
    · rcases Option.map_eq_some_iff.mp ended with ⟨link, seen, readyEq⟩
      rw [← readyEq]
      have waiting := Path.single (Move.noted
        { sender with
          link := (Link.status sender.link sender.transmitter.client.service).2 }
        (.awaitingSync sender.transmitter.id))
      have awaited := Path.single (Move.awaited
        ({ sender with
            link := (Link.status sender.link sender.transmitter.client.service).2 }.note
          (.awaitingSync sender.transmitter.id)) link seen)
      exact ⟨looked.trans (waiting.trans (awaited.trans (path_start _ timeless))), rfl⟩

theorem path_ensureAnnounced {sender ready : Sender κ}
    (timed : sender.transmitter.hasTime = true) (isReady : sender.ensureAnnounced = .ok ready) :
    Path sender (if sender.transmitter.announced then [] else [sender.declaration]) ready ∧
      ready.transmitter.announced = true := by
  unfold ensureAnnounced at isReady
  by_cases isOpen : sender.transmitter.announced = true
  · rw [if_pos isOpen] at isReady ⊢
    cases isReady
    exact ⟨Path.refl sender, isOpen⟩
  · rw [if_neg isOpen] at isReady ⊢
    rw [announce_eq] at isReady
    obtain ⟨link, taken, readyEq⟩ := send_map_ok isReady
    rw [readyEq]
    exact ⟨Path.single (Move.declared sender link timed taken), rfl⟩

theorem path_sendBlocks (sender : Sender κ) (cut : List (List Sample))
    (isOpen : sender.transmitter.announced = true) (nonempty : ∀ block ∈ cut, block ≠ []) :
    Path sender (sender.blockHistory cut) (sender.sendBlocks cut).1 := by
  induction cut generalizing sender with
  | nil => exact Path.refl sender
  | cons block rest inductionHypothesis =>
      unfold blockHistory sendBlocks
      cases outcome : sender.sendBlock block with
      | error cause => exact Path.refl sender
      | ok sent =>
          rw [sendBlock_eq] at outcome
          obtain ⟨link, taken, sentEq⟩ := send_map_ok outcome
          have blockNonempty := nonempty block List.mem_cons_self
          have move := Move.delivered sender block link isOpen blockNonempty taken
          rw [← sentEq] at move
          have stillOpen : sent.transmitter.announced = true := by
            rw [sentEq]
            exact isOpen
          exact Path.step move
            (inductionHypothesis sent stillOpen
              fun later isLater => nonempty later (List.mem_cons_of_mem block isLater))

end Sender

theorem ne_nil_of_mem_blocks {size : SampleCount} {samples block : List Sample}
    (isBlock : block ∈ blocks size samples) : block ≠ [] := by
  fun_induction blocks size samples with
  | case1 => contradiction
  | case2 samples nonempty inductionHypothesis =>
      rcases List.mem_cons.mp isBlock with isFirst | isLater
      · have sizePos := size.count_pos
        have lengthPos : 0 < samples.length := List.length_pos_iff.mpr nonempty
        rw [isFirst]
        apply List.ne_nil_of_length_pos
        rw [List.length_take]
        omega
      · exact inductionHypothesis isLater

namespace Sender

variable {κ : Type} [Link κ]

theorem setStreamTime_awaited {sender ready : Sender κ} (waited : sender.awaitSync = some ready)
    (time : Seconds) :
    sender.setStreamTime time =
      some (match (ready.restart time).announce with
        | .error cause => (ready.restart time, .error cause)
        | .ok announced => (announced, .ok ())) := by
  unfold setStreamTime
  rw [waited]
  rfl

theorem path_setStreamTime (sender : Sender κ) (time : Seconds) :
    Path sender (sender.history (.setStreamTime time)) (sender.perform (.setStreamTime time)) := by
  simp only [history, perform]
  cases outcome : sender.awaitSync with
  | none =>
      simp only [setStreamTime, outcome, Option.map_none, Option.getD_none]
      exact Path.refl sender
  | some ready =>
      obtain ⟨path, timed⟩ := path_awaitSync outcome
      rw [setStreamTime_awaited outcome]
      refine path.trans ?_
      cases announced : (ready.restart time).announce with
      | error cause => exact Path.single (Move.refused ready time timed)
      | ok sent =>
          rw [announce_eq] at announced
          obtain ⟨link, taken, sentEq⟩ := send_map_ok announced
          have move := Move.restarted ready time link timed taken
          rw [← sentEq] at move
          exact Path.single move

theorem path_push (sender : Sender κ) (samples : List Sample) :
    Path sender (sender.history (.push samples)) (sender.perform (.push samples)) := by
  simp only [history, perform, push]
  by_cases empty : samples = []
  · rw [if_pos empty, if_pos empty]
    exact Path.refl sender
  · rw [if_neg empty, if_neg empty]
    cases outcome : sender.awaitSync with
    | none => exact Path.refl sender
    | some ready =>
        obtain ⟨path, timed⟩ := path_awaitSync outcome
        refine path.trans ?_
        simp only [Option.map_some, Option.getD_some]
        cases announced : ready.ensureAnnounced with
        | error cause => exact Path.refl ready
        | ok opened =>
            obtain ⟨opening, isOpen⟩ := path_ensureAnnounced timed announced
            refine opening.trans ?_
            exact path_sendBlocks opened _ isOpen fun block isBlock => ne_nil_of_mem_blocks isBlock

theorem path_close (sender : Sender κ) :
    Path sender (sender.history .close) (sender.perform .close) := by
  simp only [history, perform]
  by_cases idle : (!sender.transmitter.announced || sender.transmitter.closed) = true
  · rw [if_pos idle]
    have unchanged : sender.close = .ok sender := if_pos idle
    rw [unchanged]
    exact Path.refl sender
  · rw [if_neg idle]
    have isOpen : sender.transmitter.announced = true := by
      cases announced : sender.transmitter.announced with
      | false => exact absurd (by rw [announced]; rfl) idle
      | true => rfl
    have notClosed : sender.transmitter.closed = false := by
      cases closed : sender.transmitter.closed with
      | false => rfl
      | true => exact absurd (by rw [closed, Bool.or_true]) idle
    cases outcome : sender.close with
    | error cause => exact Path.refl sender
    | ok sent =>
        rw [close_eq sender isOpen notClosed] at outcome
        obtain ⟨link, taken, sentEq⟩ := send_map_ok outcome
        rw [sentEq]
        exact Path.step (Move.ended sender link isOpen notClosed taken)
          (Path.single (Move.noted _ _))

theorem path_perform (sender : Sender κ) (call : TransmitterCall) :
    Path sender (sender.history call) (sender.perform call) := by
  cases call with
  | awaitSync =>
      unfold history perform
      cases outcome : sender.awaitSync with
      | none => exact Path.refl sender
      | some ready => exact (path_awaitSync outcome).1
  | setStreamTime time => exact sender.path_setStreamTime time
  | push samples => exact sender.path_push samples
  | close => exact sender.path_close
  | setTransmitAhead length => exact Path.single (Move.led sender length)

theorem perform_preserves {α : Type} {select : Occurrence κ → Option α}
    {holds : List α → Sender κ → Prop}
    (moveKeeps : ∀ selected sender happened next, holds selected sender →
      Move sender happened next → holds (selected ++ happened.filterMap select) next)
    (sender : Sender κ) (call : TransmitterCall) {selected : List α}
    (initially : holds selected sender) :
    holds (selected ++ (sender.history call).filterMap select) (sender.perform call) := by
  have keeps : ∀ (past : List (Occurrence κ)) (sender : Sender κ)
      (happened : List (Occurrence κ)) (next : Sender κ),
      holds (selected ++ past.filterMap select) sender → Move sender happened next →
        holds (selected ++ (past ++ happened).filterMap select) next := by
    intro past sender happened next held move
    rw [List.filterMap_append, ← List.append_assoc]
    exact moveKeeps _ _ _ _ held move
  have begins : holds (selected ++ ([] : List (Occurrence κ)).filterMap select) sender := by
    rw [List.filterMap_nil, List.append_nil]
    exact initially
  exact (sender.path_perform call).preserves keeps [] begins

/-! ### Runs -/

/-- One step of a run: a call, or anything that happens to the link meanwhile. -/
inductive Step (κ : Type) where
  | call (call : TransmitterCall)
  | relink (link : κ)

def advance (sender : Sender κ) : Step κ → Sender κ
  | .call call => sender.perform call
  | .relink link => { sender with link := link }

def run (sender : Sender κ) (steps : List (Step κ)) : Sender κ :=
  steps.foldl advance sender

/-- What happens in the course of a run. -/
def chronicle (sender : Sender κ) : List (Step κ) → List (Occurrence κ)
  | [] => []
  | .call call :: rest => sender.history call ++ (sender.perform call).chronicle rest
  | .relink link :: rest => { sender with link := link }.chronicle rest

theorem run_preserves {holds : List (Occurrence κ) → Sender κ → Prop}
    (moveKeeps : ∀ past sender happened next, holds past sender →
      Move sender happened next → holds (past ++ happened) next)
    (relinkKeeps : ∀ past sender link, holds past sender → holds past { sender with link := link })
    (sender : Sender κ) (steps : List (Step κ)) (past : List (Occurrence κ))
    (initially : holds past sender) :
    holds (past ++ sender.chronicle steps) (sender.run steps) := by
  induction steps generalizing sender past with
  | nil =>
      rw [chronicle, List.append_nil]
      exact initially
  | cons step rest inductionHypothesis =>
      cases step with
      | call call =>
          rw [chronicle, ← List.append_assoc]
          exact inductionHypothesis (sender.perform call) _
            ((sender.path_perform call).preserves moveKeeps past initially)
      | relink link =>
          exact inductionHypothesis { sender with link := link } past
            (relinkKeeps past sender link initially)

/-- A log that a link keeps of the messages it takes, and of nothing else. -/
structure Logs (log : κ → List Message) : Prop where
  looked : ∀ link service, log (Link.status link service).2 = log link
  awaited : ∀ link service seen,
    Link.awaitSynchronized link service = some seen → log seen = log link
  noted : ∀ link notice, log (Link.note link notice) = log link
  taken : ∀ link message next,
    Link.send link message = .ok next → log next = log link ++ [message]

theorem Move.logged {log : κ → List Message} (logs : Logs log) {sender next : Sender κ}
    {happened : List (Occurrence κ)} (move : Move sender happened next) :
    log next.link = log sender.link ++ happened.filterMap Occurrence.message? := by
  cases move with
  | looked =>
      rw [List.filterMap_nil, List.append_nil]
      exact logs.looked _ _
  | awaited link seen =>
      rw [List.filterMap_nil, List.append_nil]
      exact logs.awaited _ _ _ seen
  | noted notice =>
      rw [List.filterMap_nil, List.append_nil]
      exact logs.noted _ _
  | begun | led | refused => exact (List.append_nil _).symm
  | declared link timed taken => exact logs.taken _ _ _ taken
  | restarted time link timed taken => exact logs.taken _ _ _ taken
  | delivered block link isOpen nonempty taken => exact logs.taken _ _ _ taken
  | ended link isOpen notClosed taken => exact logs.taken _ _ _ taken

/-- In a call the link is sent the messages of the history, and no others. -/
theorem perform_logged {log : κ → List Message} (logs : Logs log) (sender : Sender κ)
    (call : TransmitterCall) :
    log (sender.perform call).link =
      log sender.link ++ (sender.history call).filterMap Occurrence.message? := by
  have moveKeeps (sent : List Message) (current : Sender κ) (happened : List (Occurrence κ))
      (next : Sender κ) (logged : log current.link = log sender.link ++ sent)
      (move : Move current happened next) :
      log next.link = log sender.link ++ (sent ++ happened.filterMap Occurrence.message?) := by
    rw [move.logged logs, logged, List.append_assoc]
  exact perform_preserves moveKeeps sender call (List.append_nil _).symm

theorem recorder_logs : Logs Recorder.sent where
  looked recorder service := (recorder.look_spec service).1
  awaited recorder service _ found := by
    have lookKeeps (current : Recorder) (same : current.sent = recorder.sent) :
        (current.look service).2.sent = recorder.sent :=
      (current.look_spec service).1.trans same
    exact Recorder.lookAlong_preserves lookKeeps found rfl
  noted _ _ := rfl
  taken _ _ _ taken := (Recorder.record_spec taken).1

def mixerClient : Client where
  address := "mixer/0"
  address_valid := by decide

def promptConfig : TransmitterConfig where
  sampleRate := defaultSampleRate
  transmitAhead := Binary.zero
  immediateCutoff := Binary.zero
  maxChunk := none
  syncPollInterval := Interval.halfSecond

def freshTransmitter (config : TransmitterConfig) : Transmitter where
  client := mixerClient
  id := { value := 0 }
  config := config
  time := Binary.zero
  sampleCounter := 0
  lastDeadline := Binary.zero
  hasTime := false
  announced := false
  closed := false

def freshSender (config : TransmitterConfig) (link : κ) : Sender κ where
  transmitter := freshTransmitter config
  link := Link.note link (.transmitting { value := 0 } "mixer/0")

theorem create_freshSender {config : TransmitterConfig} (validated : config.validate = .ok ())
    (link : κ) : create link { value := 0 } "mixer" "0" config = .ok (freshSender config link) := by
  unfold create
  rw [validated]
  rfl

def limitedRecorder (allowance : Option Nat) : Recorder :=
  { Recorder.create (Binary.ofBits 0x4059000000000000) .synchronizedLocal with
    allowance := allowance }

end Sender

end AudioBus
