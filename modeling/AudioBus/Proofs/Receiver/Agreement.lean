import AudioBus.Proofs.Bus.Delivery
import AudioBus.Proofs.Bus.Traffic
import AudioBus.Proofs.Receiver.Listening
import AudioBus.Proofs.Receiver.Ownership

/-!
What receivers are handed.  The bus checks the arguments of a call against the declared signature,
and the receiver reads an event off them.  As every method of a receiver is bound with its own
signature, however the bus is used, what passes the check can always be read.
-/

namespace AudioBus

theorem Applied.not_ignored (applied : Applied) (readHead : SampleIndex) (path : String)
    (cause : EventError) : .callIgnored path cause ∉ applied.notices readHead := by
  cases applied with
  | declared id time how =>
      cases previous : how.previous with
      | none => simp [notices, previous]
      | some index => simp [notices, previous]
  | taken id length how => simp [notices]
  | closed id wasOpen => simp [notices]

theorem Mixer.receive_of_read {method : StreamMethod} {message : Message} {event : StreamEvent}
    (read : StreamEvent.ofArguments method message.arguments = .ok event)
    (mixer : Mixer Seconds) :
    (mixer.receive method message).1 = (mixer.apply event).1 ∧
      ∀ path cause, .callIgnored path cause ∉ (mixer.receive method message).2 := by
  unfold receive
  rw [read]
  refine ⟨rfl, ?_⟩
  intro path cause isTold
  rcases List.mem_cons.mp isTold with isReceived | isApplied
  · cases isReceived
  · exact Applied.not_ignored _ _ path cause isApplied

section Hosting

variable {η ω : Type}

/-- Whether a request binds none of the handlers that speak for a receiver's method. -/
def Request.Foreign (spoken? : η → Option StreamMethod) : Request η → Prop
  | .bind _ _ handler => spoken? handler = none
  | .send _ | .unbind _ | .advanceClock _ => True

def PeerStep.Foreign (spoken? : η → Option StreamMethod) : PeerStep η → Prop
  | .request asked => asked.Foreign spoken?
  | .acquire _ | .release _ | .synchronize _ | .setClock _ | .note _ | .poll => True

/-- The peers that come about on a new bus by receivers being created and by any other steps, where
only receivers bind their methods. -/
inductive Peer.Hosting (spoken? : η → Option StreamMethod) (behaviour : Behaviour η ω) :
    Peer η ω → Prop
  | created (peerName : String) (clock : Seconds) (outside : ω) :
      Hosting spoken? behaviour { bus := Bus.create peerName clock, outside := outside }
  | step {peer : Peer η ω} (step : PeerStep η) (foreign : step.Foreign spoken?)
      (hosting : Hosting spoken? behaviour peer) :
      Hosting spoken? behaviour (peer.advance behaviour step)
  | opened {peer : Peer η ω} (handler : StreamMethod → η)
      (speaks : ∀ method, spoken? (handler method) = some method) (service endpoint : String)
      (config : ReceiverConfig) (hosting : Hosting spoken? behaviour peer) :
      Hosting spoken? behaviour
        { peer with bus := (Receiver.create handler peer.bus service endpoint config).1 }
  | beside {peer : Peer η ω} (outside : ω) (hosting : Hosting spoken? behaviour peer) :
      Hosting spoken? behaviour { peer with outside := outside }

/-- Whether every method of a receiver that is bound declares its own signature. -/
def Bus.Honors (spoken? : η → Option StreamMethod) (bus : Bus η) : Prop :=
  ∀ entry ∈ bus.methods.entries, ∀ method,
    spoken? entry.2.handler = some method → entry.2.signature = method.signature

/-- Whether a call can be read by the receiver that is handed it, if it is one. -/
def Verdict.Understood (spoken? : η → Option StreamMethod) : Verdict η → Prop
  | .accepted message handler => ∀ method, spoken? handler = some method →
      ∃ event, StreamEvent.ofArguments method message.arguments = .ok event
  | .undecodable _ | .unknown _ | .refused _ _ => True

variable {spoken? : η → Option StreamMethod} {behaviour : Behaviour η ω}

namespace Bus.Honors

variable {bus next : Bus η}

theorem of_subset (honors : bus.Honors spoken?)
    (subset : next.methods.entries ⊆ bus.methods.entries) : next.Honors spoken? :=
  fun entry isEntry => honors entry (subset isEntry)

theorem of_methods (honors : bus.Honors spoken?) (methods : next.methods = bus.methods) :
    next.Honors spoken? := by
  unfold Honors
  rw [methods]
  exact honors

theorem bind (honors : bus.Honors spoken?) {path : String} {signature : Signature} {handler : η}
    (foreign : spoken? handler = none) (bound : bus.bind path signature handler = .ok next) :
    next.Honors spoken? := by
  intro entry isEntry method speaks
  rw [(bind_spec bound).2.entries] at isEntry
  rcases List.mem_append.mp isEntry with isFormer | isAdded
  · exact honors entry isFormer method speaks
  · rw [List.mem_singleton.mp isAdded, foreign] at speaks
    contradiction

theorem perform (honors : bus.Honors spoken?) {request : Request η}
    (foreign : request.Foreign spoken?) : (bus.perform request).Honors spoken? := by
  cases request with
  | send message => exact honors.of_methods rfl
  | unbind path => exact honors.of_subset (List.filter_subset_self _)
  | advanceClock length => exact honors.of_methods rfl
  | bind path signature handler =>
      cases outcome : bus.bind path signature handler with
      | error cause =>
          simp only [Bus.perform, outcome]
          exact honors
      | ok bound =>
          simp only [Bus.perform, outcome]
          exact honors.bind foreign outcome

theorem persists : Persists (Bus.Honors spoken?) (Request.Foreign spoken?) where
  note _ _ honors := honors.of_methods rfl
  perform _ _ foreign honors := honors.perform foreign

/-- A receiver's method is bound with the signature that its text declares, so that what it is
called with can be read. -/
theorem judge (honors : bus.Honors spoken?) (frame : List UInt8) :
    (bus.judge frame).Understood spoken? := by
  unfold Bus.judge
  cases Message.decode frame with
  | error cause => trivial
  | ok message =>
      simp only
      cases found : bus.methods.find? message.path with
      | none => trivial
      | some bound =>
          by_cases accepts : bound.signature.accepts message.arguments = true
          · simp only [accepts, if_true]
            intro method speaks
            rw [honors _ (Table.find?_eq_some_iff.mp found) method speaks] at accepts
            rcases StreamEvent.ofCall?_cases method message.arguments with
              ⟨refused, _⟩ | ⟨event, _, read, _⟩
            · rw [refused] at accepts
              contradiction
            · exact ⟨event, read⟩
          · simp only [accepts]
            trivial

theorem create (honors : bus.Honors spoken?) {handler : StreamMethod → η}
    (speaks : ∀ method, spoken? (handler method) = some method) (service endpoint : String)
    (config : ReceiverConfig) :
    (Receiver.create handler bus service endpoint config).1.Honors spoken? := by
  cases outcome : Receiver.create handler bus service endpoint config with
  | mk next result =>
      cases result with
      | error cause =>
          exact honors.of_methods (Table.eq_of_entries (Receiver.create_error outcome).2.1)
      | ok opened =>
          intro entry isEntry method isSpoken
          rw [(Receiver.create_ok outcome).entries] at isEntry
          rcases List.mem_append.mp isEntry with isFormer | isHeld
          · exact honors entry isFormer method isSpoken
          · obtain ⟨own, _, entryEq⟩ := List.mem_map.mp isHeld
            rw [← entryEq, speaks] at isSpoken
            rw [← entryEq, Option.some.inj isSpoken]

end Bus.Honors

namespace Peer

variable {peer : Peer η ω}

theorem poll_understood (foreign : Asks (Request.Foreign spoken?) behaviour)
    (honors : peer.bus.Honors spoken?) :
    (peer.poll behaviour).1.bus.Honors spoken? ∧
      ∀ verdict ∈ (peer.poll behaviour).2, verdict.Understood spoken? := by
  have relieved : peer.relieved.bus.Honors spoken? := honors
  obtain ⟨lastHonors, judged⟩ :=
    Bus.Honors.persists.deliverAll foreign relieved (peer.dispatched .poll)
  refine ⟨lastHonors, ?_⟩
  intro verdict isVerdict
  obtain ⟨bus, frame, stillHonors, verdictEq⟩ := judged verdict isVerdict
  rw [verdictEq]
  exact stillHonors.judge frame

theorem Hosting.honors (foreign : Asks (Request.Foreign spoken?) behaviour)
    (hosting : Hosting spoken? behaviour peer) : peer.bus.Honors spoken? := by
  induction hosting with
  | created peerName clock outside => exact fun _ isEntry => absurd isEntry List.not_mem_nil
  | @step peer step stepForeign _ inductionHypothesis =>
      cases step with
      | request request => exact inductionHypothesis.perform stepForeign
      | acquire service =>
          exact inductionHypothesis.of_methods (peer.bus.acquire_spec service).2.1
      | release service =>
          exact inductionHypothesis.of_methods (peer.bus.release_spec service).2
      | synchronize isSynchronized => exact inductionHypothesis.of_methods rfl
      | setClock time => exact inductionHypothesis.of_methods rfl
      | note notice => exact inductionHypothesis.of_methods rfl
      | poll => exact (poll_understood foreign inductionHypothesis).1
  | opened handler speaks service endpoint config _ inductionHypothesis =>
      exact inductionHypothesis.create speaks service endpoint config
  | beside outside _ inductionHypothesis => exact inductionHypothesis

end Peer

end Hosting

/-- The bus and its receivers agree on calls.  The text of a method's signature can be parsed, and
accepts just the arguments of which the receiver makes an event and the first of which is a number
of 64 bits.  Another number of arguments is refused before any type is looked at, another type at
the first position that cannot be read.  The arguments made for an event are accepted and give the
event back, also after a frame.  So whatever is handed to a receiver's method on a bus is read and
applied, never ignored. -/
theorem Receiver.check_and_decoder_agree :
    (∀ method : StreamMethod, ∃ signature,
      Signature.parse method.signature.text = .ok signature ∧
      ∀ arguments, signature.accepts arguments = true ↔
        (∃ event, StreamEvent.ofArguments method arguments = .ok event) ∧
          ∃ id rest, arguments = .int64 id :: rest) ∧
    (∀ (method : StreamMethod) (arguments : List Argument),
      (arguments.length ≠ method.arity → StreamEvent.ofArguments method arguments =
        .error (.arity method method.arity arguments.length)) ∧
      (arguments.length = method.arity →
        match method.unreadable? arguments with
        | some position =>
            StreamEvent.ofArguments method arguments = .error (.argumentType method position)
        | none => ∃ event, StreamEvent.ofArguments method arguments = .ok event)) ∧
    (∀ event : StreamEvent,
      (∃ signature, Signature.parse event.method.signature.text = .ok signature ∧
        signature.accepts event.toArguments = true) ∧
      StreamEvent.ofArguments event.method event.toArguments = .ok event ∧
      ∀ message : Message, message.arguments = event.toArguments → message.Countable →
        ∃ read, Message.decode message.encode = .ok read ∧
          StreamEvent.ofArguments event.method read.arguments = .ok event) ∧
    (∀ (η ω : Type) (spoken? : η → Option StreamMethod) (behaviour : Behaviour η ω)
        (peer : Peer η ω),
      Asks (Request.Foreign spoken?) behaviour → peer.Hosting spoken? behaviour →
      ∀ message handler method, .accepted message handler ∈ (peer.poll behaviour).2 →
        spoken? handler = some method →
        ∃ event, StreamEvent.ofArguments method message.arguments = .ok event ∧
          ∀ mixer : Mixer Seconds, (mixer.receive method message).1 = (mixer.apply event).1 ∧
            ∀ path cause, .callIgnored path cause ∉ (mixer.receive method message).2) := by
  refine ⟨?_, ?_, ?_, ?_⟩
  · intro method
    refine ⟨method.signature, method.parse_signature, ?_⟩
    intro arguments
    constructor
    · intro accepts
      rcases StreamEvent.ofCall?_cases method arguments with ⟨refused, _⟩ | ⟨event, _, _, isCall⟩
      · rw [refused] at accepts
        contradiction
      · obtain ⟨read, wide⟩ := StreamEvent.ofCall?_eq_some_iff.mp isCall
        exact ⟨⟨event, read⟩, wide⟩
    · rintro ⟨⟨event, read⟩, wide⟩
      have isCall := StreamEvent.ofCall?_eq_some_iff.mpr ⟨read, wide⟩
      rcases StreamEvent.ofCall?_cases method arguments with ⟨_, none⟩ | ⟨_, accepts, _⟩
      · rw [none] at isCall
        contradiction
      · exact accepts
  · intro method arguments
    exact ⟨StreamEvent.ofArguments_of_length_ne, StreamEvent.ofArguments_of_length_eq⟩
  · intro event
    refine ⟨⟨_, event.method.parse_signature, event.accepts_toArguments⟩,
      event.ofArguments_toArguments, ?_⟩
    intro message carries countable
    refine ⟨message, Message.decode_encode countable, ?_⟩
    rw [carries]
    exact event.ofArguments_toArguments
  · intro η ω spoken? behaviour peer foreign hosting message handler method isVerdict speaks
    obtain ⟨event, read⟩ := (Peer.poll_understood foreign (hosting.honors foreign)).2 _ isVerdict
      method speaks
    exact ⟨event, read, Mixer.receive_of_read read⟩

def samplePush : StreamEvent :=
  .push { value := 7 } [Binary.zero]

def peerWithReceiver : Peer StreamMethod Reception where
  bus := (Receiver.create (fun method => method) (Bus.create "peer" Binary.zero) "mixer" "0"
    Mixer.fourSlotConfig).1
  outside := { mixer := Mixer.fourSlotMixer, outcomes := [] }

/-- Two blocks were sent to the receiver.  The stream number of the second has 32 bits, which the
receiver could read, but the bus does not accept. -/
def peerWithCalls : Peer StreamMethod Reception :=
  let block := samplePush.call "mixer/0" Binary.zero
  (peerWithReceiver.advance listening (.request (.send block))).advance listening
    (.request (.send { block with arguments := [.int32 7, .floats [Binary.zero]] }))

theorem peerWithCalls_agree :
    (peerWithCalls.poll listening).2.map Verdict.isAccepted = [true, false] ∧
      (∃ message method event, .accepted message method ∈ (peerWithCalls.poll listening).2 ∧
        StreamEvent.ofArguments method message.arguments = .ok event ∧
        (Mixer.fourSlotMixer.receive method message).1 = (Mixer.fourSlotMixer.apply event).1) ∧
      ∃ read, Message.decode (samplePush.call "mixer/0" Binary.zero).encode = .ok read ∧
        StreamEvent.ofArguments .push read.arguments = .ok samplePush := by
  obtain ⟨_, _, readBack, understood⟩ := Receiver.check_and_decoder_agree
  have verdicts : (peerWithCalls.poll listening).2.map Verdict.isAccepted = [true, false] := by
    decide +kernel
  have foreign : Asks (Request.Foreign some) listening := by
    intro method message now reception request isRequest
    cases isRequest
  have opened : peerWithReceiver.Hosting some listening :=
    (Peer.Hosting.created "peer" Binary.zero peerWithReceiver.outside).opened (fun method => method)
      (fun _ => rfl) "mixer" "0" Mixer.fourSlotConfig
  have hosting : peerWithCalls.Hosting some listening :=
    (opened.step (.request (.send _)) trivial).step (.request (.send _)) trivial
  refine ⟨verdicts, ?_, ?_⟩
  · have isHandled : true ∈ (peerWithCalls.poll listening).2.map Verdict.isAccepted := by
      rw [verdicts]
      exact List.mem_cons_self
    obtain ⟨verdict, isVerdict, isAccepted⟩ := List.mem_map.mp isHandled
    cases verdict with
    | accepted message method =>
        obtain ⟨event, read, applied⟩ :=
          understood _ _ some listening peerWithCalls foreign hosting message method method isVerdict
            rfl
        exact ⟨message, method, event, isVerdict, read, (applied Mixer.fourSlotMixer).1⟩
    | _ => contradiction
  · exact (readBack samplePush).2.2 (samplePush.call "mixer/0" Binary.zero) rfl (by decide +kernel)

end AudioBus
