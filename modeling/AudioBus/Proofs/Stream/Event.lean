import AudioBus.Proofs.Codec.RoundTrip
import AudioBus.Stream.Event

/-!
Stream events survive the way: the call that carries an event is one that its method takes, and
the receiver reads the same event off it.
-/

namespace AudioBus

theorem StreamMethod.mem_all (method : StreamMethod) : method ∈ StreamMethod.all := by
  cases method <;> decide

theorem StreamMethod.isAddress_name (method : StreamMethod) : isAddress method.name = true := by
  cases method <;> decide

theorem StreamMethod.parse_signature (method : StreamMethod) :
    Signature.parse method.signature.text = .ok method.signature := by
  cases method with
  | sync => decide +kernel
  | push => decide +kernel
  | close => decide +kernel

example : StreamMethod.all.map (fun method => method.signature.text) = ["ht", "hvf", "h"] := by
  decide +kernel

namespace StreamEvent

def samples : StreamEvent → List Sample
  | .sync _ _ => []
  | .push _ samples => samples
  | .close _ => []

def call (event : StreamEvent) (address : String) (timestamp : Seconds) : Message where
  timestamp := timestamp
  path := joinAddresses address event.method.name
  arguments := event.toArguments

theorem ofArguments_toArguments (event : StreamEvent) :
    ofArguments event.method event.toArguments = .ok event := by
  cases event with
  | sync id time => rfl
  | push id samples => rfl
  | close id => rfl

theorem accepts_toArguments (event : StreamEvent) :
    event.method.signature.accepts event.toArguments = true := by
  cases event with
  | sync id time => rfl
  | push id samples => rfl
  | close id => rfl

theorem count_le (event : StreamEvent) :
    ∀ argument ∈ event.toArguments, argument.count ≤ event.samples.length := by
  cases event with
  | sync id time => simp [toArguments, Argument.count, samples]
  | push id block => simp [toArguments, Argument.count, samples]
  | close id => simp [toArguments, Argument.count, samples]

theorem call_countable {event : StreamEvent} {address : String} (timestamp : Seconds)
    (path : (bytesOfText (joinAddresses address event.method.name)).length < 2 ^ 64)
    (block : event.samples.length < 2 ^ 64) : (event.call address timestamp).Countable := by
  constructor
  case path => exact path
  case arguments =>
    change event.toArguments.length < 2 ^ 64
    cases event with
    | sync id time => exact (by decide : 2 < 2 ^ 64)
    | push id samples => exact (by decide : 2 < 2 ^ 64)
    | close id => exact (by decide : 1 < 2 ^ 64)
  case values =>
    intro argument isArgument
    exact Nat.lt_of_le_of_lt (event.count_le argument isArgument) block

end StreamEvent

namespace Argument

theorem asInteger?_eq_none_iff (argument : Argument) :
    argument.asInteger? = none ↔ argument.kind ∉ [ArgumentKind.int32, .int64] := by
  cases argument <;> simp [asInteger?, kind]

theorem asSeconds?_eq_none_iff (argument : Argument) :
    argument.asSeconds? = none ↔ argument.kind ∉ [ArgumentKind.double, .time] := by
  cases argument <;> simp [asSeconds?, kind]

theorem asSamples?_eq_none_iff (argument : Argument) :
    argument.asSamples? = none ↔ argument.kind ∉ [ArgumentKind.floats] := by
  cases argument <;> simp [asSamples?, kind]

end Argument

namespace StreamMethod

def readable : StreamMethod → List (List ArgumentKind)
  | .sync => [[.int32, .int64], [.double, .time]]
  | .push => [[.int32, .int64], [.floats]]
  | .close => [[.int32, .int64]]

/-- The first position at which a method cannot read its argument. -/
def unreadable? (method : StreamMethod) (arguments : List Argument) : Option Nat :=
  (method.readable.zip arguments).findIdx? fun (kinds, argument) =>
    decide (argument.kind ∉ kinds)

theorem unreadable?_pair {method : StreamMethod} {kinds otherKinds : List ArgumentKind}
    (reads : method.readable = [kinds, otherKinds]) (first second : Argument) :
    method.unreadable? [first, second] =
      if first.kind ∉ kinds then some 0 else if second.kind ∉ otherKinds then some 1 else none := by
  unfold unreadable?
  rw [reads]
  by_cases readsFirst : first.kind ∈ kinds
  · by_cases readsSecond : second.kind ∈ otherKinds
    · simp [readsFirst, readsSecond, List.findIdx?_cons]
    · simp [readsFirst, readsSecond, List.findIdx?_cons]
  · simp [readsFirst, List.findIdx?_cons]

theorem unreadable?_close (first : Argument) :
    close.unreadable? [first] =
      if first.kind ∉ [ArgumentKind.int32, .int64] then some 0 else none := by
  by_cases reads : first.kind ∈ [ArgumentKind.int32, .int64]
  · simp [unreadable?, readable, reads, List.findIdx?_cons]
  · simp [unreadable?, readable, reads, List.findIdx?_cons]

end StreamMethod

namespace StreamEvent

theorem ofArguments_of_length_ne {method : StreamMethod} {arguments : List Argument}
    (wrongCount : arguments.length ≠ method.arity) :
    ofArguments method arguments = .error (.arity method method.arity arguments.length) := by
  rcases arguments with _ | ⟨first, _ | ⟨second, _ | ⟨third, more⟩⟩⟩
  · cases method <;> rfl
  · cases method with
    | close => exact absurd rfl wrongCount
    | _ => rfl
  · cases method with
    | close => rfl
    | _ => exact absurd rfl wrongCount
  · cases method <;> rfl

theorem ofArguments_of_length_eq {method : StreamMethod} {arguments : List Argument}
    (rightCount : arguments.length = method.arity) :
    match method.unreadable? arguments with
    | some position => ofArguments method arguments = .error (.argumentType method position)
    | none => ∃ event, ofArguments method arguments = .ok event := by
  cases method with
  | sync =>
      obtain ⟨first, second, rfl⟩ := List.length_eq_two.mp rightCount
      rw [StreamMethod.unreadable?_pair rfl]
      simp only [← Argument.asInteger?_eq_none_iff, ← Argument.asSeconds?_eq_none_iff, ofArguments]
      cases first.asInteger? with
      | none => rfl
      | some id =>
          cases second.asSeconds? with
          | none => rfl
          | some time => exact ⟨_, rfl⟩
  | push =>
      obtain ⟨first, second, rfl⟩ := List.length_eq_two.mp rightCount
      rw [StreamMethod.unreadable?_pair rfl]
      simp only [← Argument.asInteger?_eq_none_iff, ← Argument.asSamples?_eq_none_iff, ofArguments]
      cases first.asInteger? with
      | none => rfl
      | some id =>
          cases second.asSamples? with
          | none => rfl
          | some samples => exact ⟨_, rfl⟩
  | close =>
      obtain ⟨first, rfl⟩ := List.length_eq_one_iff.mp rightCount
      rw [StreamMethod.unreadable?_close]
      simp only [← Argument.asInteger?_eq_none_iff, ofArguments]
      cases first.asInteger? with
      | none => rfl
      | some id => exact ⟨_, rfl⟩

end StreamEvent

theorem joinAddresses_inj {address other : String} {method otherMethod : StreamMethod}
    (same : joinAddresses address method.name = joinAddresses other otherMethod.name) :
    address = other ∧ method = otherMethod := by
  have sameList : address.toList ++ '/' :: method.name.toList =
      other.toList ++ '/' :: otherMethod.name.toList := by
    have lists := congrArg String.toList same
    simpa [joinAddresses, String.toList_append] using lists
  have lastOf (start : String) (spoken : StreamMethod) :
      (start.toList ++ '/' :: spoken.name.toList).getLast? = spoken.name.toList.getLast? := by
    rw [List.getLast?_append]
    cases spoken <;> rfl
  -- The last letters of the names tell the methods apart.
  have sameMethod : method = otherMethod := by
    have lasts := congrArg List.getLast? sameList
    rw [lastOf, lastOf] at lasts
    revert lasts
    cases method <;> cases otherMethod <;> decide
  rw [sameMethod] at sameList
  exact ⟨String.toList_inj.mp (List.append_cancel_right sameList), sameMethod⟩

namespace StreamEvent

/-- The event that a call of a method makes whose arguments are of the declared types; a double may
stand for a time. -/
def ofCall? : StreamMethod → List Argument → Option StreamEvent
  | .sync, [.int64 id, .time time] => some (.sync { value := id } time)
  | .sync, [.int64 id, .double time] => some (.sync { value := id } time)
  | .push, [.int64 id, .floats samples] => some (.push { value := id } samples)
  | .close, [.int64 id] => some (.close { value := id })
  | _, _ => none

/-- The event that a message carries to the receiver at an address: its path must be that of one of
the receiver's methods. -/
def carried? (address : String) (message : Message) : Option StreamEvent :=
  (StreamMethod.all.find? fun method =>
    decide (message.path = joinAddresses address method.name)).bind fun method =>
      ofCall? method message.arguments

theorem method_of_ofCall? {method : StreamMethod} {arguments : List Argument} {event : StreamEvent}
    (isCall : ofCall? method arguments = some event) : event.method = method := by
  unfold ofCall? at isCall
  split at isCall
  all_goals cases isCall
  all_goals rfl

theorem ofCall?_cases (method : StreamMethod) (arguments : List Argument) :
    (method.signature.accepts arguments = false ∧ ofCall? method arguments = none) ∨
      ∃ event, method.signature.accepts arguments = true ∧
        ofArguments method arguments = .ok event ∧ ofCall? method arguments = some event := by
  unfold ofCall?
  split
  · exact Or.inr ⟨_, rfl, rfl, rfl⟩
  · exact Or.inr ⟨_, rfl, rfl, rfl⟩
  · exact Or.inr ⟨_, rfl, rfl, rfl⟩
  · exact Or.inr ⟨_, rfl, rfl, rfl⟩
  · rename_i notTimed notDoubled notPushed notClosed
    refine Or.inl ⟨?_, rfl⟩
    rcases arguments with _ | ⟨first, _ | ⟨second, _ | ⟨third, more⟩⟩⟩
    · cases method <;> rfl
    · cases first with
      | int64 id =>
          cases method with
          | close => exact absurd rfl (notClosed id rfl)
          | _ => rfl
      | _ => cases method <;> rfl
    · cases first with
      | int64 id =>
          cases method with
          | sync =>
              cases second with
              | time time => exact absurd rfl (notTimed id time rfl)
              | double time => exact absurd rfl (notDoubled id time rfl)
              | _ => rfl
          | push =>
              cases second with
              | floats samples => exact absurd rfl (notPushed id samples rfl)
              | _ => rfl
          | close => rfl
      | _ => cases method <;> rfl
    · cases method <;> simp [Signature.accepts, StreamMethod.signature, Signature.matchKinds]

theorem ofCall?_eq_some_iff {method : StreamMethod} {arguments : List Argument}
    {event : StreamEvent} :
    ofCall? method arguments = some event ↔
      ofArguments method arguments = .ok event ∧ ∃ id rest, arguments = .int64 id :: rest := by
  constructor
  · intro isCall
    rcases ofCall?_cases method arguments with ⟨_, refused⟩ | ⟨other, _, read, taken⟩
    · rw [refused] at isCall
      contradiction
    · rw [taken] at isCall
      cases isCall
      refine ⟨read, ?_⟩
      unfold ofCall? at taken
      split at taken
      all_goals first | contradiction | exact ⟨_, _, rfl⟩
  · rintro ⟨read, id, rest, rfl⟩
    cases method with
    | sync =>
        rcases rest with _ | ⟨second, _ | ⟨third, more⟩⟩
        · contradiction
        · cases second with
          | double time | time time =>
              cases read
              rfl
          | _ => contradiction
        · contradiction
    | push =>
        rcases rest with _ | ⟨second, _ | ⟨third, more⟩⟩
        · contradiction
        · cases second with
          | floats samples =>
              cases read
              rfl
          | _ => contradiction
        · contradiction
    | close =>
        rcases rest with _ | ⟨second, more⟩
        · cases read
          rfl
        · contradiction

theorem carried?_eq {address : String} {message : Message} {method : StreamMethod}
    (isPath : message.path = joinAddresses address method.name) :
    carried? address message = ofCall? method message.arguments := by
  have found : (StreamMethod.all.find? fun other =>
      decide (message.path = joinAddresses address other.name)) = some method := by
    rw [isPath]
    have hits (other : StreamMethod) :
        decide (joinAddresses address method.name = joinAddresses address other.name) =
          decide (method = other) := by
      apply decide_eq_decide.mpr
      constructor
      · exact fun same => (joinAddresses_inj same).2
      · exact fun same => congrArg (fun spoken => joinAddresses address spoken.name) same
    simp only [hits]
    cases method <;> rfl
  unfold carried?
  rw [found]
  rfl

theorem path_of_carried? {address : String} {message : Message} {event : StreamEvent}
    (carries : carried? address message = some event) :
    message.path = joinAddresses address event.method.name := by
  obtain ⟨method, found, isCall⟩ := Option.bind_eq_some_iff.mp carries
  rw [method_of_ofCall? isCall]
  have isPath := List.find?_some found
  exact of_decide_eq_true isPath

theorem carried?_call (event : StreamEvent) (address : String) (timestamp : Seconds) :
    carried? address (event.call address timestamp) = some event := by
  have isPath : (event.call address timestamp).path =
      joinAddresses address event.method.name := rfl
  rw [carried?_eq isPath]
  cases event <;> rfl

end StreamEvent

end AudioBus
