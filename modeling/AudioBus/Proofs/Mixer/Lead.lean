import AudioBus.Proofs.Mixer.Run

/-!
The consumer never overtakes a stream that it waits for.

What is available ends at the write head of the slowest open stream.  A stream that is not behind
the read head therefore stays so, whatever the consumer pulls or discards and whatever the other
streams do; only a gap, or a declaration or the end of the stream itself, can change that.
-/

namespace AudioBus

/-- Whether a call neither skips frames nor moves or forgets the stream. -/
def MixerCall.Spares {τ : Type} (id : StreamId) : MixerCall τ → Prop
  | .declare other _ => other ≠ id
  | .close other => other ≠ id
  | .gap _ => False
  | _ => True

namespace Mixer

variable {τ : Type}

/-- Whether a stream is open and not behind the read head. -/
def CaughtUp (mixer : Mixer τ) (id : StreamId) : Prop :=
  ∃ index, mixer.streams.find? id = some index ∧ mixer.readHead.value ≤ index.value

theorem le_foldl_min_iff (lead : SampleIndex → Nat) (indices : List SampleIndex)
    (frames least : Nat) :
    frames ≤ indices.foldl (fun least index => min least (lead index)) least ↔
      frames ≤ least ∧ ∀ index ∈ indices, frames ≤ lead index := by
  induction indices generalizing least with
  | nil => simp
  | cons index rest inductionHypothesis =>
      rw [List.foldl_cons, inductionHypothesis, Nat.le_min, List.forall_mem_cons, and_assoc]

theorem le_available_iff (mixer : Mixer τ) (frames : Nat) :
    frames ≤ mixer.available ↔
      frames ≤ mixer.capacity ∧
        ∀ index ∈ mixer.streams.values, frames ≤ lead mixer.readHead index :=
  le_foldl_min_iff (lead mixer.readHead) mixer.streams.values frames mixer.capacity

theorem available_le_lead {mixer : Mixer τ} {id : StreamId} {index : SampleIndex}
    (opened : mixer.streams.find? id = some index) :
    mixer.available ≤ index.value - mixer.readHead.value :=
  ((mixer.le_available_iff _).mp (Nat.le_refl _)).2 index (Table.mem_values_of_find? opened)

variable [TimeScale τ]

theorem framesTaken_le_lead {mixer : Mixer τ} {id : StreamId} {index : SampleIndex}
    (opened : mixer.streams.find? id = some index) {call : MixerCall τ} (spares : call.Spares id) :
    mixer.framesTaken call ≤ index.value - mixer.readHead.value := by
  have bound := available_le_lead opened
  cases call with
  | pull out frames stride =>
      rw [framesTaken, pull_frames]
      omega
  | discard frames =>
      change min frames mixer.available ≤ _
      omega
  | gap frames => exact spares.elim
  | declare other time => exact Nat.zero_le _
  | push other block => exact Nat.zero_le _
  | close other => exact Nat.zero_le _
  | setStreamTime time => exact Nat.zero_le _

theorem find?_perform {mixer : Mixer τ} {id : StreamId} {index : SampleIndex}
    (opened : mixer.streams.find? id = some index) {call : MixerCall τ} (spares : call.Spares id) :
    ∃ next, (mixer.perform call).streams.find? id = some next ∧ index.value ≤ next.value := by
  cases call with
  | declare other time =>
      refine ⟨index, ?_, Nat.le_refl _⟩
      rw [← opened]
      exact Table.find?_insert_of_ne _ (Ne.symm spares) _
  | push other block =>
      rw [perform, push_streams]
      by_cases same : other = id
      · subst other
        refine ⟨index.advance block.length, ?_, ?_⟩
        · rw [Table.find?_insert_self, opened]
          rfl
        · have bound := index.value_le
          rw [SampleIndex.advance_value]
          omega
      · refine ⟨index, ?_, Nat.le_refl _⟩
        rw [Table.find?_insert_of_ne _ (Ne.symm same), opened]
  | close other =>
      refine ⟨index, ?_, Nat.le_refl _⟩
      rw [← opened]
      exact Table.find?_erase_of_ne _ (Ne.symm spares)
  | gap frames => exact spares.elim
  | pull out frames stride => exact ⟨index, opened, Nat.le_refl _⟩
  | discard frames => exact ⟨index, opened, Nat.le_refl _⟩
  | setStreamTime time => exact ⟨index, opened, Nat.le_refl _⟩

theorem CaughtUp.perform {mixer : Mixer τ} {id : StreamId} (caughtUp : mixer.CaughtUp id)
    {call : MixerCall τ} (spares : call.Spares id) : (mixer.perform call).CaughtUp id := by
  obtain ⟨index, opened, ahead⟩ := caughtUp
  obtain ⟨next, stillOpened, onward⟩ := find?_perform opened spares
  have taken := framesTaken_le_lead opened spares
  refine ⟨next, stillOpened, ?_⟩
  rw [perform_readHead, SampleIndex.advance_value]
  omega

theorem CaughtUp.run {mixer : Mixer τ} {id : StreamId} (caughtUp : mixer.CaughtUp id)
    {calls : List (MixerCall τ)} (sparing : ∀ call ∈ calls, call.Spares id) :
    (mixer.run calls).CaughtUp id := by
  induction calls generalizing mixer with
  | nil => exact caughtUp
  | cons call rest inductionHypothesis =>
      exact inductionHypothesis (caughtUp.perform (sparing call List.mem_cons_self))
        (fun later member => sparing later (List.mem_cons_of_mem _ member))

theorem CaughtUp.positionsTaken_lt {mixer : Mixer τ} {id : StreamId}
    (caughtUp : mixer.CaughtUp id) {calls : List (MixerCall τ)}
    (sparing : ∀ call ∈ calls, call.Spares id) {position : Nat}
    (taken : position ∈ mixer.positionsTaken calls) :
    position < (mixer.run calls).readHead.value := by
  induction calls generalizing mixer with
  | nil => cases taken
  | cons call rest inductionHypothesis =>
      have spares := sparing call List.mem_cons_self
      rw [run_cons]
      rcases List.mem_append.mp taken with now | later
      · obtain ⟨index, opened, ahead⟩ := caughtUp
        have frames := framesTaken_le_lead opened spares
        have onward := (mixer.perform call).readHead_le_run rest
        have indexBound := index.value_le
        rw [perform_readHead, SampleIndex.advance_value] at onward
        have within := (List.mem_range'_1.mp now).2
        omega
      · exact inductionHypothesis (caughtUp.perform spares)
          (fun other member => sparing other (List.mem_cons_of_mem _ member)) later

omit [TimeScale τ] in
theorem push_placement_of_ahead {mixer : Mixer τ} {id : StreamId} {index : SampleIndex}
    (opened : mixer.streams.find? id = some index) (ahead : mixer.readHead.value ≤ index.value)
    (block : List Sample) :
    (mixer.push id block).2.placement = .mixed ∨
      (mixer.push id block).2.placement = .whollyEarly ∨
      ∃ early, (mixer.push id block).2.placement = .partlyEarly 0 early := by
  rw [push_placement, opened, Option.getD_some]
  rcases mixer.ring.block_cases index block with behind | beyond | ⟨notBehind, notBeyond⟩
  · change index.value + block.length < mixer.readHead.value at behind
    omega
  · rw [Ring.mix_of_beyond beyond]
    exact Or.inr (Or.inl rfl)
  · have noneLate : mixer.ring.readHead.value - index.value = 0 := Nat.sub_eq_zero_of_le ahead
    rw [(Ring.mix_of_within notBehind notBeyond).2.2.2, noneLate]
    split
    · exact Or.inr (Or.inr ⟨_, rfl⟩)
    · exact Or.inl rfl

/-- A stream that is not behind the read head stays open and not behind it as long as no frames
are skipped and the stream is neither declared again nor closed.  None of its blocks comes late,
and none has a sample at a position that the run has already pulled or discarded. -/
theorem caught_up_stream_stays_ahead (mixer : Mixer τ) (id : StreamId)
    (caughtUp : mixer.CaughtUp id) (calls : List (MixerCall τ))
    (sparing : ∀ call ∈ calls, call.Spares id) :
    (mixer.run calls).CaughtUp id ∧
      ∀ earlier block later, calls = earlier ++ .push id block :: later →
        let taken := ((mixer.run earlier).push id block).2
        (taken.placement = .mixed ∨ taken.placement = .whollyEarly ∨
          ∃ early, taken.placement = .partlyEarly 0 early) ∧
        taken.opened = false ∧
        ∀ position ∈ mixer.positionsTaken earlier, position < taken.start.value := by
  refine ⟨caughtUp.run sparing, ?_⟩
  intro earlier block later split
  have sparingEarlier : ∀ call ∈ earlier, call.Spares id := by
    intro call member
    apply sparing call
    rw [split]
    exact List.mem_append_left _ member
  obtain ⟨index, opened, ahead⟩ := caughtUp.run sparingEarlier
  refine ⟨push_placement_of_ahead opened ahead block, ?_, ?_⟩
  · change ((mixer.run earlier).streams.find? id).isNone = false
    rw [opened]
    rfl
  · intro position taken
    rw [push_start, opened]
    exact Nat.lt_of_lt_of_le (caughtUp.positionsTaken_lt sparingEarlier taken) ahead

/-- Another stream joins behind the read head and leaves again. -/
def lateJoinerCalls : List (MixerCall Seconds) :=
  [.pull (Array.replicate 1 silence) 1 SampleCount.one, .push { value := 9 } [Binary.ofNat 1],
    .discard 5, .close { value := 9 }, .discard 5, .push { value := 7 } [Binary.ofNat 3],
    .discard 5]

theorem lateJoinerCalls_stay_ahead :
    let opened := fourSlotMixer.run [.push { value := 7 } [Binary.ofNat 1, Binary.ofNat 2]]
    opened.CaughtUp { value := 7 } ∧
      (∀ call ∈ lateJoinerCalls, call.Spares { value := 7 }) ∧
      (opened.run lateJoinerCalls).CaughtUp { value := 7 } ∧
      opened.positionsTaken lateJoinerCalls = [0, 1, 2] := by
  intro opened
  have caughtUp : opened.CaughtUp { value := 7 } :=
    ⟨SampleIndex.clamp 2, by decide +kernel, by decide +kernel⟩
  have sparing : ∀ call ∈ lateJoinerCalls, call.Spares { value := 7 } := by
    simp only [lateJoinerCalls, List.forall_mem_cons, MixerCall.Spares, true_and]
    exact ⟨by decide, fun call member => absurd member List.not_mem_nil⟩
  exact ⟨caughtUp, sparing,
    (caught_up_stream_stays_ahead opened { value := 7 } caughtUp lateJoinerCalls sparing).1,
    by decide +kernel⟩

end Mixer

end AudioBus
