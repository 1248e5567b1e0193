import AudioBus.Proofs.Mixer.Run
import AudioBus.Proofs.Ring.Cutting
import AudioBus.Proofs.Transmitter.OnBus

/-!
How a stream is cut into blocks cannot be heard.  A mixer takes the pieces of a block as it takes
the block, so the largest block that a transmitter sends makes no difference to the mix.
-/

namespace AudioBus

namespace Mixer

variable {τ : Type}

theorem push_push (mixer : Mixer τ) (id : StreamId) (piece rest : List Sample) :
    ((mixer.push id piece).1.push id rest).1 = (mixer.push id (piece ++ rest)).1 := by
  have known : ((mixer.push id piece).1.streams.find? id).getD SampleIndex.zero =
      (mixer.ring.mix ((mixer.streams.find? id).getD SampleIndex.zero) piece).2.1 := by
    change ((mixer.streams.insert id _).find? id).getD _ = _
    rw [Table.find?_insert_self]
    rfl
  obtain ⟨sameRing, sameHead⟩ := mixer.ring.mix_append
    ((mixer.streams.find? id).getD SampleIndex.zero) piece rest
  unfold push at known ⊢
  simp only [known, sameRing, sameHead, Table.insert_insert]

theorem run_pushes [TimeScale τ] (mixer : Mixer τ) (id : StreamId) {pieces : List (List Sample)}
    (nonempty : pieces ≠ []) :
    mixer.run (pieces.map (MixerCall.push id)) = (mixer.push id pieces.flatten).1 := by
  induction pieces generalizing mixer with
  | nil => contradiction
  | cons piece rest inductionHypothesis =>
      rw [List.map_cons, run_cons, List.flatten_cons]
      cases rest with
      | nil =>
          rw [List.flatten_nil, List.append_nil]
          rfl
      | cons next others =>
          rw [inductionHypothesis _ (List.cons_ne_nil next others)]
          exact mixer.push_push id piece _

def applyAll (mixer : Mixer Seconds) (events : List StreamEvent) : Mixer Seconds :=
  events.foldl (fun mixer event => (mixer.apply event).1) mixer

theorem applyAll_pushes (mixer : Mixer Seconds) (id : StreamId) {pieces : List (List Sample)}
    (nonempty : pieces ≠ []) :
    mixer.applyAll (pieces.map (StreamEvent.push id)) = (mixer.push id pieces.flatten).1 := by
  rw [← run_pushes mixer id nonempty, applyAll, run, List.foldl_map, List.foldl_map]
  rfl

end Mixer

namespace Sender

variable {κ η : Type}

/-- A sender that differs in nothing but the most samples it sends in one message. -/
def chunked (sender : Sender κ) (maxChunk : Option SampleCount) : Sender κ :=
  { sender with
    transmitter :=
      { sender.transmitter with
        config := { sender.transmitter.config with maxChunk := maxChunk } } }

theorem blocks_ne_nil (size : SampleCount) {samples : List Sample} (nonempty : samples ≠ []) :
    blocks size samples ≠ [] := by
  rw [blocks, if_neg nonempty]
  exact List.cons_ne_nil _ _

theorem awake_chunked (sender : Sender (Bus η)) (maxChunk : Option SampleCount) :
    (sender.chunked maxChunk).awake = sender.awake.chunked maxChunk := by
  unfold awake
  by_cases timed : sender.transmitter.hasTime = true
  · rw [if_pos timed]
    exact if_pos timed
  · rw [if_neg timed]
    exact if_neg timed

theorem history_of_unawaited {sender : Sender (Bus η)} (unawaited : sender.awaitSync = none)
    (samples : List Sample) : sender.history (.push samples) = [] := by
  rw [history, unawaited]
  split
  · rfl
  · rfl

theorem applyAll_push (sender : Sender (Bus η)) (mixer : Mixer Seconds)
    (waited : sender.awaitSync = some sender.awake) {samples : List Sample}
    (nonempty : samples ≠ []) :
    mixer.applyAll ((sender.history (.push samples)).filterMap Occurrence.event?) =
      ((mixer.applyAll (if sender.transmitter.announced then []
        else [.sync sender.transmitter.id sender.awake.transmitter.streamTime])).push
          sender.transmitter.id samples).1 := by
  rw [(push_events waited nonempty).2, Mixer.applyAll, List.foldl_append]
  refine (Mixer.applyAll_pushes _ _ (blocks_ne_nil _ nonempty)).trans ?_
  rw [flatten_blocks]
  rfl

theorem applyAll_chunked (sender : Sender (Bus η)) (maxChunk : Option SampleCount)
    (mixer : Mixer Seconds) (samples : List Sample) :
    mixer.applyAll
        (((sender.chunked maxChunk).history (.push samples)).filterMap Occurrence.event?) =
      mixer.applyAll ((sender.history (.push samples)).filterMap Occurrence.event?) := by
  by_cases empty : samples = []
  · rw [empty]
    rfl
  · have awaitedChunked := (sender.chunked maxChunk).awaitSync_onBus
    have awaited := sender.awaitSync_onBus
    by_cases hasEnd : (sender.transmitter.hasTime ||
        (sender.link.status sender.transmitter.client.service).isSynchronized) = true
    · rw [if_pos hasEnd] at awaited
      have waitedChunked := awaitedChunked.trans (if_pos hasEnd)
      rw [applyAll_push _ mixer awaited empty, applyAll_push _ mixer waitedChunked empty,
        awake_chunked]
      rfl
    · rw [if_neg hasEnd] at awaited
      rw [history_of_unawaited awaited, history_of_unawaited (awaitedChunked.trans (if_neg hasEnd))]

end Sender

/-- A block may be cut in any way.  The ring and the write head are the same after its pieces, mixed
one behind the other, as after the whole block, and as many samples are late and early.  So a mixer
is the same as well, after one piece or more; and what a transmitter pushes leaves the same mixer
however many samples it sends at once. -/
theorem cuts_are_inaudible :
    (∀ (ring : Ring) (writeHead : SampleIndex) (pieces : List (List Sample)),
      let cut := ring.mixAll writeHead pieces
      let whole := ring.mix writeHead pieces.flatten
      cut.1 = whole.1 ∧ cut.2.1 = whole.2.1 ∧
        Ring.droppedIn Placement.lateOf pieces cut.2.2 =
          whole.2.2.lateOf pieces.flatten.length ∧
        Ring.droppedIn Placement.earlyOf pieces cut.2.2 =
          whole.2.2.earlyOf pieces.flatten.length) ∧
    (∀ (τ : Type) [TimeScale τ] (mixer : Mixer τ) (id : StreamId) (pieces : List (List Sample)),
      pieces ≠ [] → mixer.run (pieces.map (MixerCall.push id)) = (mixer.push id pieces.flatten).1) ∧
    (∀ (η : Type) (sender : Sender (Bus η)) (maxChunk : Option SampleCount)
        (mixer : Mixer Seconds) (samples : List Sample),
      mixer.applyAll
          (((sender.chunked maxChunk).history (.push samples)).filterMap Occurrence.event?) =
        mixer.applyAll ((sender.history (.push samples)).filterMap Occurrence.event?)) := by
  refine ⟨Ring.mixAll_flatten, ?_, ?_⟩
  · intro τ _ mixer id pieces nonempty
    exact mixer.run_pushes id nonempty
  · intro η sender maxChunk mixer samples
    exact sender.applyAll_chunked maxChunk mixer samples

def unevenPieces : List (List Sample) :=
  [[10], [20, 30], [], [40], [50, 60, 70, 80]].map (List.map Binary.ofNat)

theorem unevenPieces_are_inaudible :
    let writeHead := SampleIndex.clamp 4
    let cut := Ring.secondLap.mixAll writeHead unevenPieces
    cut.1 = (Ring.secondLap.mix writeHead Ring.straddlingBlock).1 ∧
      cut.2.2 = [.whollyLate, .partlyLate 1, .mixed, .mixed, .partlyEarly 0 3] ∧
      Ring.droppedIn Placement.earlyOf unevenPieces cut.2.2 = 3 ∧
      unevenPieces ≠ [] ∧
      Mixer.fourSlotMixer.run (unevenPieces.map (MixerCall.push { value := 7 })) =
        (Mixer.fourSlotMixer.push { value := 7 } Ring.straddlingBlock).1 := by
  intro writeHead cut
  have whole : unevenPieces.flatten = Ring.straddlingBlock := rfl
  obtain ⟨inRing, inMixer, _⟩ := cuts_are_inaudible
  obtain ⟨sameRing, _, _, early⟩ := inRing Ring.secondLap writeHead unevenPieces
  have sameMixer := inMixer Seconds Mixer.fourSlotMixer { value := 7 } unevenPieces
    (List.cons_ne_nil _ _)
  rw [whole] at sameRing early sameMixer
  have placement : (Ring.secondLap.mix writeHead Ring.straddlingBlock).2.2 = .partlyEarly 2 3 := by
    decide +kernel
  rw [placement] at early
  exact ⟨sameRing, by decide +kernel, early, List.cons_ne_nil _ _, sameMixer⟩

end AudioBus
