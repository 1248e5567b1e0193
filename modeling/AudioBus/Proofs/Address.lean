import AudioBus.Address

/-!
Addresses put together and taken apart.  What stands on either side of a slash is an address if and
only if all of it is one, and a path is taken apart at its first slash.
-/

namespace AudioBus

theorem segments_ne_nil (text : List Char) : segments text ≠ [] := by
  cases text with
  | nil => simp [segments]
  | cons c rest =>
      unfold segments
      split
      · simp
      · cases segments rest <;> simp

theorem segments_append_slash (first second : List Char) :
    segments (first ++ '/' :: second) = segments first ++ segments second := by
  induction first with
  | nil => simp [segments]
  | cons c rest inductionHypothesis =>
      by_cases isSlash : c = '/'
      · simp [segments, isSlash, inductionHypothesis]
      · obtain ⟨segment, others, split⟩ := List.exists_cons_of_ne_nil (segments_ne_nil rest)
        simp [segments, isSlash, inductionHypothesis, split]

theorem segments_of_no_slash {text : List Char} (noSlash : '/' ∉ text) :
    segments text = [text] := by
  induction text with
  | nil => rfl
  | cons c rest inductionHypothesis =>
      rw [List.mem_cons, not_or] at noSlash
      simp [segments, Ne.symm noSlash.1, inductionHypothesis noSlash.2]

theorem joinAddresses_toList (address method : String) :
    (joinAddresses address method).toList = address.toList ++ '/' :: method.toList := by
  simp [joinAddresses, String.toList_append]

theorem joinAddresses_assoc (first second third : String) :
    joinAddresses first (joinAddresses second third) =
      joinAddresses (joinAddresses first second) third := by
  simp only [joinAddresses, String.append_assoc]

theorem isAddress_joinAddresses (address method : String) :
    isAddress (joinAddresses address method) = true ↔
      isAddress address = true ∧ isAddress method = true := by
  unfold isAddress
  rw [joinAddresses_toList, segments_append_slash, List.all_append, Bool.and_eq_true]

theorem isServiceName_iff {text : String} :
    isServiceName text = true ↔ text ≠ "" ∧ '/' ∉ text.toList := by
  simp [isServiceName]

theorem isAddress_of_no_slash {text : String} (noSlash : '/' ∉ text.toList) :
    isAddress text = true ↔ text ≠ "" := by
  unfold isAddress
  rw [segments_of_no_slash noSlash]
  simp

theorem isAddress_of_isServiceName {service : String} (isName : isServiceName service = true) :
    isAddress service = true :=
  have ⟨notEmpty, noSlash⟩ := isServiceName_iff.mp isName
  (isAddress_of_no_slash noSlash).mpr notEmpty

theorem ne_slash_of_isServiceName {service : String} (isName : isServiceName service = true) :
    ∀ c ∈ service.toList, decide (c ≠ '/') = true :=
  fun _ isMember => decide_eq_true fun isSlash =>
    (isServiceName_iff.mp isName).2 (isSlash ▸ isMember)

theorem firstSegment_joinAddresses {service : String} (isName : isServiceName service = true)
    (rest : String) : firstSegment (joinAddresses service rest) = service := by
  unfold firstSegment
  rw [joinAddresses_toList, List.takeWhile_append_of_pos (ne_slash_of_isServiceName isName),
    List.takeWhile_cons_of_neg (by simp), List.append_nil, String.ofList_toList]

theorem belowFirstSegment?_joinAddresses {service : String} (isName : isServiceName service = true)
    (rest : String) : belowFirstSegment? (joinAddresses service rest) = some rest := by
  unfold belowFirstSegment?
  rw [joinAddresses_toList, List.dropWhile_append_of_pos (ne_slash_of_isServiceName isName),
    List.dropWhile_cons_of_neg (by simp)]
  exact congrArg some String.ofList_toList

theorem joinAddresses_of_belowFirstSegment? {path method : String}
    (below : belowFirstSegment? path = some method) :
    path = joinAddresses (firstSegment path) method ∧ '/' ∉ (firstSegment path).toList := by
  have whole := List.takeWhile_append_dropWhile (p := (· ≠ '/')) (l := path.toList)
  unfold belowFirstSegment? at below
  cases left : path.toList.dropWhile (· ≠ '/') with
  | nil =>
      rw [left] at below
      contradiction
  | cons c rest =>
      have isSlash : c = '/' := by
        have stops := List.head?_dropWhile_not (· ≠ '/') path.toList
        rw [left] at stops
        simpa using stops
      rw [left] at below whole
      rw [isSlash] at whole
      constructor
      · apply String.toList_inj.mp
        rw [joinAddresses_toList, ← Option.some.inj below, firstSegment, String.toList_ofList,
          String.toList_ofList]
        exact whole.symm
      · rw [firstSegment, String.toList_ofList]
        intro isMember
        have isOther := List.all_eq_true.mp List.all_takeWhile '/' isMember
        contradiction

theorem splitPath?_eq_some_iff {path service method : String} :
    splitPath? path = some (service, method) ↔
      path = joinAddresses service method ∧ isServiceName service = true ∧
        isAddress method = true := by
  constructor
  · intro split
    unfold splitPath? at split
    by_cases valid : isAddress path = true
    · rw [if_pos valid] at split
      obtain ⟨below, isBelow, pairEq⟩ := Option.map_eq_some_iff.mp split
      obtain ⟨serviceEq, methodEq⟩ := Prod.mk.inj pairEq
      obtain ⟨pathEq, noSlash⟩ := joinAddresses_of_belowFirstSegment? isBelow
      rw [serviceEq, methodEq] at pathEq
      rw [serviceEq] at noSlash
      rw [pathEq, isAddress_joinAddresses] at valid
      exact ⟨pathEq,
        isServiceName_iff.mpr ⟨(isAddress_of_no_slash noSlash).mp valid.1, noSlash⟩, valid.2⟩
    · rw [if_neg valid] at split
      contradiction
  · rintro ⟨pathEq, isName, isMethod⟩
    have valid : isAddress (joinAddresses service method) = true :=
      (isAddress_joinAddresses service method).mpr ⟨isAddress_of_isServiceName isName, isMethod⟩
    rw [pathEq, splitPath?, if_pos valid, belowFirstSegment?_joinAddresses isName,
      firstSegment_joinAddresses isName]
    rfl

end AudioBus
