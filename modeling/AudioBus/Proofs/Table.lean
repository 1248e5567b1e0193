import AudioBus.Table

/-!
What is found in a table after a change, and tables under a change of all their values.
-/

namespace AudioBus.Table

variable {κ α β : Type} [DecidableEq κ]

theorem findIn_append_of_absent {key : κ} {entries : List (κ × α)}
    (absent : key ∉ entries.map Prod.fst) (added : List (κ × α)) :
    findIn key (entries ++ added) = findIn key added := by
  induction entries with
  | nil => rfl
  | cons entry rest inductionHypothesis =>
      rw [List.map_cons, List.mem_cons, not_or] at absent
      rw [List.cons_append, findIn, if_neg (Ne.symm absent.1)]
      exact inductionHypothesis absent.2

theorem findIn_append_of_ne {key other : κ} (different : other ≠ key)
    (entries : List (κ × α)) (value : α) :
    findIn other (entries ++ [(key, value)]) = findIn other entries := by
  induction entries with
  | nil => simp only [List.nil_append, findIn, if_neg (Ne.symm different)]
  | cons entry rest inductionHypothesis =>
      simp only [List.cons_append, findIn, inductionHypothesis]

theorem findIn_replaceIn_self {key : κ} {entries : List (κ × α)}
    (present : key ∈ entries.map Prod.fst) (value : α) :
    findIn key (replaceIn key value entries) = some value := by
  induction entries with
  | nil => cases present
  | cons entry rest inductionHypothesis =>
      by_cases hit : entry.1 = key
      · rw [replaceIn, if_pos hit, findIn, if_pos rfl]
      · have inRest : key ∈ rest.map Prod.fst := by
          rw [List.map_cons, List.mem_cons] at present
          exact present.resolve_left (Ne.symm hit)
        rw [replaceIn, if_neg hit, findIn, if_neg hit]
        exact inductionHypothesis inRest

theorem findIn_replaceIn_of_ne {key other : κ} (different : other ≠ key)
    (entries : List (κ × α)) (value : α) :
    findIn other (replaceIn key value entries) = findIn other entries := by
  induction entries with
  | nil => rfl
  | cons entry rest inductionHypothesis =>
      by_cases hit : entry.1 = key
      · have missesHead : entry.1 ≠ other := fun same => different (same.symm.trans hit)
        rw [replaceIn, if_pos hit, findIn, if_neg (Ne.symm different), findIn, if_neg missesHead]
      · rw [replaceIn, if_neg hit]
        simp only [findIn, inductionHypothesis]

theorem findIn_filter_of_ne {key other : κ} (different : other ≠ key)
    (entries : List (κ × α)) :
    findIn other (entries.filter fun entry => decide (entry.1 ≠ key)) =
      findIn other entries := by
  induction entries with
  | nil => rfl
  | cons entry rest inductionHypothesis =>
      by_cases hit : entry.1 = key
      · have missesHead : entry.1 ≠ other := fun same => different (same.symm.trans hit)
        rw [List.filter_cons_of_neg (by simp [hit]), inductionHypothesis, findIn,
          if_neg missesHead]
      · rw [List.filter_cons_of_pos (by simp [hit])]
        simp only [findIn, inductionHypothesis]

theorem filter_replaceIn (key : κ) (value : α) (entries : List (κ × α)) :
    (replaceIn key value entries).filter (fun entry => decide (entry.1 ≠ key)) =
      entries.filter fun entry => decide (entry.1 ≠ key) := by
  induction entries with
  | nil => rfl
  | cons entry rest inductionHypothesis =>
      by_cases hit : entry.1 = key
      · rw [replaceIn, if_pos hit, List.filter_cons_of_neg (by simp),
          List.filter_cons_of_neg (by simp [hit])]
      · rw [replaceIn, if_neg hit, List.filter_cons_of_pos (by simp [hit]),
          List.filter_cons_of_pos (by simp [hit]), inductionHypothesis]

theorem replaceIn_append_of_absent {key : κ} {entries : List (κ × α)}
    (absent : key ∉ entries.map Prod.fst) (value : α) (added : List (κ × α)) :
    replaceIn key value (entries ++ added) = entries ++ replaceIn key value added := by
  induction entries with
  | nil => rfl
  | cons entry rest inductionHypothesis =>
      rw [List.map_cons, List.mem_cons, not_or] at absent
      rw [List.cons_append, replaceIn, if_neg (Ne.symm absent.1), inductionHypothesis absent.2]
      rfl

theorem replaceIn_replaceIn (key : κ) (former value : α) (entries : List (κ × α)) :
    replaceIn key value (replaceIn key former entries) = replaceIn key value entries := by
  induction entries with
  | nil => rfl
  | cons entry rest inductionHypothesis =>
      by_cases hit : entry.1 = key
      · rw [replaceIn, if_pos hit, replaceIn, if_pos rfl, replaceIn, if_pos hit]
      · rw [replaceIn, if_neg hit, replaceIn, if_neg hit, inductionHypothesis, replaceIn,
          if_neg hit]

theorem replaceIn_of_findIn {key : κ} {value : α} {entries : List (κ × α)}
    (found : findIn key entries = some value) : replaceIn key value entries = entries := by
  induction entries with
  | nil => rfl
  | cons entry rest inductionHypothesis =>
      by_cases hit : entry.1 = key
      · rw [findIn, if_pos hit, Option.some.injEq] at found
        rw [replaceIn, if_pos hit, ← found, ← hit]
      · rw [findIn, if_neg hit] at found
        rw [replaceIn, if_neg hit, inductionHypothesis found]

omit [DecidableEq κ] in
theorem eq_of_entries {left right : Table κ α} (same : left.entries = right.entries) :
    left = right := by
  cases left
  cases right
  cases same
  rfl

theorem insert_entries_of_absent {table : Table κ α} {key : κ} (absent : key ∉ table.keys)
    (value : α) : (table.insert key value).entries = table.entries ++ [(key, value)] := by
  rw [insert, dif_pos absent]

theorem insert_entries_of_present {table : Table κ α} {key : κ} (present : key ∈ table.keys)
    (value : α) :
    (table.insert key value).entries = replaceIn key value table.entries := by
  rw [insert, dif_neg (fun absent => absent present)]

theorem insert_insert (table : Table κ α) (key : κ) (former value : α) :
    (table.insert key former).insert key value = table.insert key value := by
  have presentNow : key ∈ (table.insert key former).keys := by
    unfold keys
    by_cases present : key ∈ table.keys
    · rw [insert_entries_of_present present, replaceIn_keys]
      exact present
    · rw [insert_entries_of_absent present, List.map_append]
      exact List.mem_append_right _ List.mem_cons_self
  apply eq_of_entries
  rw [insert_entries_of_present presentNow]
  by_cases present : key ∈ table.keys
  · rw [insert_entries_of_present present, insert_entries_of_present present,
      replaceIn_replaceIn]
  · rw [insert_entries_of_absent present, insert_entries_of_absent present,
      replaceIn_append_of_absent present, replaceIn, if_pos rfl]

theorem find?_insert_self (table : Table κ α) (key : κ) (value : α) :
    (table.insert key value).find? key = some value := by
  by_cases present : key ∈ table.keys
  · rw [find?, insert_entries_of_present present]
    exact findIn_replaceIn_self present value
  · rw [find?, insert_entries_of_absent present, findIn_append_of_absent present, findIn,
      if_pos rfl]

theorem find?_insert_of_ne (table : Table κ α) {key other : κ} (different : other ≠ key)
    (value : α) : (table.insert key value).find? other = table.find? other := by
  by_cases present : key ∈ table.keys
  · rw [find?, insert_entries_of_present present]
    exact findIn_replaceIn_of_ne different table.entries value
  · rw [find?, insert_entries_of_absent present]
    exact findIn_append_of_ne different table.entries value

theorem find?_insert (table : Table κ α) (key other : κ) (value : α) :
    (table.insert key value).find? other =
      if other = key then some value else table.find? other := by
  by_cases same : other = key
  · rw [if_pos same, same, find?_insert_self]
  · rw [if_neg same, find?_insert_of_ne table same]

theorem find?_erase_of_ne (table : Table κ α) {key other : κ} (different : other ≠ key) :
    (table.erase key).find? other = table.find? other :=
  findIn_filter_of_ne different table.entries

theorem mem_values_of_find? {table : Table κ α} {key : κ} {value : α}
    (found : table.find? key = some value) : value ∈ table.values := by
  obtain ⟨entries, nodup⟩ := table
  change findIn key entries = some value at found
  change value ∈ entries.map Prod.snd
  clear nodup
  induction entries with
  | nil => cases found
  | cons entry rest inductionHypothesis =>
      by_cases hit : entry.1 = key
      · rw [findIn, if_pos hit, Option.some.injEq] at found
        rw [← found, List.map_cons]
        exact List.mem_cons_self
      · rw [findIn, if_neg hit] at found
        rw [List.map_cons]
        exact List.mem_cons_of_mem _ (inductionHypothesis found)

theorem find?_erase_self (table : Table κ α) (key : κ) : (table.erase key).find? key = none := by
  rw [find?_eq_none_iff]
  intro isKey
  obtain ⟨entry, isEntry, entryKey⟩ := List.mem_map.mp isKey
  exact of_decide_eq_true (List.mem_filter.mp isEntry).2 entryKey

theorem find?_erase (table : Table κ α) (key other : κ) :
    (table.erase key).find? other = if other = key then none else table.find? other := by
  by_cases same : other = key
  · rw [if_pos same, same, find?_erase_self]
  · rw [if_neg same, find?_erase_of_ne table same]

theorem mem_keys_of_insert {table : Table κ α} {key other : κ} {value : α}
    (isKey : other ∈ (table.insert key value).keys) : other = key ∨ other ∈ table.keys := by
  by_cases same : other = key
  · exact Or.inl same
  · rw [← contains_iff, contains, find?_insert_of_ne table same] at isKey
    exact Or.inr ((table.contains_iff other).mp isKey)

theorem keys_lt_of_insert {table : Table Nat α} {bound later number : Nat} {value : α}
    (below : ∀ other ∈ table.keys, other < bound) (isBelow : number < later)
    (grows : bound ≤ later) : ∀ other ∈ (table.insert number value).keys, other < later := by
  intro other isKey
  rcases mem_keys_of_insert isKey with isNumber | wasKey
  · rw [isNumber]
    exact isBelow
  · exact Nat.lt_of_lt_of_le (below other wasKey) grows

theorem mem_keys_of_erase {table : Table κ α} {key other : κ}
    (isKey : other ∈ (table.erase key).keys) : other ∈ table.keys :=
  (List.filter_sublist.map Prod.fst).subset isKey

theorem find?_eq_some_iff {table : Table κ α} {key : κ} {value : α} :
    table.find? key = some value ↔ (key, value) ∈ table.entries := by
  obtain ⟨entries, nodup⟩ := table
  change findIn key entries = some value ↔ (key, value) ∈ entries
  induction entries with
  | nil => simp [findIn]
  | cons entry rest inductionHypothesis =>
      rw [List.map_cons, List.nodup_cons] at nodup
      have restIff := inductionHypothesis nodup.2
      by_cases hit : entry.1 = key
      · have notLater : (key, value) ∉ rest := by
          intro isLater
          apply nodup.1
          rw [hit]
          exact List.mem_map_of_mem (f := Prod.fst) isLater
        rw [findIn, if_pos hit, List.mem_cons, or_iff_left notLater, Option.some.injEq, ← hit]
        constructor
        · intro same
          rw [← same]
        · intro same
          rw [← same]
      · have notFirst : (key, value) ≠ entry := by
          intro same
          rw [← same] at hit
          exact hit rfl
        rw [findIn, if_neg hit, restIff, List.mem_cons, or_iff_right notFirst]

theorem mem_keys_of_find? {table : Table κ α} {key : κ} {value : α}
    (found : table.find? key = some value) : key ∈ table.keys :=
  List.mem_map_of_mem (f := Prod.fst) (find?_eq_some_iff.mp found)

theorem mem_values_iff {table : Table κ α} {value : α} :
    value ∈ table.values ↔ ∃ key, table.find? key = some value := by
  constructor
  · intro isValue
    obtain ⟨entry, isEntry, entryValue⟩ := List.mem_map.mp isValue
    refine ⟨entry.1, ?_⟩
    rw [find?_eq_some_iff, ← entryValue]
    exact isEntry
  · rintro ⟨key, found⟩
    exact mem_values_of_find? found

theorem insert_of_find? {table : Table κ α} {key : κ} {value : α}
    (found : table.find? key = some value) : table.insert key value = table := by
  apply eq_of_entries
  rw [insert_entries_of_present (mem_keys_of_find? found)]
  exact replaceIn_of_findIn found

theorem entries_perm_of_find? {table : Table κ α} {key : κ} {value : α}
    (found : table.find? key = some value) :
    table.entries.Perm ((key, value) :: (table.erase key).entries) := by
  have isEntry := find?_eq_some_iff.mp found
  obtain ⟨before, after, split⟩ := List.append_of_mem isEntry
  have nodup := table.nodup
  rw [split, (List.perm_middle.map Prod.fst).nodup_iff, List.map_cons, List.nodup_cons] at nodup
  have others : (table.erase key).entries = before ++ after := by
    change table.entries.filter _ = _
    rw [split, List.filter_append, List.filter_cons_of_neg (by simp), ← List.filter_append]
    apply List.filter_eq_self.mpr
    intro entry isOther
    apply decide_eq_true
    intro sameKey
    apply nodup.1
    change key ∈ _
    rw [← sameKey]
    exact List.mem_map_of_mem isOther
  rw [others, split]
  exact List.perm_middle

theorem erase_of_absent {table : Table κ α} {key : κ} (absent : key ∉ table.keys) :
    table.erase key = table := by
  apply eq_of_entries
  apply List.filter_eq_self.mpr
  intro entry isEntry
  apply decide_eq_true
  intro sameKey
  rw [← sameKey] at absent
  exact absent (List.mem_map_of_mem isEntry)

theorem insert_entries_perm (table : Table κ α) (key : κ) (value : α) :
    (table.insert key value).entries.Perm ((key, value) :: (table.erase key).entries) := by
  have inserted := entries_perm_of_find? (find?_insert_self table key value)
  have others : ((table.insert key value).erase key).entries = (table.erase key).entries := by
    by_cases present : key ∈ table.keys
    · change (table.insert key value).entries.filter _ = table.entries.filter _
      rw [insert_entries_of_present present]
      exact filter_replaceIn key value table.entries
    · rw [table.erase_insert_of_absent key value present, erase_of_absent present]
  rw [others] at inserted
  exact inserted

theorem values_perm_of_find? {table : Table κ α} {key : κ} {value : α}
    (found : table.find? key = some value) :
    table.values.Perm (value :: (table.erase key).values) :=
  (entries_perm_of_find? found).map Prod.snd

theorem insert_values_perm (table : Table κ α) (key : κ) (value : α) :
    (table.insert key value).values.Perm (value :: (table.erase key).values) :=
  (table.insert_entries_perm key value).map Prod.snd

def mapValues (change : α → β) (table : Table κ α) : Table κ β where
  entries := table.entries.map fun entry => (entry.1, change entry.2)
  nodup := by
    rw [List.map_map]
    exact table.nodup

variable (change : α → β)

omit [DecidableEq κ] in
theorem mapValues_keys (table : Table κ α) : (table.mapValues change).keys = table.keys := by
  simp only [keys, mapValues, List.map_map]
  rfl

omit [DecidableEq κ] in
theorem mapValues_values (table : Table κ α) :
    (table.mapValues change).values = table.values.map change := by
  simp only [values, mapValues, List.map_map]
  rfl

omit [DecidableEq κ] in
theorem mapValues_empty : (empty : Table κ α).mapValues change = empty :=
  rfl

theorem findIn_map (key : κ) (entries : List (κ × α)) :
    findIn key (entries.map fun entry => (entry.1, change entry.2)) =
      (findIn key entries).map change := by
  induction entries with
  | nil => rfl
  | cons entry rest inductionHypothesis =>
      by_cases hit : entry.1 = key
      · simp only [List.map_cons, findIn, if_pos hit, Option.map_some]
      · simp only [List.map_cons, findIn, if_neg hit, inductionHypothesis]

theorem find?_mapValues (table : Table κ α) (key : κ) :
    (table.mapValues change).find? key = (table.find? key).map change :=
  findIn_map change key table.entries

theorem replaceIn_map (key : κ) (value : α) (entries : List (κ × α)) :
    replaceIn key (change value) (entries.map fun entry => (entry.1, change entry.2)) =
      (replaceIn key value entries).map fun entry => (entry.1, change entry.2) := by
  induction entries with
  | nil => rfl
  | cons entry rest inductionHypothesis =>
      by_cases hit : entry.1 = key
      · simp only [List.map_cons, replaceIn, if_pos hit]
      · simp only [List.map_cons, replaceIn, if_neg hit, inductionHypothesis]

theorem mapValues_insert (table : Table κ α) (key : κ) (value : α) :
    (table.insert key value).mapValues change =
      (table.mapValues change).insert key (change value) := by
  apply eq_of_entries
  change (table.insert key value).entries.map (fun entry => (entry.1, change entry.2)) = _
  by_cases present : key ∈ table.keys
  · have presentAfter : key ∈ (table.mapValues change).keys := by
      rw [mapValues_keys]
      exact present
    rw [insert_entries_of_present present, insert_entries_of_present presentAfter]
    exact (replaceIn_map change key value table.entries).symm
  · have absentAfter : key ∉ (table.mapValues change).keys := by
      rw [mapValues_keys]
      exact present
    rw [insert_entries_of_absent present, insert_entries_of_absent absentAfter, List.map_append]
    rfl

theorem mapValues_erase (table : Table κ α) (key : κ) :
    (table.erase key).mapValues change = (table.mapValues change).erase key := by
  simp only [erase, mapValues, List.filter_map]
  rfl

end AudioBus.Table
