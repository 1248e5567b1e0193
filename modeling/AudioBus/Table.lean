/-!
Finite tables in the order in which their keys first arrived.
-/

namespace AudioBus

structure Table (κ α : Type) where
  entries : List (κ × α)
  nodup : (entries.map Prod.fst).Nodup

namespace Table

variable {κ α : Type} [DecidableEq κ]

def empty : Table κ α where
  entries := []
  nodup := List.nodup_nil

instance : Inhabited (Table κ α) where
  default := empty

instance : EmptyCollection (Table κ α) where
  emptyCollection := empty

def keys (table : Table κ α) : List κ :=
  table.entries.map Prod.fst

def values (table : Table κ α) : List α :=
  table.entries.map Prod.snd

def size (table : Table κ α) : Nat :=
  table.entries.length

def isEmpty (table : Table κ α) : Bool :=
  table.entries.isEmpty

def findIn (key : κ) : List (κ × α) → Option α
  | [] => none
  | entry :: rest => if entry.1 = key then some entry.2 else findIn key rest

def find? (table : Table κ α) (key : κ) : Option α :=
  findIn key table.entries

def contains (table : Table κ α) (key : κ) : Bool :=
  (table.find? key).isSome

theorem findIn_eq_none_iff (key : κ) (entries : List (κ × α)) :
    findIn key entries = none ↔ key ∉ entries.map Prod.fst := by
  induction entries with
  | nil => simp [findIn]
  | cons entry rest inductionHypothesis =>
      by_cases hit : entry.1 = key
      · simp [findIn, hit]
      · have missesHead : ¬key = entry.1 := fun equality => hit equality.symm
        simp [findIn, hit, missesHead, inductionHypothesis]

theorem find?_eq_none_iff (table : Table κ α) (key : κ) :
    table.find? key = none ↔ key ∉ table.keys :=
  findIn_eq_none_iff key table.entries

theorem contains_iff (table : Table κ α) (key : κ) :
    table.contains key = true ↔ key ∈ table.keys := by
  have absent := table.find?_eq_none_iff key
  cases found : table.find? key with
  | none =>
      simp [contains, found, absent.mp found]
  | some value =>
      simp only [found, reduceCtorEq, false_iff, Classical.not_not] at absent
      simp [contains, found, absent]

def replaceIn (key : κ) (value : α) : List (κ × α) → List (κ × α)
  | [] => []
  | entry :: rest =>
      if entry.1 = key then (key, value) :: rest else entry :: replaceIn key value rest

theorem replaceIn_keys (key : κ) (value : α) (entries : List (κ × α)) :
    (replaceIn key value entries).map Prod.fst = entries.map Prod.fst := by
  induction entries with
  | nil => rfl
  | cons entry rest inductionHypothesis =>
      by_cases hit : entry.1 = key
      · simp [replaceIn, hit]
      · simp [replaceIn, hit, inductionHypothesis]

/-- Gives a key a value: in place when the key is there, at the end otherwise. -/
def insert (table : Table κ α) (key : κ) (value : α) : Table κ α :=
  if absent : key ∉ table.keys then
    { entries := table.entries ++ [(key, value)]
      nodup := by
        rw [List.map_append, List.nodup_append]
        refine ⟨table.nodup, by simp, ?_⟩
        intro left leftMember right rightMember
        have rightIsKey : right = key := by simpa using rightMember
        rw [rightIsKey]
        exact fun equality => absent (equality ▸ leftMember) }
  else
    { entries := replaceIn key value table.entries
      nodup := by
        rw [replaceIn_keys]
        exact table.nodup }

def erase (table : Table κ α) (key : κ) : Table κ α where
  entries := table.entries.filter fun entry => decide (entry.1 ≠ key)
  nodup := table.nodup.sublist (List.filter_sublist.map Prod.fst)

def modify (table : Table κ α) (key : κ) (change : α → α) : Table κ α :=
  match table.find? key with
  | none => table
  | some value => table.insert key (change value)

theorem erase_insert_of_absent (table : Table κ α) (key : κ) (value : α)
    (absent : key ∉ table.keys) : ((table.insert key value).erase key).entries = table.entries := by
  have keepsAll : table.entries.filter (fun entry => decide (entry.1 ≠ key)) = table.entries := by
    rw [List.filter_eq_self]
    intro entry member
    have entryKey : entry.1 ∈ table.keys := List.mem_map_of_mem member
    exact decide_eq_true (fun equality => absent (equality ▸ entryKey))
  unfold erase insert
  rw [dif_pos absent]
  simp only [List.filter_append, keepsAll]
  simp

end Table

end AudioBus
