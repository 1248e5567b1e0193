import AudioBus.Bus.Basic
import AudioBus.Proofs.Table

/-!
How a bus counts the providers of its services.  To acquire a name adds one and to release it takes
one away, and the second undoes the first as long as the count can grow.
-/

namespace AudioBus

namespace Bus

variable {η : Type}

/-- A number of providers as the bus holds it.  A service without any is not there. -/
def tally? (providers : Nat) : Option Nat :=
  if providers = 0 then none else some providers

theorem tally?_getD (providers : Nat) : (tally? providers).getD 0 = providers := by
  unfold tally?
  split
  · exact (by assumption : providers = 0).symm
  · rfl

def mostProviders : Nat := 0xFFFF_FFFF_FFFF_FFFF

theorem acquire_services (bus : Bus η) (service : String) :
    (bus.acquire service).services = bus.services.insert service
      (min ((bus.services.find? service).getD 0 + 1) mostProviders) := by
  unfold acquire
  cases bus.services.find? service with
  | none => rfl
  | some providers => rfl

theorem acquire_find? (bus : Bus η) (service name : String) :
    (bus.acquire service).services.find? name =
      if name = service then
        some (min ((bus.services.find? service).getD 0 + 1) mostProviders)
      else bus.services.find? name := by
  rw [acquire_services]
  exact bus.services.find?_insert service name _

theorem release_find? (bus : Bus η) (service name : String) :
    (bus.release service).services.find? name =
      if name = service then tally? ((bus.services.find? service).getD 0 - 1)
      else bus.services.find? name := by
  unfold release
  cases found : bus.services.find? service with
  | none =>
      by_cases same : name = service
      · rw [if_pos same, same]
        exact found
      · rw [if_neg same]
  | some providers =>
      have remain : (some providers).getD 0 - 1 = providers - 1 := rfl
      by_cases isLast : providers ≤ 1
      · have none_left : tally? (providers - 1) = none := by
          rw [Nat.sub_eq_zero_of_le isLast]
          rfl
        simp only [if_pos isLast]
        rw [remain, none_left]
        exact bus.services.find?_erase service name
      · have some_left : tally? (providers - 1) = some (providers - 1) :=
          if_neg (Nat.sub_ne_zero_of_lt (Nat.lt_of_not_le isLast))
        simp only [if_neg isLast]
        rw [remain, some_left]
        exact bus.services.find?_insert service name _

/-- Whether each service that is there has a provider, and can have one more. -/
def HasRoom (bus : Bus η) : Prop :=
  ∀ providers ∈ bus.services.values, 0 < providers ∧ providers < mostProviders

instance (bus : Bus η) : Decidable bus.HasRoom :=
  inferInstanceAs (Decidable (∀ _ ∈ bus.services.values, _))

theorem HasRoom.acquire_services {bus : Bus η} (room : bus.HasRoom) (service : String) :
    (bus.acquire service).services =
      bus.services.insert service ((bus.services.find? service).getD 0 + 1) := by
  rw [Bus.acquire_services]
  cases found : bus.services.find? service with
  | none => rfl
  | some providers =>
      have isBelow := (room providers (Table.mem_values_of_find? found)).2
      exact congrArg _ (Nat.min_eq_left (Nat.succ_le_of_lt isBelow))

theorem HasRoom.release_services {bus held : Bus η} {service : String} (room : bus.HasRoom)
    (acquired : held.services = (bus.acquire service).services) :
    (held.release service).services = bus.services := by
  rw [room.acquire_services] at acquired
  unfold release
  rw [acquired, Table.find?_insert_self]
  cases found : bus.services.find? service with
  | none =>
      have absent := (bus.services.find?_eq_none_iff service).mp found
      exact Table.eq_of_entries (bus.services.erase_insert_of_absent service 1 absent)
  | some providers =>
      have isPositive := (room providers (Table.mem_values_of_find? found)).1
      have isMany : ¬providers + 1 ≤ 1 := Nat.not_le_of_lt (Nat.succ_lt_succ isPositive)
      simp only [Option.getD_some, if_neg isMany, Nat.add_sub_cancel]
      rw [Table.insert_insert]
      exact Table.insert_of_find? found

end Bus

end AudioBus
