import AudioBus.Proofs.Receiver.Binding

/-!
Who owns the methods on a bus.  Every method that is bound through a service belongs to that service
alone: services bind what is free, and what they take with them when they go is their own.
-/

namespace AudioBus

/-- Whether the bound methods are those of these services, each of one of them only. -/
def Bus.Registers {η : Type} (bus : Bus η) (providers : List Service) : Prop :=
  bus.methods.keys.Perm (providers.flatMap Service.methods)

namespace Bus.Registers

variable {η : Type} {bus next : Bus η} {service : Service} {others providers : List Service}

theorem of_same (registers : bus.Registers providers)
    (sameKeys : next.methods.keys = bus.methods.keys) : next.Registers providers := by
  unfold Registers
  rw [sameKeys]
  exact registers

theorem perm (registers : bus.Registers providers) {rearranged : List Service}
    (same : providers.Perm rearranged) : bus.Registers rearranged :=
  registers.trans (same.flatMap_right Service.methods)

theorem apart (registers : bus.Registers (service :: others)) {other : Service}
    (isOther : other ∈ others) {path : String} (isPath : path ∈ other.methods) :
    path ∉ service.methods := by
  have nodup := registers.nodup_iff.mp bus.methods.nodup
  rw [List.flatMap_cons] at nodup
  exact fun isOwn => List.disjoint_of_nodup_append nodup isOwn
    (List.mem_flatMap_of_mem isOther isPath)

theorem join (registers : bus.Registers providers) {added : List (String × Method η)}
    (entries : next.methods.entries = bus.methods.entries ++ added)
    (lists : service.methods = added.map Prod.fst) : next.Registers (service :: providers) := by
  unfold Registers at registers ⊢
  change (next.methods.entries.map Prod.fst).Perm _
  rw [entries, List.map_append, List.flatMap_cons, lists]
  exact (registers.append_right _).trans List.perm_append_comm

theorem extend (registers : bus.Registers (service :: others)) {added : List (String × Method η)}
    (entries : next.methods.entries = bus.methods.entries ++ added) :
    next.Registers
      ({ service with methods := service.methods ++ added.map Prod.fst } :: others) := by
  unfold Registers at registers ⊢
  change (next.methods.entries.map Prod.fst).Perm _
  rw [entries, List.map_append, List.flatMap_cons]
  rw [List.flatMap_cons] at registers
  calc List.Perm (bus.methods.entries.map Prod.fst ++ added.map Prod.fst)
          (service.methods ++ others.flatMap Service.methods ++ added.map Prod.fst) :=
        registers.append_right _
    List.Perm _ (service.methods ++ added.map Prod.fst ++ others.flatMap Service.methods) := by
        rw [List.append_assoc, List.append_assoc]
        exact List.perm_append_comm.append_left _

theorem drop (registers : bus.Registers (service :: others)) :
    (service.drop bus).Registers others := by
  have rearranged : bus.methods.keys.Perm (others.flatMap Service.methods ++ service.methods) := by
    unfold Registers at registers
    rw [List.flatMap_cons] at registers
    exact registers.trans List.perm_append_comm
  have nodup := rearranged.nodup_iff.mp bus.methods.nodup
  have stays := filter_added id (by rw [List.map_id]; exact nodup)
  rw [List.map_id] at stays
  have keysEq : (service.drop bus).methods.keys =
      bus.methods.keys.filter fun path => decide (path ∉ service.methods) := by
    unfold Table.keys
    rw [(service.drop_spec bus).2, List.filter_map]
    rfl
  unfold Registers
  rw [keysEq, ← stays]
  exact rearranged.filter _

end Bus.Registers

end AudioBus
