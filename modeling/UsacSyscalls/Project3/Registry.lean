import Mathlib.Data.BitVec
import Mathlib.Data.List.Perm.Subperm
import UsacSyscalls.Project3.Calls

/-!
Contract: the registry over whole runs.

Owns the invariant of every machine that completed calls reach from boot
(distinct positive pids, non-zero limits, empty static lists), the bound it
puts on the number of entries, and the history of the shared list: the entries
of the successful adds, latest first.

Does not own the comparison with an abstract registry; that is `Refinement`.
-/

set_option autoImplicit false

namespace UsacSyscalls.Project3

open UsacSyscalls.Foundation
open UsacSyscalls.Kernel

/-- A list of entries as `add_memory_limit` builds it. -/
structure WellFormed (entries : List MemoryLimitationEntry) : Prop where
  distinct : (entries.map MemoryLimitationEntry.pid).Nodup
  positive : ∀ entry ∈ entries, 0 < entry.pid.toInt
  nonzero : ∀ entry ∈ entries, entry.memoryLimit ≠ 0

structure RegistryInvariant (machine : Machine) : Prop where
  statics : StaticsEmpty machine
  shared : WellFormed (machine.heads .shared)

theorem admission_ok_valid {env : Environment} {processPid : PidT} {memoryLimit : SizeT}
    {task : TaskRef} (admitted : admission env processPid memoryLimit = .ok task) :
    0 < processPid.toInt ∧ memoryLimit ≠ 0 := by
  unfold admission at admitted
  by_cases invalid : processPid.toInt ≤ 0 ∨ memoryLimit ≤ 0
  · rw [if_pos invalid] at admitted
    contradiction
  · obtain ⟨positive, nonzero⟩ := not_or.mp invalid
    refine ⟨Int.not_le.mp positive, ?_⟩
    rintro rfl
    exact nonzero (BitVec.le_refl _)

theorem WellFormed.cons {entries : List MemoryLimitationEntry} (wellFormed : WellFormed entries)
    {processPid : PidT} {memoryLimit : SizeT} (unlisted : ¬ Listed entries processPid)
    (positive : 0 < processPid.toInt) (nonzero : memoryLimit ≠ 0) :
    WellFormed (⟨processPid, memoryLimit⟩ :: entries) where
  distinct := by
    rw [List.map_cons, List.nodup_cons]
    exact ⟨unlisted, wellFormed.distinct⟩
  positive := by
    intro entry member
    rcases List.mem_cons.mp member with rfl | member
    · exact positive
    · exact wellFormed.positive entry member
  nonzero := by
    intro entry member
    rcases List.mem_cons.mp member with rfl | member
    · exact nonzero
    · exact wellFormed.nonzero entry member

theorem boot_invariant (user : ByteMemory) : RegistryInvariant (.boot user) where
  statics := ⟨rfl, rfl⟩
  shared := ⟨List.nodup_nil, by simp [Machine.boot], by simp [Machine.boot]⟩

theorem RegistryInvariant.of_heads {before after : Machine} (invariant : RegistryInvariant before)
    (same : after.heads = before.heads) : RegistryInvariant after where
  statics := by
    constructor
    · rw [same, invariant.statics.updateStatic]
    · rw [same, invariant.statics.removeStatic]
  shared := by
    rw [same]
    exact invariant.shared

@[simp] theorem setHead_shared (machine : Machine) (entries : List MemoryLimitationEntry) :
    (machine.setHead .shared entries).heads .shared = entries := by
  simp [Machine.setHead]

theorem StaticsEmpty.setHead_shared {machine : Machine} (empty : StaticsEmpty machine)
    (entries : List MemoryLimitationEntry) : StaticsEmpty (machine.setHead .shared entries) where
  updateStatic := by simp [Machine.setHead, empty.updateStatic]
  removeStatic := by simp [Machine.setHead, empty.removeStatic]

theorem step_invariant {machine : Machine} (invariant : RegistryInvariant machine) (call : Call) :
    RegistryInvariant (call.step machine).2 := by
  rcases step_heads invariant.statics call with
    ⟨same, -⟩ | ⟨env, processPid, memoryLimit, task, rfl, admitted, unlisted, outcome⟩
  · exact invariant.of_heads same
  · obtain ⟨positive, nonzero⟩ := admission_ok_valid admitted
    rw [outcome]
    refine ⟨invariant.statics.setHead_shared _, ?_⟩
    rw [Project3.setHead_shared]
    exact invariant.shared.cons unlisted positive nonzero

/-- Every machine reached from boot by completed calls satisfies the registry
invariant. -/
theorem reachable_invariant (user : ByteMemory) (calls : List Call) :
    RegistryInvariant (afterCalls (.boot user) calls) :=
  Transition.invariant_final Call.step (fun _ _ => True) RegistryInvariant
    (fun _ call invariant _ => step_invariant invariant call) (boot_invariant user)
    (Transition.along_of_forall Call.step (fun _ _ => trivial) _ _)

/-- Distinct positive 32-bit pids leave room for fewer than `2 ^ 31` entries. -/
theorem WellFormed.length_lt {entries : List MemoryLimitationEntry}
    (wellFormed : WellFormed entries) : entries.length < 2 ^ 31 := by
  have numbers : (entries.map fun entry => entry.pid.toNat).Nodup := by
    have injective := wellFormed.distinct.map BitVec.toNat_injective
    rwa [List.map_map] at injective
  have inRange : (entries.map fun entry => entry.pid.toNat) ⊆ List.range' 1 (2 ^ 31 - 1) := by
    intro number member
    obtain ⟨entry, inEntries, rfl⟩ := List.mem_map.mp member
    have positive := wellFormed.positive entry inEntries
    have bound := entry.pid.isLt
    rw [BitVec.toInt_eq_toNat_cond] at positive
    rw [List.mem_range'_1]
    split at positive <;> omega
  have counted := (List.Nodup.subperm numbers inRange).length_le
  rw [List.length_map, List.length_range'] at counted
  omega

/-! ### History -/

/-- The entries of the successful adds of a run, latest first. -/
def addedEntries (machine : Machine) (calls : List Call) : List MemoryLimitationEntry :=
  ((calls.zip (Transition.outputs Call.step machine calls)).filterMap addedEntry).reverse

/-- The shared list is what the successful adds put in front of it. -/
theorem shared_eq_addedEntries {machine : Machine} (empty : StaticsEmpty machine)
    (calls : List Call) :
    (afterCalls machine calls).heads .shared =
      addedEntries machine calls ++ machine.heads .shared := by
  induction calls generalizing machine with
  | nil => rfl
  | cons call rest inductionHypothesis =>
      unfold addedEntries
      simp only [Transition.outputs, List.zip_cons_cons, List.filterMap_cons, afterCalls,
        Transition.final]
      rcases step_heads empty call with
        ⟨same, none⟩ | ⟨env, processPid, memoryLimit, task, rfl, -, -, outcome⟩
      · have stillEmpty : StaticsEmpty (call.step machine).2 := by
          constructor
          · rw [same, empty.updateStatic]
          · rw [same, empty.removeStatic]
        rw [none, ← same]
        exact inductionHypothesis stillEmpty
      · rw [outcome]
        have tail := inductionHypothesis (empty.setHead_shared
          (⟨processPid, memoryLimit⟩ :: machine.heads .shared))
        rw [Project3.setHead_shared] at tail
        simpa [addedEntry, addedEntries] using tail

end UsacSyscalls.Project3
