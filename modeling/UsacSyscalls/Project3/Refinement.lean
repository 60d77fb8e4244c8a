import Mathlib.Data.List.AList
import UsacSyscalls.Project3.DeliveredPrefix

/-!
Contract: the four syscalls against one abstract registry.

Owns the abstract registry, an association list from pid to limit, its step on
the same calls, and the exact condition under which runs of the code from boot
and runs of the registry look the same to every caller.

Does not own properties of `get_memory_limits` beyond the delivered pairs.
-/

set_option autoImplicit false

namespace UsacSyscalls.Project3

open UsacSyscalls.Foundation
open UsacSyscalls.Kernel

/-! ### The abstract registry

The registry is what the four calls are for: one table that `add` extends,
`update` and `remove` edit and `get` lists. The checks before the table is
consulted are those of the calls themselves. -/

abbrev LimitRegistry := AList fun _ : PidT => SizeT

def LimitRegistry.step (registry : LimitRegistry) : Call → Observation × LimitRegistry
  | .add env processPid memoryLimit =>
      match admission env processPid memoryLimit with
      | .error code => (⟨code, []⟩, registry)
      | .ok _ =>
          if processPid ∈ registry then (⟨-101, []⟩, registry)
          else if env.kmalloc then (⟨0, []⟩, registry.insert processPid memoryLimit)
          else (⟨-enomem, []⟩, registry)
  | .update env processPid memoryLimit =>
      if processPid.toInt ≤ 0 ∨ memoryLimit ≤ 0 then (⟨-einval, []⟩, registry)
      else if env.capable = false then (⟨-eperm, []⟩, registry)
      else if processPid ∈ registry then (⟨0, []⟩, registry.replace processPid memoryLimit)
      else (⟨-esrch, []⟩, registry)
  | .remove env processPid =>
      if processPid.toInt ≤ 0 then (⟨-einval, []⟩, registry)
      else if env.capable = false then (⟨-eperm, []⟩, registry)
      else if processPid ∈ registry then (⟨0, []⟩, registry.erase processPid)
      else (⟨-esrch, []⟩, registry)
  | .get _ buffer maxEntries returned =>
      if maxEntries ≤ 0 ∨ buffer = 0 ∨ returned = 0 then (⟨-einval, []⟩, registry)
      else
        let first := registry.entries.take maxEntries.toNat
        (⟨first.length, first.map fun entry => (entry.1, entry.2)⟩, registry)

/-! ### Simulation -/

def toPair (entry : MemoryLimitationEntry) : (_ : PidT) × SizeT :=
  ⟨entry.pid, entry.memoryLimit⟩

/-- The shared list of the machine holds the registry. -/
structure Represents (machine : Machine) (registry : LimitRegistry) : Prop where
  invariant : RegistryInvariant machine
  entries : registry.entries = (machine.heads .shared).map toPair

theorem represents_boot (user : ByteMemory) : Represents (.boot user) ∅ :=
  ⟨boot_invariant user, rfl⟩

theorem Represents.mem_iff {machine : Machine} {registry : LimitRegistry}
    (represents : Represents machine registry) (pid : PidT) :
    pid ∈ registry ↔ Listed (machine.heads .shared) pid := by
  have keys : registry.keys = (machine.heads .shared).map MemoryLimitationEntry.pid := by
    unfold AList.keys List.keys
    rw [represents.entries, List.map_map]
    rfl
  rw [AList.mem_keys, keys]
  rfl

/-- What the surroundings promise of a call: the pointers given to an accepted
`get_memory_limits` can be written. -/
def Call.Works (machine : Machine) : Call → Prop
  | .get env buffer maxEntries returned =>
      Accepted buffer maxEntries returned → PointersWork env machine buffer maxEntries returned
  | _ => True

/-- The call is not an `update` or `remove` that gets past its checks with a
pid that `add_memory_limit` has listed. -/
def Call.LeavesListedAlone (machine : Machine) : Call → Prop
  | .update env processPid memoryLimit =>
      ¬ (processPid.toInt ≤ 0 ∨ memoryLimit ≤ 0) → env.capable = true →
        ¬ Listed (machine.heads .shared) processPid
  | .remove env processPid =>
      ¬ processPid.toInt ≤ 0 → env.capable = true → ¬ Listed (machine.heads .shared) processPid
  | _ => True

theorem get_observation {env : Environment} {machine : Machine} {buffer returned : Nat}
    {maxEntries : SizeT} (invariant : RegistryInvariant machine)
    (accepted : Accepted buffer maxEntries returned)
    (work : PointersWork env machine buffer maxEntries returned) :
    ((Call.get env buffer maxEntries returned).step machine).1 =
      ⟨(delivered machine maxEntries).length,
        (delivered machine maxEntries).map fun entry => (entry.pid, entry.memoryLimit)⟩ := by
  have short := invariant.shared.length_lt
  have length := delivered_length machine maxEntries
  have code : (complete env (getMemoryLimits buffer maxEntries returned) machine).1 =
      (delivered machine maxEntries).length := by
    rw [complete_of_pointersWork accepted work]
    exact toInt_ofNat_of_small (by omega)
  simp only [Call.step, code, Int.toNat_natCast, Observation.mk.injEq, true_and]
  apply List.ext_getElem (by simp)
  intro index inRange inDelivered
  rw [List.length_map] at inDelivered
  rw [List.getElem_map, List.getElem_map, List.getElem_range]
  exact recordAt_of_pointersWork accepted work (List.getElem?_eq_getElem inDelivered)

/-- The same observation, and machines that still correspond. -/
structure Matches (outcome : Observation × Machine) (expected : Observation × LimitRegistry) :
    Prop where
  observation : outcome.1 = expected.1
  represents : Represents outcome.2 expected.2

section Step

variable {machine : Machine} {registry : LimitRegistry} (represents : Represents machine registry)

include represents

theorem Represents.insert {processPid : PidT} {memoryLimit : SizeT}
    (unlisted : ¬ Listed (machine.heads .shared) processPid) (positive : 0 < processPid.toInt)
    (nonzero : memoryLimit ≠ 0) :
    Represents
      (machine.setHead .shared (⟨processPid, memoryLimit⟩ :: machine.heads .shared))
      (registry.insert processPid memoryLimit) where
  invariant := by
    refine ⟨represents.invariant.statics.setHead_shared _, ?_⟩
    rw [setHead_shared]
    exact represents.invariant.shared.cons unlisted positive nonzero
  entries := by
    rw [AList.entries_insert_of_notMem (mt (represents.mem_iff _).mp unlisted),
      represents.entries, setHead_shared, List.map_cons]
    rfl

theorem add_matches (env : Environment) (processPid : PidT) (memoryLimit : SizeT) :
    Matches ((Call.add env processPid memoryLimit).step machine)
      (registry.step (.add env processPid memoryLimit)) := by
  simp only [Call.step, LimitRegistry.step, complete_addMemoryLimit, represents.mem_iff]
  cases admitted : admission env processPid memoryLimit with
  | error code => exact ⟨rfl, represents⟩
  | ok task =>
      by_cases listed : Listed (machine.heads .shared) processPid
      · simp only [if_pos listed]
        exact ⟨rfl, represents⟩
      · by_cases allocated : env.kmalloc = true
        · obtain ⟨positive, nonzero⟩ := admission_ok_valid admitted
          simp only [if_neg listed, if_pos allocated]
          exact ⟨rfl, represents.insert listed positive nonzero⟩
        · simp only [if_neg listed, if_neg allocated]
          exact ⟨rfl, represents⟩

/-- An edit whose own list is empty, next to the edit of the registry. -/
theorem edit_matches {invalid : Prop} [Decidable invalid] {env : Environment} {processPid : PidT}
    {edited : LimitRegistry}
    (alone : ¬ invalid → env.capable = true → ¬ Listed (machine.heads .shared) processPid) :
    Matches
      (if invalid then (⟨-einval, []⟩, machine)
        else if env.capable = false then (⟨-eperm, []⟩, machine)
        else (⟨-esrch, []⟩, machine))
      (if invalid then (⟨-einval, []⟩, registry)
        else if env.capable = false then (⟨-eperm, []⟩, registry)
        else if processPid ∈ registry then (⟨0, []⟩, edited)
        else (⟨-esrch, []⟩, registry)) := by
  by_cases refused : invalid
  · rw [if_pos refused, if_pos refused]
    exact ⟨rfl, represents⟩
  · by_cases unprivileged : env.capable = false
    · rw [if_neg refused, if_neg refused, if_pos unprivileged, if_pos unprivileged]
      exact ⟨rfl, represents⟩
    · have unlisted := alone refused (Bool.eq_true_of_not_eq_false unprivileged)
      rw [← represents.mem_iff] at unlisted
      rw [if_neg refused, if_neg refused, if_neg unprivileged, if_neg unprivileged,
        if_neg unlisted]
      exact ⟨rfl, represents⟩

theorem edit_differs {invalid : Prop} [Decidable invalid] {env : Environment} {processPid : PidT}
    {edited : LimitRegistry} (valid : ¬ invalid) (privileged : env.capable = true)
    (listed : Listed (machine.heads .shared) processPid) :
    (if invalid then ((⟨-einval, []⟩, machine) : Observation × Machine)
      else if env.capable = false then (⟨-eperm, []⟩, machine)
      else (⟨-esrch, []⟩, machine)).1 ≠
    (if invalid then ((⟨-einval, []⟩, registry) : Observation × LimitRegistry)
      else if env.capable = false then (⟨-eperm, []⟩, registry)
      else if processPid ∈ registry then (⟨0, []⟩, edited)
      else (⟨-esrch, []⟩, registry)).1 := by
  have granted : ¬ env.capable = false := by simp [privileged]
  rw [← represents.mem_iff] at listed
  rw [if_neg valid, if_neg valid, if_neg granted, if_neg granted, if_pos listed]
  intro same
  have codes : -esrch = 0 := congrArg Observation.code same
  exact absurd codes (by decide)

theorem get_matches {env : Environment} {buffer returned : Nat} {maxEntries : SizeT}
    (works : (Call.get env buffer maxEntries returned).Works machine) :
    Matches ((Call.get env buffer maxEntries returned).step machine)
      (registry.step (.get env buffer maxEntries returned)) := by
  have heads : ((Call.get env buffer maxEntries returned).step machine).2.heads = machine.heads :=
    complete_getMemoryLimits_heads env machine buffer maxEntries returned
  have still : Represents ((Call.get env buffer maxEntries returned).step machine).2 registry :=
    ⟨represents.invariant.of_heads heads, by rw [heads, represents.entries]⟩
  by_cases accepted : Accepted buffer maxEntries returned
  · have expected : registry.step (.get env buffer maxEntries returned) =
        (⟨(delivered machine maxEntries).length,
          (delivered machine maxEntries).map fun entry => (entry.pid, entry.memoryLimit)⟩,
          registry) := by
      simp only [LimitRegistry.step, if_neg (accepted_iff.mp accepted), represents.entries,
        ← List.map_take, List.length_map, List.map_map]
      rfl
    rw [expected]
    exact ⟨get_observation represents.invariant accepted (works accepted), still⟩
  · have expected : registry.step (.get env buffer maxEntries returned) =
        (⟨-einval, []⟩, registry) := by
      rw [LimitRegistry.step]
      rw [if_pos (not_not.mp (mt accepted_iff.mpr accepted))]
    have observation : ((Call.get env buffer maxEntries returned).step machine).1 =
        ⟨-einval, []⟩ := by
      simp only [Call.step, getMemoryLimits_refused env machine accepted]
      rfl
    rw [expected]
    exact ⟨observation, still⟩

/-- A step that leaves listed pids alone continues the simulation. -/
theorem step_matches {call : Call} (works : call.Works machine)
    (alone : call.LeavesListedAlone machine) :
    Matches (call.step machine) (registry.step call) := by
  cases call with
  | add env processPid memoryLimit => exact add_matches represents env processPid memoryLimit
  | update env processPid memoryLimit =>
      rw [step_update represents.invariant.statics]
      exact edit_matches represents alone
  | remove env processPid =>
      rw [step_remove represents.invariant.statics]
      exact edit_matches represents alone
  | get env buffer maxEntries returned => exact get_matches represents works

/-- An `update` or `remove` that gets past its checks with a listed pid does
not find it in the list of its own file. -/
theorem step_differs {call : Call} (touches : ¬ call.LeavesListedAlone machine) :
    (call.step machine).1 ≠ (registry.step call).1 := by
  cases call with
  | add env processPid memoryLimit => exact absurd trivial touches
  | update env processPid memoryLimit =>
      simp only [Call.LeavesListedAlone, not_forall, not_not] at touches
      obtain ⟨valid, privileged, listed⟩ := touches
      rw [step_update represents.invariant.statics]
      exact edit_differs represents valid privileged listed
  | remove env processPid =>
      simp only [Call.LeavesListedAlone, not_forall, not_not] at touches
      obtain ⟨valid, privileged, listed⟩ := touches
      rw [step_remove represents.invariant.statics]
      exact edit_differs represents valid privileged listed
  | get env buffer maxEntries returned => exact absurd trivial touches

end Step

/-- A run of completed calls from boot shows its callers what the registry
shows them exactly when no `update` or `remove` that gets past its checks names
a pid that is listed when it runs. -/
theorem outputs_eq_registry_iff (user : ByteMemory) (calls : List Call)
    (works : Transition.Along Call.step Call.Works (.boot user) calls) :
    Transition.outputs Call.step (.boot user) calls =
        Transition.outputs LimitRegistry.step ∅ calls ↔
      Transition.Along Call.step Call.LeavesListedAlone (.boot user) calls := by
  refine Transition.outputs_eq_iff_along ?_ ?_ (represents_boot user) works
  · intro machine registry call represents works alone
    have result := step_matches represents works alone
    exact ⟨result.observation, result.represents⟩
  · intro machine registry call represents touches
    exact step_differs represents touches

theorem outputs_eq_registry_for_unlisted_remove :
    let calls : List Call :=
      [.add (.quiet 7) 7 8192, .remove (.quiet 7) 8, .get (.quiet 7) 4096 2 8192]
    Transition.Along Call.step Call.Works (.boot fun _ => 0) calls ∧
      Transition.outputs Call.step (.boot fun _ => 0) calls =
        Transition.outputs LimitRegistry.step ∅ calls := by
  intro calls
  have work : PointersWork (.quiet 7)
      (afterCalls (.boot fun _ => 0) [.add (.quiet 7) 7 8192, .remove (.quiet 7) 8])
      4096 2 8192 := by
    refine ⟨?_, ⟨by decide, rfl⟩, by decide⟩
    intro index below
    have one : index = 0 := Nat.lt_one_iff.mp below
    subst one
    exact ⟨by decide, rfl⟩
  have works : Transition.Along Call.step Call.Works (.boot fun _ => 0) calls :=
    ⟨trivial, trivial, fun _ => work, trivial⟩
  refine ⟨works, (outputs_eq_registry_iff _ calls works).mpr ?_⟩
  refine ⟨trivial, ?_, trivial, trivial⟩
  intro valid privileged
  decide

/-- After a successful `add`, an `update` and a `remove` of the same pid do not
find it, and the pid can never be added again. -/
theorem outputs_differ_after_listed_update :
    let calls : List Call :=
      [.add (.quiet 7) 7 8192, .update (.quiet 7) 7 16384, .remove (.quiet 7) 7,
        .add (.quiet 7) 7 8192]
    Transition.Along Call.step Call.Works (.boot fun _ => 0) calls ∧
      (Transition.outputs Call.step (.boot fun _ => 0) calls).map Observation.code =
        [0, -esrch, -esrch, -101] ∧
      (Transition.outputs LimitRegistry.step ∅ calls).map Observation.code = [0, 0, 0, 0] := by
  exact ⟨⟨trivial, trivial, trivial, trivial, trivial⟩, by decide, by decide⟩

end UsacSyscalls.Project3
