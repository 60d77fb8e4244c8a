import Mathlib.Data.List.Nodup
import UsacSyscalls.Foundation.Transition
import UsacSyscalls.Project3.MemoryLimits

/-!
Contract: what one completed memory-limit call does, and runs of such calls.

Owns the outcome equation of `add_memory_limit`, `update_memory_limit` and
`remove_memory_limit`, and the calls as events of a transition system on the
machine.

Does not own the invariant of the lists, which is `Registry`, nor the memory
effect of `get_memory_limits`, which is `Delivery`.
-/

set_option autoImplicit false

namespace UsacSyscalls.Project3

open UsacSyscalls.Foundation
open UsacSyscalls.Kernel

/-! ### Outcome equations -/

/-- The value `get_process_memory_usage` computes for a task. -/
def usage (env : Environment) (task : TaskRef) : Int :=
  match (env.task task).mm with
  | none => 0
  | some mm => ((env.mm mm).totalVm <<< pageShift).toInt

/-- The exits of `add_memory_limit` before its walk, or the task it found. -/
def admission (env : Environment) (processPid : PidT) (memoryLimit : SizeT) :
    Except Int TaskRef :=
  if processPid.toInt ≤ 0 ∨ memoryLimit ≤ 0 then .error (-einval)
  else if env.capable = false then .error (-eperm)
  else
    match env.lookup processPid with
    | none => .error (-esrch)
    | some task => if usage env task > memoryLimit.toInt then .error (-100) else .ok task

theorem admission_error_code {env : Environment} {processPid : PidT} {memoryLimit : SizeT}
    {code : Int} (refused : admission env processPid memoryLimit = .error code) :
    code ∈ [-einval, -eperm, -esrch, -100] := by
  unfold admission at refused
  split at refused
  · obtain rfl := Except.error.inj refused
    decide
  · split at refused
    · obtain rfl := Except.error.inj refused
      decide
    · split at refused
      · obtain rfl := Except.error.inj refused
        decide
      · split at refused
        · obtain rfl := Except.error.inj refused
          decide
        · contradiction

theorem admission_error_neg {env : Environment} {processPid : PidT} {memoryLimit : SizeT}
    {code : Int} (refused : admission env processPid memoryLimit = .error code) : code < 0 := by
  have negative : ∀ exit ∈ [-einval, -eperm, -esrch, -100], exit < 0 := by decide
  exact negative code (admission_error_code refused)

/-- The pid has an entry in the list. -/
def Listed (entries : List MemoryLimitationEntry) (pid : PidT) : Prop :=
  pid ∈ entries.map MemoryLimitationEntry.pid

instance (entries : List MemoryLimitationEntry) (pid : PidT) : Decidable (Listed entries pid) :=
  inferInstanceAs (Decidable (_ ∈ _))

theorem any_pid_eq_listed (entries : List MemoryLimitationEntry) (pid : PidT) :
    (entries.any fun entry => entry.pid == pid) = decide (Listed entries pid) := by
  rw [Bool.eq_iff_iff]
  simp [Listed]

section Outcomes

variable (env : Environment) (machine : Machine)

theorem complete_getProcessMemoryUsage (task : TaskRef) :
    complete env (getProcessMemoryUsage (some task)) machine = (usage env task, machine) := by
  unfold getProcessMemoryUsage usage
  cases found : (env.task task).mm with
  | none => simp only [Program.run_bind, complete_taskMm, found, Program.run_pure]
  | some mm =>
      simp only [Program.run_bind, complete_taskMm, found, complete_totalVm, Program.run_pure]

theorem complete_addAdmission (processPid : PidT) (memoryLimit : SizeT) :
    complete env (addAdmission processPid memoryLimit) machine =
      (admission env processPid memoryLimit, machine) := by
  unfold addAdmission admission
  by_cases invalid : processPid.toInt ≤ 0 ∨ memoryLimit ≤ 0
  · simp only [if_pos invalid, Program.run_pure]
  · simp only [if_neg invalid, Program.run_bind, complete_capable]
    by_cases unprivileged : env.capable = false
    · simp [unprivileged]
    · simp only [unprivileged, Bool.not_true, Bool.true_eq_false, Bool.false_eq_true, if_false,
        Program.run_bind, complete_getPidTask, complete_findVpid_snd, findVpid_bind_lookup]
      cases env.lookup processPid with
      | none => rfl
      | some task =>
          simp only [Program.run_bind, complete_getProcessMemoryUsage]
          by_cases above : usage env task > memoryLimit.toInt
          · simp [above]
          · simp [above]

theorem complete_addDuplicateWalk (processPid : PidT) (task : TaskRef) :
    complete env (addDuplicateWalk processPid task) machine =
      (if Listed (machine.heads .shared) processPid then .error (-101) else .ok (), machine) := by
  unfold addDuplicateWalk
  simp only [Program.run_bind, complete_listEntries, memoryLimitedProcesses, any_pid_eq_listed]
  by_cases listed : Listed (machine.heads .shared) processPid
  · simp [listed]
  · simp [listed]

theorem complete_addAllocation (task : TaskRef) :
    complete env (addAllocation task) machine =
      (if env.kmalloc then .ok () else .error (-enomem), machine) := by
  unfold addAllocation
  by_cases allocated : env.kmalloc = true
  · simp [allocated]
  · simp [allocated]

theorem complete_addLink (processPid : PidT) (memoryLimit : SizeT) (task : TaskRef) :
    complete env (addLink processPid memoryLimit task) machine =
      (0, machine.setHead .shared (⟨processPid, memoryLimit⟩ :: machine.heads .shared)) := by
  unfold addLink
  simp only [Program.run_bind, complete_listAdd, complete_putTaskStruct, Program.run_pure,
    memoryLimitedProcesses]

/-- Every exit of `add_memory_limit`, in source order. -/
theorem complete_addMemoryLimit (processPid : PidT) (memoryLimit : SizeT) :
    complete env (addMemoryLimit processPid memoryLimit) machine =
      match admission env processPid memoryLimit with
      | .error code => (code, machine)
      | .ok _ =>
          if Listed (machine.heads .shared) processPid then (-101, machine)
          else if env.kmalloc then
            (0, machine.setHead .shared (⟨processPid, memoryLimit⟩ :: machine.heads .shared))
          else (-enomem, machine) := by
  unfold addMemoryLimit
  simp only [Program.run_bind, complete_addAdmission]
  cases admission env processPid memoryLimit with
  | error code => rfl
  | ok task =>
      simp only [Program.run_bind, complete_addDuplicateWalk]
      by_cases listed : Listed (machine.heads .shared) processPid
      · simp only [if_pos listed, Program.run_pure]
      · simp only [if_neg listed, Program.run_bind, complete_addAllocation]
        by_cases allocated : env.kmalloc = true
        · simp [allocated, complete_addLink]
        · simp [allocated]

theorem complete_updateMemoryLimit (processPid : PidT) (memoryLimit : SizeT) :
    complete env (updateMemoryLimit processPid memoryLimit) machine =
      if processPid.toInt ≤ 0 ∨ memoryLimit ≤ 0 then (-einval, machine)
      else if env.capable = false then (-eperm, machine)
      else
        ((updateWalk processPid memoryLimit (machine.heads .updateStatic)).1,
          machine.setHead .updateStatic
            (updateWalk processPid memoryLimit (machine.heads .updateStatic)).2) := by
  unfold updateMemoryLimit
  by_cases invalid : processPid.toInt ≤ 0 ∨ memoryLimit ≤ 0
  · simp only [if_pos invalid, Program.run_pure]
  · simp only [if_neg invalid]
    by_cases unprivileged : env.capable = false
    · simp [unprivileged]
    · simp [unprivileged, memoryLimitedProcesses]

theorem complete_removeMemoryLimit (processPid : PidT) :
    complete env (removeMemoryLimit processPid) machine =
      if processPid.toInt ≤ 0 then (-einval, machine)
      else if env.capable = false then (-eperm, machine)
      else
        ((removeWalk processPid (machine.heads .removeStatic)).1,
          machine.setHead .removeStatic
            (removeWalk processPid (machine.heads .removeStatic)).2) := by
  unfold removeMemoryLimit
  by_cases invalid : processPid.toInt ≤ 0
  · simp only [if_pos invalid, Program.run_pure]
  · simp only [if_neg invalid]
    by_cases unprivileged : env.capable = false
    · simp [unprivileged]
    · simp [unprivileged, memoryLimitedProcesses]

/-- No operation of `get_memory_limits` edits a list. -/
def LeavesHeads : Op → Prop
  | .setEntries _ _ => False
  | .listAdd _ _ => False
  | _ => True

theorem kernel_leavesHeads (operation : Op) (leaves : LeavesHeads operation) (state : Machine) :
    (kernel env operation state).2.heads = state.heads := by
  cases operation <;> first | rfl | exact leaves.elim

theorem copyRecords_within (buffer : Nat) (maxEntries : SizeT)
    (entries : List MemoryLimitationEntry) (count : SizeT) (tmp : ByteMemory) :
    Program.Within LeavesHeads (copyRecords buffer maxEntries entries count tmp) := by
  induction entries generalizing count tmp with
  | nil => exact Program.within_pure _
  | cons entry rest inductionHypothesis =>
      unfold copyRecords
      split
      · exact Program.within_pure _
      · apply Program.within_bind (Program.within_perform trivial)
        intro left
        split
        · exact Program.within_pure _
        · exact inductionHypothesis _ _

theorem getMemoryLimits_within (buffer : Nat) (maxEntries : SizeT) (returned : Nat) :
    Program.Within LeavesHeads (getMemoryLimits buffer maxEntries returned) := by
  unfold getMemoryLimits
  split
  · exact Program.within_pure _
  · split
    · exact Program.within_pure _
    · apply Program.within_bind (Program.within_perform trivial)
      intro tmp
      apply Program.within_bind (Program.within_perform trivial)
      intro entries
      apply Program.within_bind (copyRecords_within _ _ _ _ _)
      intro result
      split
      · exact Program.within_pure _
      · apply Program.within_bind (Program.within_perform trivial)
        intro left
        split
        · exact Program.within_pure _
        · exact Program.within_pure _

theorem complete_getMemoryLimits_heads (buffer : Nat) (maxEntries : SizeT)
    (returned : Nat) :
    (complete env (getMemoryLimits buffer maxEntries returned) machine).2.heads =
      machine.heads :=
  Program.run_frame (kernel env) Machine.heads (kernel_leavesHeads env)
    (getMemoryLimits_within buffer maxEntries returned) machine

end Outcomes

/-! ### Calls as events -/

/-- A completed call with what the kernel answered during it. -/
inductive Call where
  | add (env : Environment) (processPid : PidT) (memoryLimit : SizeT)
  | update (env : Environment) (processPid : PidT) (memoryLimit : SizeT)
  | remove (env : Environment) (processPid : PidT)
  | get (env : Environment) (uProcessesBuffer : Nat) (maxEntries : SizeT)
      (processesReturned : Nat)

/-- What the caller of a completed call sees: the return code and, after a
`get_memory_limits`, the records that many positions of its buffer hold. -/
structure Observation where
  code : Int
  delivered : List (PidT × SizeT)
deriving DecidableEq, Repr

def recordAt (user : ByteMemory) (buffer : Nat) (index : Nat) : PidT × SizeT :=
  (getField user (buffer + sizeofMemoryLimitation * index) 4 32,
    getField user (buffer + sizeofMemoryLimitation * index + 8) 8 64)

def observe (outcome : Int × Machine) : Observation × Machine :=
  (⟨outcome.1, []⟩, outcome.2)

def Call.step (machine : Machine) : Call → Observation × Machine
  | .add env processPid memoryLimit =>
      observe (complete env (addMemoryLimit processPid memoryLimit) machine)
  | .update env processPid memoryLimit =>
      observe (complete env (updateMemoryLimit processPid memoryLimit) machine)
  | .remove env processPid =>
      observe (complete env (removeMemoryLimit processPid) machine)
  | .get env buffer maxEntries returned =>
      let outcome := complete env (getMemoryLimits buffer maxEntries returned) machine
      (⟨outcome.1, (List.range outcome.1.toNat).map (recordAt outcome.2.user buffer)⟩,
        outcome.2)

abbrev afterCalls (machine : Machine) (calls : List Call) : Machine :=
  Transition.final Call.step machine calls

/-- The two `static` list heads, which only their own files can reach. -/
structure StaticsEmpty (machine : Machine) : Prop where
  updateStatic : machine.heads .updateStatic = []
  removeStatic : machine.heads .removeStatic = []

theorem setHead_self (machine : Machine) {head : ListHead} {entries : List MemoryLimitationEntry}
    (same : machine.heads head = entries) : machine.setHead head entries = machine := by
  subst same
  simp [Machine.setHead]

theorem step_update {machine : Machine} (empty : StaticsEmpty machine) (env : Environment)
    (processPid : PidT) (memoryLimit : SizeT) :
    (Call.update env processPid memoryLimit).step machine =
      if processPid.toInt ≤ 0 ∨ memoryLimit ≤ 0 then (⟨-einval, []⟩, machine)
      else if env.capable = false then (⟨-eperm, []⟩, machine)
      else (⟨-esrch, []⟩, machine) := by
  simp only [Call.step, complete_updateMemoryLimit, empty.updateStatic, updateWalk]
  rw [setHead_self machine empty.updateStatic]
  split
  · rfl
  · split <;> rfl

theorem step_remove {machine : Machine} (empty : StaticsEmpty machine) (env : Environment)
    (processPid : PidT) :
    (Call.remove env processPid).step machine =
      if processPid.toInt ≤ 0 then (⟨-einval, []⟩, machine)
      else if env.capable = false then (⟨-eperm, []⟩, machine)
      else (⟨-esrch, []⟩, machine) := by
  simp only [Call.step, complete_removeMemoryLimit, empty.removeStatic, removeWalk]
  rw [setHead_self machine empty.removeStatic]
  split
  · rfl
  · split <;> rfl

/-- The entry a call put in the registry, as its caller can tell. -/
def addedEntry : Call × Observation → Option MemoryLimitationEntry
  | (.add _ processPid memoryLimit, observation) =>
      if observation.code = 0 then some ⟨processPid, memoryLimit⟩ else none
  | _ => none

/-- All a call can do to the list heads while the static ones are empty:
nothing, or one entry in front of the shared list by an `add` that returns 0. -/
theorem step_heads {machine : Machine} (empty : StaticsEmpty machine) (call : Call) :
    ((call.step machine).2.heads = machine.heads ∧
        addedEntry (call, (call.step machine).1) = none) ∨
      ∃ env processPid memoryLimit task, call = .add env processPid memoryLimit ∧
        admission env processPid memoryLimit = .ok task ∧
        ¬ Listed (machine.heads .shared) processPid ∧
        call.step machine = (⟨0, []⟩,
          machine.setHead .shared (⟨processPid, memoryLimit⟩ :: machine.heads .shared)) := by
  cases call with
  | add env processPid memoryLimit =>
      simp only [Call.step, complete_addMemoryLimit]
      cases admitted : admission env processPid memoryLimit with
      | error code =>
          have negative := admission_error_neg admitted
          exact Or.inl ⟨rfl, if_neg (Int.ne_of_lt negative)⟩
      | ok task =>
          by_cases listed : Listed (machine.heads .shared) processPid
          · simp only [if_pos listed]
            exact Or.inl ⟨rfl, rfl⟩
          · simp only [if_neg listed]
            by_cases allocated : env.kmalloc = true
            · simp only [if_pos allocated]
              exact Or.inr ⟨env, processPid, memoryLimit, task, rfl, admitted, listed, rfl⟩
            · simp only [if_neg allocated]
              exact Or.inl ⟨rfl, rfl⟩
  | update env processPid memoryLimit =>
      left
      rw [step_update empty]
      refine ⟨?_, rfl⟩
      split
      · rfl
      · split <;> rfl
  | remove env processPid =>
      left
      rw [step_remove empty]
      refine ⟨?_, rfl⟩
      split
      · rfl
      · split <;> rfl
  | get env buffer maxEntries returned =>
      left
      exact ⟨complete_getMemoryLimits_heads env machine buffer maxEntries returned, rfl⟩

end UsacSyscalls.Project3
