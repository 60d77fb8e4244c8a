import UsacSyscalls.Project1.Syscalls
import UsacSyscalls.Project2.Syscalls

/-!
Contract: kernel stack contents in what the statistics syscalls deliver.

Owns the comparison of two runs that agree on kernel counters, processes and
arguments and differ in the stack memory under uninitialised locals, for all
four statistics calls, and the exact set of calls for which the two runs always
look the same to the caller.

Does not own the values that are delivered; those are in the two projects.
-/

set_option autoImplicit false

namespace UsacSyscalls

open UsacSyscalls.Foundation
open UsacSyscalls.Kernel
open UsacSyscalls.Project1
open UsacSyscalls.Project2

inductive StatsCall where
  | captureMemorySnapshot (userSnap : Nat)
  | getIoThrottle (pid : PidT) (userStats : Nat)
  | memoryAllocationStatistics (pid : PidT) (info : Nat)
  | tamalloc (info : Nat)
deriving DecidableEq, Repr

def StatsCall.body : StatsCall → Syscall Int
  | .captureMemorySnapshot userSnap => Project1.captureMemorySnapshot userSnap
  | .getIoThrottle pid userStats => Project1.getIoThrottle pid userStats
  | .memoryAllocationStatistics pid info => Project2.memoryAllocationStatistics pid info
  | .tamalloc info => Project2.tamalloc info

/-- The code with which a call gives up before its copy, or where it copies
what. -/
def StatsCall.collected (env : Environment) : StatsCall → Except Int (Nat × List Byte)
  | .captureMemorySnapshot userSnap => .ok (userSnap, snapshotBytes env)
  | .getIoThrottle pid userStats =>
      match env.lookup pid with
      | none => .error (-esrch)
      | some task => .ok (userStats, ioStatsBytes (env.task task).ioac)
  | .memoryAllocationStatistics pid info =>
      match env.lookup pid with
      | none => .error (-esrch)
      | some task =>
          match env.taskMm task with
          | none => .error (-einval)
          | some mm => .ok (info, procInfoBytes (env.mm mm) (env.task task).oomScoreAdj)
  | .tamalloc info => .ok (info, globalInfoBytes (totals env env.processes))

theorem complete_body (env : Environment) (call : StatsCall) (machine : Machine) :
    complete env call.body machine =
      match call.collected env with
      | .error code => (code, machine)
      | .ok (destination, bytes) => complete env (copyOut destination bytes) machine := by
  cases call with
  | captureMemorySnapshot userSnap => exact complete_captureMemorySnapshot env machine userSnap
  | getIoThrottle pid userStats =>
      simp only [StatsCall.body, StatsCall.collected, complete_getIoThrottle]
      cases env.lookup pid with
      | none => rfl
      | some task => rfl
  | memoryAllocationStatistics pid info =>
      simp only [StatsCall.body, StatsCall.collected, complete_memoryAllocationStatistics]
      cases env.lookup pid with
      | none => rfl
      | some task =>
          simp only
          cases env.taskMm task with
          | none => rfl
          | some mm => rfl
  | tamalloc info => exact complete_tamalloc env machine info

/-! ### Two stacks -/

def withStack (env : Environment) (fault : Nat → Nat → Option Fault)
    (stack : StackSlot → ByteMemory) : Environment :=
  { env with fault := fault, stack := stack }

/-- Whatever the copies do, runs over two stack contents return the same code
and leave the same user memory. -/
def DeliversOnlyCollected (env : Environment) (call : StatsCall) : Prop :=
  ∀ (fault : Nat → Nat → Option Fault) (machine : Machine) (left right : StackSlot → ByteMemory),
    (complete (withStack env fault left) call.body machine).1 =
        (complete (withStack env fault right) call.body machine).1 ∧
      (complete (withStack env fault left) call.body machine).2.user =
        (complete (withStack env fault right) call.body machine).2.user

theorem copyOut_withStack (env : Environment) (fault : Nat → Nat → Option Fault)
    (left right : StackSlot → ByteMemory) (machine : Machine) (destination : Nat)
    (bytes : List Byte) :
    complete (withStack env fault left) (copyOut destination bytes) machine =
      complete (withStack env fault right) (copyOut destination bytes) machine := by
  rw [complete_copyOut, complete_copyOut]
  rfl

/-- A call whose collected bytes do not depend on the stack delivers only
them. -/
theorem deliversOnlyCollected_of_collected {env : Environment} {call : StatsCall}
    (same : ∀ fault left right,
      call.collected (withStack env fault left) = call.collected (withStack env fault right)) :
    DeliversOnlyCollected env call := by
  intro fault machine left right
  rw [complete_body, complete_body, same fault left right]
  cases call.collected (withStack env fault right) with
  | error code => exact ⟨rfl, rfl⟩
  | ok copied =>
      simp only [copyOut_withStack env fault left right, and_self]

theorem snapshot_hidden_of_refused {env : Environment} {userSnap : Nat}
    (refused : ¬ env.AccessOk userSnap sizeofMemorySnapshot) :
    DeliversOnlyCollected env (.captureMemorySnapshot userSnap) := by
  intro fault machine left right
  have outcome : ∀ stack, complete (withStack env fault stack)
      (StatsCall.captureMemorySnapshot userSnap).body machine = (-efault, machine) := by
    intro stack
    have refusedCopy : ¬ (withStack env fault stack).AccessOk userSnap
        (snapshotBytes (withStack env fault stack)).length := by
      rw [snapshotBytes_length]
      exact refused
    rw [complete_body]
    simp only [StatsCall.collected]
    rw [complete_copyOut, Environment.copyToUser_refused refusedCopy, snapshotBytes_length]
    rfl
  rw [outcome left, outcome right]
  exact ⟨rfl, rfl⟩

/-- The third member of the snapshot is the stale `totalswap`. -/
theorem snapshot_discloses {env : Environment} {userSnap : Nat}
    (access : env.AccessOk userSnap sizeofMemorySnapshot) (stack : StackSlot → ByteMemory)
    (machine : Machine) :
    (complete (withStack env (fun _ _ => none) stack)
      (StatsCall.captureMemorySnapshot userSnap).body machine).2.user (userSnap + 16) =
        BitVec.ofNat 8 (getField (stack .sysinfo) 64 8 64 : UnsignedLong).toNat := by
  have copies : (withStack env (fun _ _ => none) stack).Copies userSnap
      (snapshotBytes (withStack env (fun _ _ => none) stack)).length := by
    rw [snapshotBytes_length]
    exact ⟨access, rfl⟩
  rw [complete_body]
  simp only [StatsCall.collected]
  rw [complete_copyOut_of_copies copies]
  apply (ByteMemory.store_inside machine.user (by rw [snapshotBytes_length]; decide)).trans
  rfl

/-- Only `capture_memory_snapshot` lets stack contents through, and it does
whenever its buffer lies in the user address space. -/
theorem deliversOnlyCollected_iff (env : Environment) (call : StatsCall) :
    DeliversOnlyCollected env call ↔
      ∀ userSnap, call = .captureMemorySnapshot userSnap →
        ¬ env.AccessOk userSnap sizeofMemorySnapshot := by
  constructor
  · rintro delivers userSnap rfl access
    have same := (delivers (fun _ _ => none) (.boot fun _ => 0) (fun _ _ => 0) (fun _ _ => 1)).2
    have sameByte := congrFun same (userSnap + 16)
    rw [snapshot_discloses access, snapshot_discloses access] at sameByte
    exact absurd sameByte (by decide)
  · intro condition
    cases call with
    | captureMemorySnapshot userSnap => exact snapshot_hidden_of_refused (condition userSnap rfl)
    | getIoThrottle pid userStats =>
        exact deliversOnlyCollected_of_collected fun _ _ _ => rfl
    | memoryAllocationStatistics pid info =>
        exact deliversOnlyCollected_of_collected fun _ _ _ => rfl
    | tamalloc info => exact deliversOnlyCollected_of_collected fun _ _ _ => rfl

/-- Two snapshots of one kernel state report two sizes of swap. -/
theorem captureMemorySnapshot_discloses_stack :
    let memory := fun stack => (complete (withStack (.quiet 7) (fun _ _ => none) stack)
      (captureMemorySnapshot 4096) (.boot fun _ => 0)).2.user
    getField (memory fun _ _ => 0) (4096 + 16) 8 64 = (0 : UnsignedLong) ∧
      getField (memory fun _ _ => 0x5a) (4096 + 16) 8 64 =
        (0x5a5a5a5a5a5a5a5a : UnsignedLong) := by
  decide

end UsacSyscalls
