import UsacSyscalls.Inspection.Balance

/-!
Contract: the RCU read-side discipline of the calls that inspect processes.

Owns the two rules, that tasks are only looked up inside a read-side section
and that nothing that may sleep is performed inside one, and for each of the
four calls the exact inputs and processes for which the call keeps to them.

Does not own the balance of the read-side nesting; that is `Balance`.
-/

set_option autoImplicit false

namespace UsacSyscalls.Inspection

open UsacSyscalls.Foundation
open UsacSyscalls.Foundation.Program
open UsacSyscalls.Kernel

def looksUpTask : Op → Bool
  | .findVpid _ => true
  | .pidTask _ => true
  | _ => false

/-- `mmput`, an allocation with `GFP_KERNEL` and `copy_to_user`. -/
def maySleep : Op → Bool
  | .mmput _ => true
  | .kmalloc => true
  | .copyToUser _ _ => true
  | _ => false

/-- The rules for one operation, in the state it is performed in. -/
def RcuRules (state : Machine × Counters) (operation : Op) : Prop :=
  (looksUpTask operation → 1 ≤ state.2 .rcuReadSide) ∧
    (maySleep operation → ¬ 1 ≤ state.2 .rcuReadSide)

theorem rcuRules_of_unrestricted (state : Machine × Counters) {operation : Op}
    (noLookup : looksUpTask operation = false) (noSleep : maySleep operation = false) :
    RcuRules state operation := by
  simp [RcuRules, noLookup, noSleep]

def Disciplined {α : Type} (env : Environment) (program : Syscall α)
    (state : Machine × Counters) : Prop :=
  Throughout (counting env) RcuRules program state

section Calls

variable (env : Environment) (machine : Machine) {counters : Counters}

theorem disciplined_copyOut (destination : Nat) (bytes : List Byte)
    (outside : counters .rcuReadSide = 0) :
    Disciplined env (copyOut destination bytes) (machine, counters) := by
  unfold Disciplined copyOut
  simp only [throughout_bind, copyToUser, throughout_perform]
  refine ⟨?_, ?_⟩
  · simp [RcuRules, looksUpTask, outside]
  · split <;> exact throughout_pure _ _ _

/-- The lookup and the reads are inside the section, which is left on both
paths. -/
theorem disciplined_getIoStatsForPid (pid : PidT) (stats : ByteMemory)
    (outside : counters .rcuReadSide = 0) :
    Disciplined env (Project1.getIoStatsForPid pid stats) (machine, counters) ∧
      (run (counting env) (Project1.getIoStatsForPid pid stats) (machine, counters)).2 =
        (machine, counters) := by
  unfold Disciplined Project1.getIoStatsForPid
  cases found : env.lookup pid with
  | none =>
      simp [rcuReadLock, findVpid, pidTask, rcuReadUnlock, counting, kernel, change, RcuRules,
        looksUpTask, maySleep, outside, found]
  | some task =>
      simp [rcuReadLock, findVpid, pidTask, rcuReadUnlock, ioac, counting, kernel, change,
        RcuRules, looksUpTask, maySleep, outside, found]

theorem disciplined_getIoThrottle (pid : PidT) (userStats : Nat)
    (outside : counters .rcuReadSide = 0) :
    Disciplined env (Project1.getIoThrottle pid userStats) (machine, counters) := by
  obtain ⟨disciplined, left⟩ := disciplined_getIoStatsForPid env machine pid
    (env.stack .kernelStats) outside
  have slot : run (counting env) (stackSlot .kernelStats) (machine, counters) =
      (env.stack .kernelStats, machine, counters) := by
    simp [stackSlot, counting, kernel, change]
  unfold Disciplined Project1.getIoThrottle
  simp only [throughout_bind, slot, left]
  refine ⟨⟨rcuRules_of_unrestricted _ rfl rfl, trivial⟩, disciplined, ?_⟩
  · split
    · exact throughout_pure _ _ _
    · exact disciplined_copyOut env machine _ _ outside

/-- A division neither looks a task up nor sleeps. -/
theorem disciplined_rssPercentOfVm (vmKb rssKb : UnsignedLong) (state : Machine × Counters) :
    Throughout (counting env) RcuRules (Project2.rssPercentOfVm vmKb rssKb) state ∧
      (run (counting env) (Project2.rssPercentOfVm vmKb rssKb) state).2 = state := by
  unfold Project2.rssPercentOfVm
  by_cases mapped : vmKb > 0
  · rw [if_pos mapped]
    refine ⟨⟨rcuRules_of_unrestricted _ rfl rfl, trivial⟩, ?_⟩
    simp [divide, counting, kernel, change]
  · rw [if_neg mapped]
    exact ⟨throughout_pure _ _ _, rfl⟩

/-- The user of the address space is put inside the section. -/
theorem disciplined_memoryAllocationStatistics (pid : PidT) (info : Nat)
    (outside : counters .rcuReadSide = 0) :
    Disciplined env (Project2.memoryAllocationStatistics pid info) (machine, counters) ↔
      (env.lookup pid).bind env.taskMm = none := by
  unfold Disciplined Project2.memoryAllocationStatistics
  cases found : env.lookup pid with
  | none =>
      simp [stackSlot, rcuReadLock, findVpid, pidTask, rcuReadUnlock, counting, kernel, change,
        RcuRules, looksUpTask, maySleep, outside, found]
  | some task =>
      cases held : env.taskMm task with
      | none =>
          simp [stackSlot, rcuReadLock, findVpid, pidTask, getTaskMm, rcuReadUnlock, counting,
            kernel, change, RcuRules, looksUpTask, maySleep, outside, found, held]
      | some mm =>
          simp [stackSlot, rcuReadLock, findVpid, pidTask, getTaskMm, totalVm, getMmRss,
            disciplined_rssPercentOfVm, oomScoreAdj, mmput, counting, kernel, change, RcuRules,
            looksUpTask, maySleep, outside, found, held]

/-- A round of the loop that skips its process leaves no trace. -/
theorem aggregate_skips (counters : Counters) {task : TaskRef}
    (skipped : Project2.counted env task = none) (rest : List TaskRef)
    (kinfo : Project2.TamallocGlobalInfo) :
    (Disciplined env (Project2.aggregate (task :: rest) kinfo) (machine, counters) ↔
      Disciplined env (Project2.aggregate rest kinfo) (machine, counters)) ∧
    run (counting env) (Project2.aggregate (task :: rest) kinfo) (machine, counters) =
      run (counting env) (Project2.aggregate rest kinfo) (machine, counters) := by
  unfold Disciplined
  rw [Project2.aggregate]
  by_cases zombie : (env.task task).exitState = exitZombie
  · simp [exitState, counting, kernel, change, RcuRules, looksUpTask, maySleep, zombie]
  · have none : env.taskMm task = none := by
      simpa [Project2.counted, zombie] using skipped
    simp [exitState, getTaskMm, counting, kernel, change, RcuRules, looksUpTask, maySleep, zombie,
      none]

/-- A round that counts its process puts the address space inside the
section. -/
theorem aggregate_counts {task : TaskRef} (counted : Project2.counted env task ≠ none)
    (rest : List TaskRef) (kinfo : Project2.TamallocGlobalInfo)
    (inside : 1 ≤ counters .rcuReadSide) :
    ¬ Disciplined env (Project2.aggregate (task :: rest) kinfo) (machine, counters) := by
  have alive : (env.task task).exitState ≠ exitZombie := by
    intro zombie
    exact counted (if_pos zombie)
  obtain ⟨mm, held⟩ : ∃ mm, env.taskMm task = some mm := by
    simpa [Project2.counted, alive, Option.ne_none_iff_exists'] using counted
  unfold Disciplined
  rw [Project2.aggregate]
  simp [exitState, getTaskMm, totalVm, getMmRss, mmput, counting, kernel, change, RcuRules,
    looksUpTask, maySleep, alive, held, inside]

theorem disciplined_aggregate (processes : List TaskRef) (kinfo : Project2.TamallocGlobalInfo)
    (inside : 1 ≤ counters .rcuReadSide) :
    (Disciplined env (Project2.aggregate processes kinfo) (machine, counters) ↔
      ∀ task ∈ processes, Project2.counted env task = none) ∧
    ((∀ task ∈ processes, Project2.counted env task = none) →
      (run (counting env) (Project2.aggregate processes kinfo) (machine, counters)).2 =
        (machine, counters)) := by
  induction processes with
  | nil => simp [Disciplined, Project2.aggregate]
  | cons task rest inductionHypothesis =>
      by_cases skipped : Project2.counted env task = none
      · obtain ⟨same, sameRun⟩ := aggregate_skips env machine counters skipped rest kinfo
        rw [same, sameRun, List.forall_mem_cons]
        simpa [skipped] using inductionHypothesis
      · have broken := aggregate_counts env machine skipped rest kinfo inside
        simp [broken, skipped]

theorem disciplined_tamalloc (info : Nat) (outside : counters .rcuReadSide = 0) :
    Disciplined env (Project2.tamalloc info) (machine, counters) ↔
      ∀ task ∈ env.processes, Project2.counted env task = none := by
  have inside : 1 ≤ (counters + one .rcuReadSide) .rcuReadSide := by simp [outside]
  obtain ⟨loop, unchanged⟩ := disciplined_aggregate env machine env.processes ⟨0, 0⟩ inside
  have entered : run (counting env) rcuReadLock (machine, counters) =
      ((), machine, counters + one .rcuReadSide) := rfl
  have walked : run (counting env) forEachProcess (machine, counters + one .rcuReadSide) =
      (env.processes, machine, counters + one .rcuReadSide) := by
    simp [forEachProcess, counting, kernel, change]
  have left : run (counting env) rcuReadUnlock (machine, counters + one .rcuReadSide) =
      ((), machine, counters) := by
    simp [rcuReadUnlock, counting, kernel, change]
  unfold Disciplined Project2.tamalloc
  simp only [throughout_bind, entered, walked]
  constructor
  · intro throughout
    exact loop.mp throughout.2.2.1
  · intro uncounted
    rw [unchanged uncounted, left]
    exact ⟨⟨rcuRules_of_unrestricted _ rfl rfl, trivial⟩,
      ⟨rcuRules_of_unrestricted _ rfl rfl, trivial⟩, loop.mpr uncounted,
      ⟨rcuRules_of_unrestricted _ rfl rfl, trivial⟩, disciplined_copyOut env machine _ _ outside⟩

/-- A call that passes the argument and capability checks looks the pid up
outside any section. -/
theorem disciplined_addMemoryLimit (processPid : PidT) (memoryLimit : SizeT)
    (outside : counters .rcuReadSide = 0) :
    Disciplined env (Project3.addMemoryLimit processPid memoryLimit) (machine, counters) ↔
      (processPid.toInt ≤ 0 ∨ memoryLimit ≤ 0) ∨ env.capable = false := by
  unfold Disciplined Project3.addMemoryLimit Project3.addAdmission
  by_cases invalid : processPid.toInt ≤ 0 ∨ memoryLimit ≤ 0
  · simp only [invalid, if_true, true_or, iff_true]
    exact trivial
  · simp only [invalid, if_false, false_or]
    cases permitted : env.capable with
    | false =>
        simp [capable, counting, kernel, change, RcuRules, looksUpTask, maySleep, permitted]
    | true =>
        simp [capable, findVpid, counting, kernel, change, RcuRules, looksUpTask, maySleep,
          permitted, outside]

end Calls

/-- The calls that keep to the rules. -/
def InspectingCall.KeepsRules (env : Environment) : InspectingCall → Prop
  | .getIoThrottle _ _ => True
  | .memoryAllocationStatistics pid _ => (env.lookup pid).bind env.taskMm = none
  | .tamalloc _ => ∀ task ∈ env.processes, Project2.counted env task = none
  | .addMemoryLimit processPid memoryLimit =>
      (processPid.toInt ≤ 0 ∨ memoryLimit ≤ 0) ∨ env.capable = false

/-- A call that is entered outside any section keeps to the rules exactly when
it neither puts an address space nor looks a pid up for a new limit. -/
theorem call_disciplined_iff (env : Environment) (machine : Machine) {counters : Counters}
    (outside : counters .rcuReadSide = 0) (call : InspectingCall) :
    Disciplined env call.body (machine, counters) ↔ call.KeepsRules env := by
  cases call with
  | getIoThrottle pid userStats =>
      exact iff_of_true (disciplined_getIoThrottle env machine pid userStats outside) trivial
  | memoryAllocationStatistics pid info =>
      exact disciplined_memoryAllocationStatistics env machine pid info outside
  | tamalloc info => exact disciplined_tamalloc env machine info outside
  | addMemoryLimit processPid memoryLimit =>
      exact disciplined_addMemoryLimit env machine processPid memoryLimit outside

theorem call_disciplined_on_missing_pid :
    Disciplined (.quiet 7) (InspectingCall.memoryAllocationStatistics 8 0).body
      (.boot fun _ => 0, 0) :=
  (call_disciplined_iff (.quiet 7) (.boot fun _ => 0) rfl _).mpr rfl

/-- On a machine with one ordinary process, a report on it, the totals and a
limit for it each break the rules. -/
theorem calls_break_rules :
    ¬ Disciplined (.quiet 7) (InspectingCall.memoryAllocationStatistics 7 0).body
        (.boot fun _ => 0, 0) ∧
      ¬ Disciplined (.quiet 7) (InspectingCall.tamalloc 0).body (.boot fun _ => 0, 0) ∧
      ¬ Disciplined (.quiet 7) (InspectingCall.addMemoryLimit 7 8192).body
        (.boot fun _ => 0, 0) := by
  refine ⟨?_, ?_, ?_⟩
  · rw [InspectingCall.body, disciplined_memoryAllocationStatistics _ _ _ _ rfl]
    decide
  · rw [InspectingCall.body, disciplined_tamalloc _ _ _ rfl]
    decide
  · rw [InspectingCall.body, disciplined_addMemoryLimit _ _ _ _ rfl]
    decide

end UsacSyscalls.Inspection
