import UsacSyscalls.Kernel.Operations

/-!
Contract: the per-process and the global memory report, statement by statement.

Owns `memory_allocation_statistics` and `tamalloc`, the conversions of page
counts they make, and what each call copies to its caller as a function of the
environment.

Does not own the comparison of the two reports; that is `Agreement`.
-/

set_option autoImplicit false

namespace UsacSyscalls.Project2

open UsacSyscalls.Foundation
open UsacSyscalls.Kernel

/-! ### Page conversions -/

/-- `(pages * PAGE_SIZE) >> 10` -/
def pagesToKb (pages : UnsignedLong) : UnsignedLong := (pages * pageSize) >>> 10

/-- `(pages * PAGE_SIZE) >> 20` -/
def pagesToMb (pages : UnsignedLong) : UnsignedLong := (pages * pageSize) >>> 20

/-- The division is made on 64 bits and its result stored in an
`unsigned int`. -/
def rssPercentOfVm (vmKb rssKb : UnsignedLong) : Syscall (BitVec 32) :=
  if vmKb > 0 then do
    let quotient ← divide (rssKb * 100) vmKb
    pure (quotient.setWidth 32)
  else pure 0

/-- The value that is stored. -/
def percentage (vmKb rssKb : UnsignedLong) : BitVec 32 := (rssKb * 100 / vmKb).setWidth 32

/-! ### `memory_allocation_statistics`

Offsets in `struct tamalloc_proc_info`: `vm_kb` 0, `rss_kb` 8,
`rss_percent_of_vm` 16, `oom_adjustment` 20. -/

def memoryAllocationStatistics (pid : PidT) (info : Nat) : Syscall Int := do
  let uninitialised ← stackSlot .kinfo
  rcuReadLock
  let found ← findVpid pid
  match ← pidTask found with
  | none => do
      rcuReadUnlock
      pure (-esrch)
  | some task => do
      match ← getTaskMm task with
      | none => do
          rcuReadUnlock
          pure (-einval)
      | some mm => do
          let vmKb := pagesToKb (← totalVm (some mm))
          let kinfo := setField uninitialised 0 8 vmKb
          let rssKb := pagesToKb (← getMmRss (some mm))
          let kinfo := setField kinfo 8 8 rssKb
          let kinfo := setField kinfo 16 4 (← rssPercentOfVm vmKb rssKb)
          let adjustment ← oomScoreAdj task
          let kinfo := setField kinfo 20 4 (adjustment.signExtend 32)
          mmput mm
          rcuReadUnlock
          copyOut info (kinfo.load 0 sizeofTamallocProcInfo)

/-! ### `tamalloc` -/

structure TamallocGlobalInfo where
  aggregateVmMb : UnsignedLong
  aggregateRssMb : UnsignedLong
deriving DecidableEq, Repr

/-- The loop of `tamalloc` over the processes that are left. -/
def aggregate : List TaskRef → TamallocGlobalInfo → Syscall TamallocGlobalInfo
  | [], kinfo => pure kinfo
  | task :: rest, kinfo => do
      if (← exitState task) = exitZombie then aggregate rest kinfo
      else
        match ← getTaskMm task with
        | none => aggregate rest kinfo
        | some mm => do
            let vm ← totalVm (some mm)
            let kinfo := { kinfo with aggregateVmMb := kinfo.aggregateVmMb + pagesToMb vm }
            let rss ← getMmRss (some mm)
            let kinfo := { kinfo with aggregateRssMb := kinfo.aggregateRssMb + pagesToMb rss }
            mmput mm
            aggregate rest kinfo

def globalInfoBytes (kinfo : TamallocGlobalInfo) : List Byte :=
  leBytes 8 kinfo.aggregateVmMb.toNat ++ leBytes 8 kinfo.aggregateRssMb.toNat

def tamalloc (info : Nat) : Syscall Int := do
  rcuReadLock
  let processes ← forEachProcess
  let kinfo ← aggregate processes ⟨0, 0⟩
  rcuReadUnlock
  copyOut info (globalInfoBytes kinfo)

/-! ### What is copied -/

def procInfoBytes (mm : MmStruct) (oomScoreAdj : BitVec 16) : List Byte :=
  leBytes 8 (pagesToKb mm.totalVm).toNat ++ leBytes 8 (pagesToKb mm.rss).toNat ++
    leBytes 4 (percentage (pagesToKb mm.totalVm) (pagesToKb mm.rss)).toNat ++
    leBytes 4 (oomScoreAdj.signExtend 32).toNat

theorem procInfoBytes_length (mm : MmStruct) (oomScoreAdj : BitVec 16) :
    (procInfoBytes mm oomScoreAdj).length = sizeofTamallocProcInfo := by
  simp [procInfoBytes, sizeofTamallocProcInfo]

theorem globalInfoBytes_length (kinfo : TamallocGlobalInfo) :
    (globalInfoBytes kinfo).length = sizeofTamallocGlobalInfo := by
  simp [globalInfoBytes, sizeofTamallocGlobalInfo]

/-- The address space a process adds to the totals, if it adds one. -/
def counted (env : Environment) (task : TaskRef) : Option MmStruct :=
  if (env.task task).exitState = exitZombie then none else (env.taskMm task).map env.mm

/-- The totals over the processes, in the order of the walk. -/
def totals (env : Environment) (processes : List TaskRef) : TamallocGlobalInfo where
  aggregateVmMb := ((processes.filterMap (counted env)).map fun mm => pagesToMb mm.totalVm).sum
  aggregateRssMb := ((processes.filterMap (counted env)).map fun mm => pagesToMb mm.rss).sum

section Outcomes

variable (env : Environment) (machine : Machine)

/-- Where nothing is divided the stored value is the one an unguarded division
would have been answered with. -/
theorem complete_rssPercentOfVm (vmKb rssKb : UnsignedLong) :
    complete env (rssPercentOfVm vmKb rssKb) machine = (percentage vmKb rssKb, machine) := by
  unfold rssPercentOfVm
  by_cases mapped : vmKb > 0
  · rw [if_pos mapped]
    rfl
  · have zero : vmKb = 0#64 := by
      apply BitVec.eq_of_toNat_eq
      rw [gt_iff_lt, BitVec.lt_def] at mapped
      exact Nat.eq_zero_of_not_pos mapped
    have nothing : percentage 0#64 rssKb = 0 := by
      unfold percentage
      rw [BitVec.udiv_zero]
      rfl
    rw [if_neg mapped, zero, nothing]
    rfl

theorem complete_memoryAllocationStatistics (pid : PidT) (info : Nat) :
    complete env (memoryAllocationStatistics pid info) machine =
      match env.lookup pid with
      | none => (-esrch, machine)
      | some task =>
          match env.taskMm task with
          | none => (-einval, machine)
          | some mm =>
              complete env (copyOut info
                (procInfoBytes (env.mm mm) (env.task task).oomScoreAdj)) machine := by
  unfold memoryAllocationStatistics
  simp only [Program.run_bind, complete_stackSlot, complete_rcuReadLock, complete_pidTask,
    complete_findVpid_snd, findVpid_bind_lookup]
  cases env.lookup pid with
  | none => simp only [Program.run_bind, complete_rcuReadUnlock, Program.run_pure]
  | some task =>
      simp only [Program.run_bind, complete_getTaskMm]
      cases env.taskMm task with
      | none => simp only [Program.run_bind, complete_rcuReadUnlock, Program.run_pure]
      | some mm =>
          simp only [Program.run_bind, complete_totalVm, complete_getMmRss,
            complete_rssPercentOfVm, complete_oomScoreAdj, complete_mmput, complete_rcuReadUnlock]
          unfold sizeofTamallocProcInfo
          rw [load_setField_append, load_setField_append, load_setField_append,
            load_setField_append]
          rfl

theorem complete_aggregate (processes : List TaskRef) (kinfo : TamallocGlobalInfo) :
    complete env (aggregate processes kinfo) machine =
      (⟨kinfo.aggregateVmMb + (totals env processes).aggregateVmMb,
        kinfo.aggregateRssMb + (totals env processes).aggregateRssMb⟩, machine) := by
  induction processes generalizing kinfo with
  | nil => simp [aggregate, totals]
  | cons task rest inductionHypothesis =>
      unfold aggregate
      simp only [Program.run_bind, complete_exitState]
      by_cases zombie : (env.task task).exitState = exitZombie
      · have skipped : counted env task = none := if_pos zombie
        rw [if_pos zombie]
        simp only [inductionHypothesis, totals, List.filterMap_cons_none skipped]
      · rw [if_neg zombie]
        simp only [Program.run_bind, complete_getTaskMm]
        cases held : env.taskMm task with
        | none =>
            have skipped : counted env task = none := by
              simp [counted, zombie, held]
            simp only [inductionHypothesis, totals, List.filterMap_cons_none skipped]
        | some mm =>
            have added : counted env task = some (env.mm mm) := by
              simp [counted, zombie, held]
            simp only [Program.run_bind, complete_totalVm, complete_getMmRss, complete_mmput,
              inductionHypothesis, totals, List.filterMap_cons_some added, List.map_cons,
              List.sum_cons, BitVec.add_assoc]

theorem complete_tamalloc (info : Nat) :
    complete env (tamalloc info) machine =
      complete env (copyOut info (globalInfoBytes (totals env env.processes))) machine := by
  have fromZero : ∀ total : UnsignedLong, 0 + total = total := BitVec.zero_add
  unfold tamalloc
  simp only [Program.run_bind, complete_rcuReadLock, complete_forEachProcess,
    complete_aggregate, complete_rcuReadUnlock, fromZero]

variable {env} {info : Nat}

theorem complete_memoryAllocationStatistics_of_copies {pid : PidT} {task : TaskRef} {mm : MmRef}
    (found : env.lookup pid = some task) (held : env.taskMm task = some mm)
    (works : env.Copies info sizeofTamallocProcInfo) :
    complete env (memoryAllocationStatistics pid info) machine =
      (0, { machine with
        user := machine.user.store info
          (procInfoBytes (env.mm mm) (env.task task).oomScoreAdj) }) := by
  have copies : env.Copies info
      (procInfoBytes (env.mm mm) (env.task task).oomScoreAdj).length := by
    rwa [procInfoBytes_length]
  rw [complete_memoryAllocationStatistics]
  simp only [found, held, complete_copyOut_of_copies copies]

theorem complete_tamalloc_of_copies (works : env.Copies info sizeofTamallocGlobalInfo) :
    complete env (tamalloc info) machine =
      (0, { machine with
        user := machine.user.store info (globalInfoBytes (totals env env.processes)) }) := by
  have copies : env.Copies info (globalInfoBytes (totals env env.processes)).length := by
    rwa [globalInfoBytes_length]
  rw [complete_tamalloc, complete_copyOut_of_copies copies]

end Outcomes

end UsacSyscalls.Project2
