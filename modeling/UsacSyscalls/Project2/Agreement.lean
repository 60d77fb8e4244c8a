import Mathlib.Data.List.Nodup
import UsacSyscalls.Project2.Syscalls

/-!
Contract: the global memory report against the per-process reports.

Owns the process tables the comparison is about, what a caller reads from each
report, and the result that `tamalloc` delivers the sums of the per-process
figures over the processes whose report succeeds, in whatever order the
process list is walked.

Does not own the size of the rounding error against the pages in use.
-/

set_option autoImplicit false

namespace UsacSyscalls.Project2

open UsacSyscalls.Foundation
open UsacSyscalls.Kernel

/-! ### Conversions -/

theorem pagesToMb_toNat (pages : UnsignedLong) :
    (pagesToMb pages).toNat = (pagesToKb pages).toNat / 1024 := by
  have bytes : (2 : Nat) ^ 20 = 2 ^ 10 * 1024 := rfl
  unfold pagesToMb pagesToKb
  rw [BitVec.toNat_ushiftRight, BitVec.toNat_ushiftRight, Nat.shiftRight_eq_div_pow,
    Nat.shiftRight_eq_div_pow, bytes, Nat.div_div_eq_div_mul]

/-- A wrapping sum is the sum of the values, reduced once. -/
theorem sum_eq_ofNat {bits : Nat} (values : List (BitVec bits)) :
    values.sum = BitVec.ofNat bits (values.map BitVec.toNat).sum := by
  induction values with
  | nil => rfl
  | cons value rest inductionHypothesis =>
      rw [List.sum_cons, inductionHypothesis, List.map_cons, List.sum_cons, BitVec.ofNat_add,
        BitVec.ofNat_toNat, BitVec.setWidth_eq]

theorem sum_perm {bits : Nat} {left right : List (BitVec bits)} (perm : left.Perm right) :
    left.sum = right.sum := by
  rw [sum_eq_ofNat, sum_eq_ofNat, (perm.map BitVec.toNat).sum_nat]

theorem sum_pagesToMb (pages : MmStruct → UnsignedLong) (spaces : List MmStruct) :
    (spaces.map fun mm => pagesToMb (pages mm)).sum =
      BitVec.ofNat 64 (spaces.map fun mm => (pagesToKb (pages mm)).toNat / 1024).sum := by
  rw [sum_eq_ofNat, List.map_map]
  simp only [Function.comp_def, pagesToMb_toNat]

/-! ### Reports -/

/-- What the kernel promises of its process list. -/
structure ProcessTable (env : Environment) : Prop where
  distinct : (env.processes.map fun task => (env.task task).pid).Nodup
  positive : ∀ task ∈ env.processes, 0 < (env.task task).pid.toInt
  zombies : ∀ task ∈ env.processes, (env.task task).exitState = exitZombie →
    (env.task task).mm = none

/-- The code of a `memory_allocation_statistics` call and the two sizes its
caller reads afterwards. -/
structure ProcReport where
  code : Int
  vmKb : UnsignedLong
  rssKb : UnsignedLong
deriving DecidableEq, Repr

def report (env : Environment) (machine : Machine) (pid : PidT) (info : Nat) : ProcReport :=
  let outcome := complete env (memoryAllocationStatistics pid info) machine
  ⟨outcome.1, getField outcome.2.user info 8 64, getField outcome.2.user (info + 8) 8 64⟩

/-- The reports that succeed, one call for each process of the list. -/
def successfulReports (env : Environment) (machines : TaskRef → Machine)
    (infos : TaskRef → Nat) : List ProcReport :=
  (env.processes.map fun task =>
    report env (machines task) (env.task task).pid (infos task)).filter
      fun found => found.code = 0

def sizes (mm : MmStruct) : ProcReport := ⟨0, pagesToKb mm.totalVm, pagesToKb mm.rss⟩

theorem procInfo_sizes (user : ByteMemory) (info : Nat) (mm : MmStruct)
    (oomScoreAdj : BitVec 16) :
    getField (user.store info (procInfoBytes mm oomScoreAdj)) info 8 64 = pagesToKb mm.totalVm ∧
      getField (user.store info (procInfoBytes mm oomScoreAdj)) (info + 8) 8 64 =
        pagesToKb mm.rss := by
  have layout : procInfoBytes mm oomScoreAdj = leBytes 8 (pagesToKb mm.totalVm).toNat ++
      (leBytes 8 (pagesToKb mm.rss).toNat ++
        (leBytes 4 (percentage (pagesToKb mm.totalVm) (pagesToKb mm.rss)).toNat ++
          leBytes 4 (oomScoreAdj.signExtend 32).toNat)) := by
    unfold procInfoBytes
    rw [List.append_assoc, List.append_assoc]
  constructor
  · exact getField_store_member user info 8 (pagesToKb mm.totalVm) [] _ layout rfl
  · exact getField_store_member user info 8 (pagesToKb mm.rss) (leBytes 8 _) _ layout rfl

theorem globalInfo_sizes (user : ByteMemory) (info : Nat) (kinfo : TamallocGlobalInfo) :
    getField (user.store info (globalInfoBytes kinfo)) info 8 64 = kinfo.aggregateVmMb ∧
      getField (user.store info (globalInfoBytes kinfo)) (info + 8) 8 64 =
        kinfo.aggregateRssMb := by
  constructor
  · exact getField_store_member user info 8 kinfo.aggregateVmMb [] _ rfl rfl
  · have layout : globalInfoBytes kinfo = leBytes 8 kinfo.aggregateVmMb.toNat ++
        (leBytes 8 kinfo.aggregateRssMb.toNat ++ []) := by
      rw [List.append_nil]
      rfl
    exact getField_store_member user info 8 kinfo.aggregateRssMb (leBytes 8 _) [] layout rfl

section Table

variable {env : Environment} (table : ProcessTable env) {task : TaskRef}
  (member : task ∈ env.processes)

include table member

theorem lookup_pid : env.lookup (env.task task).pid = some task := by
  cases found : env.lookup (env.task task).pid with
  | none =>
      have absent := List.find?_eq_none.mp found task member
      exact absurd (beq_self_eq_true _) absent
  | some other =>
      have otherMember := List.mem_of_find?_eq_some found
      have matching := List.find?_some found
      have samePid : (env.task other).pid = (env.task task).pid := eq_of_beq matching
      rw [List.inj_on_of_nodup_map table.distinct otherMember member samePid]

theorem counted_eq : counted env task = (env.taskMm task).map env.mm := by
  unfold counted
  by_cases zombie : (env.task task).exitState = exitZombie
  · have noMm : env.taskMm task = none := by
      unfold Environment.taskMm
      rw [table.zombies task member zombie]
      exact ite_self _
    rw [if_pos zombie, noMm]
    rfl
  · rw [if_neg zombie]

theorem report_of_not_counted (machine : Machine) (info : Nat)
    (notCounted : counted env task = none) :
    (report env machine (env.task task).pid info).code = -einval := by
  have noMm : env.taskMm task = none := by
    rw [counted_eq table member] at notCounted
    exact Option.map_eq_none_iff.mp notCounted
  have outcome := complete_memoryAllocationStatistics env machine (env.task task).pid info
  simp only [lookup_pid table member, noMm] at outcome
  unfold report
  rw [outcome]

/-- A process that `tamalloc` counts reports its sizes. -/
theorem report_of_counted (machine : Machine) {info : Nat} {mm : MmStruct}
    (works : env.Copies info sizeofTamallocProcInfo) (isCounted : counted env task = some mm) :
    report env machine (env.task task).pid info = sizes mm := by
  obtain ⟨held, found, rfl⟩ : ∃ held, env.taskMm task = some held ∧ env.mm held = mm := by
    rw [counted_eq table member] at isCounted
    exact Option.map_eq_some_iff.mp isCounted
  have outcome := complete_memoryAllocationStatistics_of_copies machine (lookup_pid table member)
    found works
  obtain ⟨vmKb, rssKb⟩ := procInfo_sizes machine.user info (env.mm held)
    (env.task task).oomScoreAdj
  unfold report sizes
  rw [outcome]
  simp only [vmKb, rssKb]

end Table

theorem successfulReports_eq {env : Environment} (table : ProcessTable env)
    (machines : TaskRef → Machine) {infos : TaskRef → Nat}
    (works : ∀ task ∈ env.processes, env.Copies (infos task) sizeofTamallocProcInfo) :
    successfulReports env machines infos = (env.processes.filterMap (counted env)).map sizes := by
  have walk : ∀ tasks : List TaskRef, (∀ task ∈ tasks, task ∈ env.processes) →
      ((tasks.map fun task => report env (machines task) (env.task task).pid
        (infos task)).filter fun found => found.code = 0) =
          (tasks.filterMap (counted env)).map sizes := by
    intro tasks inTable
    induction tasks with
    | nil => rfl
    | cons task rest inductionHypothesis =>
        have member := inTable task List.mem_cons_self
        have tail := inductionHypothesis fun other inRest =>
          inTable other (List.mem_cons_of_mem _ inRest)
        cases isCounted : counted env task with
        | none =>
            have failed := report_of_not_counted table member (machines task) (infos task) isCounted
            rw [List.map_cons, List.filter_cons_of_neg (by rw [failed]; decide),
              List.filterMap_cons_none isCounted, tail]
        | some mm =>
            have found := report_of_counted table member (machines task) (works task member)
              isCounted
            rw [List.map_cons, List.filter_cons_of_pos (by rw [found]; rfl),
              List.filterMap_cons_some isCounted, List.map_cons, tail, found]
  exact walk env.processes fun _ member => member

theorem totals_perm (env : Environment) {left right : List TaskRef} (perm : left.Perm right) :
    totals env left = totals env right := by
  have countedPerm := perm.filterMap (counted env)
  unfold totals
  rw [sum_perm (countedPerm.map _), sum_perm (countedPerm.map _)]

/-- `tamalloc` delivers, modulo `2 ^ 64`, the sums of the per-process sizes in
whole megabytes over exactly the processes whose own report succeeds. All other
reports fail with `-EINVAL` or `-ESRCH`, and the order of the process list does
not matter. The reports may be made from any machines and to any addresses that
can be written. -/
theorem tamalloc_agrees_with_reports (env : Environment) (table : ProcessTable env)
    (machine : Machine) (info : Nat) (machines : TaskRef → Machine) (infos : TaskRef → Nat)
    (globalWorks : env.Copies info sizeofTamallocGlobalInfo)
    (works : ∀ task ∈ env.processes, env.Copies (infos task) sizeofTamallocProcInfo) :
    let outcome := complete env (tamalloc info) machine
    let reports := successfulReports env machines infos
    outcome.1 = 0 ∧
      getField outcome.2.user info 8 64 =
        BitVec.ofNat 64 (reports.map fun found => found.vmKb.toNat / 1024).sum ∧
      getField outcome.2.user (info + 8) 8 64 =
        BitVec.ofNat 64 (reports.map fun found => found.rssKb.toNat / 1024).sum ∧
      (∀ task ∈ env.processes,
        (report env (machines task) (env.task task).pid (infos task)).code ∈
          [0, -einval, -esrch]) ∧
      ∀ order : List TaskRef, order.Perm env.processes →
        complete { env with processes := order } (tamalloc info) machine = outcome := by
  intro outcome reports
  have delivered : outcome = (0, { machine with
      user := machine.user.store info (globalInfoBytes (totals env env.processes)) }) :=
    complete_tamalloc_of_copies machine globalWorks
  obtain ⟨vmMb, rssMb⟩ := globalInfo_sizes machine.user info (totals env env.processes)
  have succeeded : reports = (env.processes.filterMap (counted env)).map sizes :=
    successfulReports_eq table machines works
  refine ⟨?_, ?_, ?_, ?_, ?_⟩
  · rw [delivered]
  · rw [delivered, succeeded, vmMb, List.map_map]
    exact sum_pagesToMb MmStruct.totalVm _
  · rw [delivered, succeeded, rssMb, List.map_map]
    exact sum_pagesToMb MmStruct.rss _
  · intro task member
    cases isCounted : counted env task with
    | none =>
        rw [report_of_not_counted table member (machines task) (infos task) isCounted]
        decide
    | some mm =>
        rw [report_of_counted table member (machines task) (works task member) isCounted]
        exact List.mem_cons_self
  · intro order perm
    have sameTotals : totals { env with processes := order } order = totals env env.processes :=
      totals_perm env perm
    have permuted := complete_tamalloc { env with processes := order } machine info
    rw [permuted, sameTotals, complete_copyOut]
    exact ((complete_tamalloc env machine info).trans (complete_copyOut env machine _ _)).symm

/-- Two processes of 2000 pages next to a zombie. -/
def twoAndZombie : Environment :=
  { Environment.quiet 7 with
    processes := [1, 2, 3]
    task := fun task =>
      ⟨BitVec.ofNat 32 task, if task = 3 then exitZombie else 0, false,
        if task = 3 then none else some task, ⟨0, 0, 0, 0, 0, 0⟩, 0⟩
    mm := fun _ => ⟨2000, 600⟩ }

theorem twoAndZombie_table : ProcessTable twoAndZombie :=
  ⟨by decide, by decide, by decide⟩

theorem tamalloc_agrees_for_two_and_zombie :
    let outcome := complete twoAndZombie (tamalloc 4096) (.boot fun _ => 0)
    let reports := successfulReports twoAndZombie (fun _ => .boot fun _ => 0) (fun _ => 8192)
    reports = [⟨0, 8000, 2400⟩, ⟨0, 8000, 2400⟩] ∧
      getField outcome.2.user 4096 8 64 = (14 : UnsignedLong) := by
  have agrees := tamalloc_agrees_with_reports twoAndZombie twoAndZombie_table (.boot fun _ => 0)
    4096 (fun _ => .boot fun _ => 0) (fun _ => 8192) ⟨by decide, rfl⟩
    (fun _ _ => ⟨by decide, rfl⟩)
  have reports : successfulReports twoAndZombie (fun _ => .boot fun _ => 0) (fun _ => 8192) =
      [⟨0, 8000, 2400⟩, ⟨0, 8000, 2400⟩] := by decide
  refine ⟨reports, agrees.2.1.trans ?_⟩
  rw [reports]
  decide

end UsacSyscalls.Project2
