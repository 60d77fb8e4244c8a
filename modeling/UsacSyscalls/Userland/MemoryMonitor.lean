import Mathlib.Data.List.Perm.Basic
import UsacSyscalls.Foundation.Interruption
import UsacSyscalls.Userland.MemoryTable

/-!
Contract: `202000173_test_tamalloc.c`, the program that shows the memory totals
of the system once a second until it is interrupted.

Owns the program with its signal handler, the screens of any number of
refreshes, what an interruption at any operation leaves behind, and the
agreement of the totals with the table of `MemoryTable` while the processes do
not change.

Does not own the totals themselves; these are `Project2.totals`.
-/

set_option autoImplicit false

namespace UsacSyscalls.Userland

open UsacSyscalls.Foundation
open UsacSyscalls.Kernel
open UsacSyscalls.Project1
open UsacSyscalls.Project2

/-! ### The program -/

def screenRule : String :=
  "\x1b[1;34m==================================================================\x1b[0m\n"

def screenTitle : String :=
  "\x1b[1;36m                      MONITOREO DE MEMORIA                        \x1b[0m\n"

def figureText (label : String) (megabytes : UnsignedLong) : String :=
  "\x1b[1;37m| " ++ padRight 36 label ++ " | \x1b[1;32m" ++
    padRight 20 (toString megabytes.toNat) ++ " MB\x1b[1;37m |\x1b[0m\n"

def tamallocGetGlobalStats (info : UnsignedLong) : User Int := syscall 550 ⟨info, 0, 0⟩

def printGlobalInfo (info : Nat) : User Unit := do
  printf screenRule
  printf screenTitle
  printf screenRule
  let aggregateVmMb ← load info 8 64
  printf (figureText "vmSize" aggregateVmMb)
  let aggregateRssMb ← load (info + 8) 8 64
  printf (figureText "vmRSS" aggregateRssMb)
  printf screenRule

def clearScreen : String := "\x1b[H\x1b[J"
def globalStatsFailed : String := "tamalloc_get_global_stats syscall"

/-- The `while (1)` of `main`, for a number of refreshes. -/
def monitorLoop (info : UnsignedLong) : Nat → User (Option Int)
  | 0 => pure none
  | refreshes + 1 => do
      let ret ← tamallocGetGlobalStats info
      if ret < 0 then do
        perror globalStatsFailed
        pure (some 1)
      else do
        printf clearScreen
        printGlobalInfo info.toNat
        idle (.usleep 1000000)
        monitorLoop info refreshes

def monitorMain (info : UnsignedLong) (refreshes : Nat) : User (Option Int) := do
  idle .signal
  monitorLoop info refreshes

def terminatedText : String :=
  "\n\x1b[1;31m[TERMINADO]\x1b[0m Monitoreo de memoria interrumpido.\n"

/-- `signal_handler`, which ends the process with `exit(0)`. -/
def signalHandler : User (Option Int) := do
  printf terminatedText
  pure (some 0)

/-- `main` with a `SIGINT` after `steps` operations. The handler is in place
from the first operation on. -/
def interruptedMain (info : UnsignedLong) (refreshes steps : Nat) : User (Option Int) :=
  Program.interrupted steps (monitorMain info refreshes) signalHandler

/-! ### One refresh -/

def totalsAt (world : World) (time : Nat) : TamallocGlobalInfo :=
  totals (world.moment time).env (world.moment time).env.processes

def screen (info : TamallocGlobalInfo) : List Event :=
  [.printed clearScreen, .printed screenRule, .printed screenTitle, .printed screenRule,
    .printed (figureText "vmSize" info.aggregateVmMb),
    .printed (figureText "vmRSS" info.aggregateRssMb),
    .printed screenRule, .idled (.usleep 1000000)]

/-- The screens of `refreshes` from the syscall `start` on. -/
def screens (world : World) (start refreshes : Nat) : List Event :=
  (List.range' start refreshes).flatMap fun time => screen (totalsAt world time)

section Refresh

variable {world : World} {process : Process} {info : UnsignedLong}

abbrev totalsBuffer (info : UnsignedLong) : Region := ⟨info.toNat, sizeofTamallocGlobalInfo⟩

/-- The process after a refresh. -/
def refreshed (world : World) (info : UnsignedLong) (process : Process) : Process :=
  (afterStats world (.tamalloc info.toNat) process).shown (screen (totalsAt world process.calls))

theorem advanced_globalStats :
    Advanced (totalsBuffer info) [] 1 process (afterStats world (.tamalloc info.toNat) process) :=
  advanced_afterStats (.tamalloc info.toNat)

theorem advanced_refreshed :
    Advanced (totalsBuffer info) (screen (totalsAt world process.calls)) 1 process
      (refreshed world info process) :=
  advanced_globalStats.trans (.shown _ _)

theorem behaves_printGlobalInfo {kinfo : TamallocGlobalInfo}
    (room : process.Mapped info.toNat sizeofTamallocGlobalInfo)
    (vm : getField process.user info.toNat 8 64 = kinfo.aggregateVmMb)
    (rss : getField process.user (info.toNat + 8) 8 64 = kinfo.aggregateRssMb) :
    Behaves world (printGlobalInfo info.toNat) process ()
      (process.shown [.printed screenRule, .printed screenTitle, .printed screenRule,
        .printed (figureText "vmSize" kinfo.aggregateVmMb),
        .printed (figureText "vmRSS" kinfo.aggregateRssMb), .printed screenRule]) := by
  obtain ⟨region, member, lower, upper⟩ := room
  have size : sizeofTamallocGlobalInfo = 16 := rfl
  have first : ∀ events, (process.shown events).Mapped info.toNat 8 := by
    intro events
    exact ⟨region, member, lower, by omega⟩
  have second : ∀ events, (process.shown events).Mapped (info.toNat + 8) 8 := by
    intro events
    exact ⟨region, member, by omega, by omega⟩
  unfold printGlobalInfo
  apply Program.Runs.bind (behaves_printf _)
  apply Program.Runs.bind (behaves_printf _)
  apply Program.Runs.bind (behaves_printf _)
  rw [Process.shown_shown, Process.shown_shown]
  apply Program.Runs.bind (behaves_load (first _))
  rw [Process.shown_user, vm]
  apply Program.Runs.bind (behaves_printf _)
  rw [Process.shown_shown]
  apply Program.Runs.bind (behaves_load (second _))
  rw [Process.shown_user, rss]
  apply Program.Runs.bind (behaves_printf _)
  apply (behaves_printf _).ends
  rw [Process.shown_shown, Process.shown_shown]
  rfl

/-- The syscall of a refresh succeeds, and the totals of its moment are shown. -/
theorem behaves_globalStats
    (held : LocalVariable world process info.toNat sizeofTamallocGlobalInfo) :
    Behaves world (tamallocGetGlobalStats info) process 0
        (afterStats world (.tamalloc info.toNat) process) ∧
      Behaves world (printGlobalInfo info.toNat)
        ((afterStats world (.tamalloc info.toNat) process).shown [.printed clearScreen]) ()
        ((afterStats world (.tamalloc info.toNat) process).shown
          (screen (totalsAt world process.calls)).dropLast) := by
  have entry : syscallTable.lookup 550 = some .tamalloc := rfl
  have invoked : Entry.tamalloc.invocation ⟨info, 0, 0⟩ =
      .machine (.stats (.tamalloc info.toNat)) := rfl
  have outcome := complete_tamalloc_of_copies process.system.machine (held.copies process.calls)
  obtain ⟨run, stored⟩ := behaves_stats_ok entry invoked outcome
  obtain ⟨vm, rss⟩ := globalInfo_sizes process.user info.toNat (totalsAt world process.calls)
  have asked : Advanced (totalsBuffer info) [] 1 process
      (afterStats world (.tamalloc info.toNat) process) := advanced_globalStats
  have room : ((afterStats world (.tamalloc info.toNat) process).shown
      [.printed clearScreen]).Mapped info.toNat sizeofTamallocGlobalInfo :=
    (held.advance asked).mapped
  have shows : Behaves world (printGlobalInfo info.toNat) _ () _ := behaves_printGlobalInfo room
    ((congrArg (getField · info.toNat 8 64) stored).trans vm)
    ((congrArg (getField · (info.toNat + 8) 8 64) stored).trans rss)
  rw [Process.shown_shown] at shows
  exact ⟨run, shows⟩

theorem behaves_refresh
    (held : LocalVariable world process info.toNat sizeofTamallocGlobalInfo)
    {refreshes : Nat} {value : Option Int} {after : Process}
    (rest : Behaves world (monitorLoop info refreshes) (refreshed world info process) value
      after) :
    Behaves world (monitorLoop info (refreshes + 1)) process value after := by
  obtain ⟨asks, shows⟩ := behaves_globalStats held
  unfold monitorLoop
  apply Program.Runs.bind asks
  rw [if_neg (Int.lt_irrefl 0)]
  apply Program.Runs.bind (behaves_printf _)
  apply Program.Runs.bind shows
  apply Program.Runs.bind (behaves_idle _)
  rw [Process.shown_shown]
  exact rest

/-- A refresh performs at least its syscall. -/
theorem lasts_refresh
    (held : LocalVariable world process info.toNat sizeofTamallocGlobalInfo)
    {refreshes steps : Nat}
    (rest : Program.Lasts (userland world) steps (monitorLoop info refreshes)
      (refreshed world info process)) :
    Program.Lasts (userland world) (steps + 1) (monitorLoop info (refreshes + 1)) process := by
  obtain ⟨asks, shows⟩ := behaves_globalStats held
  have replied : userland world (.syscall 550 ⟨info, 0, 0⟩) process =
      (0, afterStats world (.tamalloc info.toNat) process) := asks.outcome_eq
  unfold monitorLoop
  apply Program.Lasts.perform_bind
  rw [replied, if_neg (Int.lt_irrefl 0)]
  apply Program.Lasts.bind (behaves_printf _).outcome_eq
  apply Program.Lasts.bind shows.outcome_eq
  apply Program.Lasts.bind (behaves_idle _).outcome_eq
  rw [Process.shown_shown]
  exact rest

end Refresh

/-! ### Any number of refreshes -/

section Loop

variable {world : World} {info : UnsignedLong}

theorem screens_succ (start refreshes : Nat) :
    screens world start (refreshes + 1) =
      screen (totalsAt world start) ++ screens world (start + 1) refreshes := by
  unfold screens
  rw [List.range'_succ, List.flatMap_cons]

theorem monitorLoop_runs (refreshes : Nat) (process : Process)
    (held : LocalVariable world process info.toNat sizeofTamallocGlobalInfo) :
    ∃ after, Behaves world (monitorLoop info refreshes) process none after ∧
      Advanced (totalsBuffer info) (screens world process.calls refreshes) refreshes process
        after := by
  induction refreshes generalizing process with
  | zero =>
      refine ⟨process, Program.Runs.pure none, ?_⟩
      exact ⟨(List.append_nil _).symm, rfl, rfl, fun _ _ => rfl⟩
  | succ refreshes inductionHypothesis =>
      have first : Advanced (totalsBuffer info) _ 1 process (refreshed world info process) :=
        advanced_refreshed
      obtain ⟨after, run, later⟩ := inductionHypothesis _ (held.advance first)
      refine ⟨after, behaves_refresh held run, ?_⟩
      have both := first.trans later
      rw [first.calls, ← screens_succ, Nat.add_comm 1] at both
      exact both

theorem monitorLoop_lasts (refreshes : Nat) (process : Process)
    (held : LocalVariable world process info.toNat sizeofTamallocGlobalInfo) :
    Program.Lasts (userland world) refreshes (monitorLoop info refreshes) process := by
  induction refreshes generalizing process with
  | zero => trivial
  | succ refreshes inductionHypothesis =>
      apply lasts_refresh held
      exact inductionHypothesis _ (held.advance advanced_refreshed)

/-- However long it runs, the program does not return, and every refresh shows
the totals of the process list at its own syscall. -/
theorem monitorMain_shows_totals {process : Process} (refreshes : Nat)
    (held : LocalVariable world process info.toNat sizeofTamallocGlobalInfo) :
    ∃ after, Behaves world (monitorMain info refreshes) process none after ∧
      Advanced (totalsBuffer info) (.idled .signal :: screens world process.calls refreshes)
        refreshes process after := by
  have installed : Advanced (totalsBuffer info) [.idled .signal] 0 process
      (process.shown [.idled .signal]) := .shown _ _
  obtain ⟨after, run, advanced⟩ := monitorLoop_runs refreshes _ (held.advance installed)
  have whole := installed.trans advanced
  rw [Nat.zero_add] at whole
  exact ⟨after, Program.Runs.bind (behaves_idle _) run, whole⟩

theorem monitorMain_shows_two_screens :
    ∃ after, Behaves threeListed (monitorMain 0x1100 2) onePage none after ∧
      after.log = .idled .signal :: (screen ⟨14, 4⟩ ++ screen ⟨14, 4⟩) := by
  have held : LocalVariable threeListed onePage (0x1100 : UnsignedLong).toNat
    sizeofTamallocGlobalInfo := onePage_variable (by decide)
  have figures : ∀ time, totalsAt threeListed time = ⟨14, 4⟩ := by
    intro time
    show totals twoAndZombie twoAndZombie.processes = ⟨14, 4⟩
    decide
  obtain ⟨after, run, advanced⟩ := monitorMain_shows_totals 2 held
  refine ⟨after, run, advanced.log.trans ?_⟩
  simp only [screens, figures]
  rfl

/-! ### Interruption -/

/-- What was shown earlier is still shown. -/
def Extends (earlier later : Process) : Prop := earlier.log <+: later.log

theorem Extends.refl (process : Process) : Extends process process := List.prefix_rfl

theorem Extends.trans {first second third : Process} (early : Extends first second)
    (late : Extends second third) : Extends first third :=
  List.IsPrefix.trans early late

theorem extends_operation (operation : UserOp) (process : Process) :
    Extends process (userland world operation process).2 := by
  cases operation with
  | syscall number registers =>
      unfold userland
      simp only
      split
      · exact List.prefix_rfl
      · exact List.prefix_rfl
  | opendir name =>
      unfold userland
      simp only
      split
      · exact List.prefix_rfl
      · exact List.prefix_rfl
  | passInt value => exact List.prefix_rfl
  | load address width bits => exact List.prefix_rfl
  | store address bytes => exact List.prefix_rfl
  | printf text => exact List.prefix_append _ _
  | perror message => exact List.prefix_append _ _
  | getpid => exact List.prefix_rfl
  | rand => exact List.prefix_rfl
  | readdir => exact List.prefix_rfl
  | idle call => exact List.prefix_append _ _

/-- A `SIGINT` ends the program with status 0 at whatever operation it arrives,
once the handler is installed: the screens shown so far are those of the
uninterrupted program, cut off at that operation, and the message of the handler
follows them. -/
theorem interruptedMain_exits {process : Process} {refreshes steps : Nat}
    (held : LocalVariable world process info.toNat sizeofTamallocGlobalInfo)
    (running : steps < refreshes) :
    ∃ after shown, Behaves world (interruptedMain info refreshes (steps + 1)) process (some 0)
        after ∧
      shown <+: screens world process.calls refreshes ∧
      after.log = process.log ++ (.idled .signal :: shown ++ [.printed terminatedText]) := by
  have installed : Advanced (totalsBuffer info) [.idled .signal] 0 process
      (process.shown [.idled .signal]) := .shown _ _
  have ready := held.advance installed
  obtain ⟨last, run, advanced⟩ := monitorLoop_runs refreshes _ ready
  have lasts := (monitorLoop_lasts refreshes _ ready).of_le running
  -- The process at the operation before which the signal arrives.
  let stopped := (Program.run (userland world) (Program.cut steps (monitorLoop info refreshes))
    (process.shown [.idled .signal])).2
  have since : Extends (process.shown [.idled .signal]) stopped :=
    Program.run_related Extends.refl Extends.trans extends_operation _ _
  have upTo : Extends stopped (Program.run (userland world) (monitorLoop info refreshes)
      (process.shown [.idled .signal])).2 :=
    Program.run_cut_related Extends.refl Extends.trans extends_operation _ _ _
  obtain ⟨shown, extended⟩ := since
  refine ⟨stopped.shown [.printed terminatedText], shown, ?_, ?_, ?_⟩
  · apply Program.Runs.interrupted (Program.Runs.bind (behaves_idle _) run).throughout
      (Program.Lasts.perform_bind lasts)
    exact Program.Runs.bind (behaves_printf _) (Program.Runs.pure _)
  · unfold Extends at upTo
    rw [← extended, run.outcome_eq, advanced.log] at upTo
    exact (List.prefix_append_right_inj _).mp upTo
  · show stopped.log ++ _ = _
    rw [← extended]
    simp [Process.shown]

/-- The signal arrives after the first `printf` of the first refresh. -/
theorem interruptedMain_exits_on_first_screen :
    ∃ after shown, Behaves threeListed (interruptedMain 0x1100 3 3) onePage (some 0) after ∧
      shown <+: screens threeListed 0 3 ∧
      after.log = [] ++ (.idled .signal :: shown ++ [.printed terminatedText]) := by
  have held : LocalVariable threeListed onePage (0x1100 : UnsignedLong).toNat
    sizeofTamallocGlobalInfo := onePage_variable (by decide)
  exact interruptedMain_exits held (by decide)

end Loop

/-! ### The totals against the table -/

/-- The directory that `/proc` has for a process. -/
def procEntry (pid : PidT) : Dirent := ⟨dtDir, decimal pid.toNat⟩

def isProcess (entry : Dirent) : Bool := entry.dType = dtDir && isNumeric entry.dName

/-- The processes do not change, and `/proc` lists each of them once among
entries that stand for no process. -/
structure Frozen (world : World) (env : Environment) (entries : List Dirent) : Prop where
  still : ∀ time, (world.moment time).env = env
  directory : world.directory = .ok entries
  table : ProcessTable env
  listing : (entries.filter isProcess).Perm
    (env.processes.map fun task => procEntry (env.task task).pid)

/-- The row of a task, if it has an address space. -/
def taskRow (env : Environment) (task : TaskRef) : Option (PidT × ProcInfo) :=
  (env.taskMm task).map fun mm =>
    ((env.task task).pid, infoOf (env.mm mm) (env.task task).oomScoreAdj)

/-- The figures of a table in whole megabytes, added up. -/
def summed (rows : List (PidT × ProcInfo)) : TamallocGlobalInfo where
  aggregateVmMb := BitVec.ofNat 64 (rows.map fun row => row.2.vmKb.toNat / 1024).sum
  aggregateRssMb := BitVec.ofNat 64 (rows.map fun row => row.2.rssKb.toNat / 1024).sum

theorem listedPid_procEntry {pid : PidT} (positive : 0 < pid.toInt) :
    listedPid (procEntry pid) = some pid := by
  have bound := pid.isLt
  have numeric : isNumeric (decimal pid.toNat) = true :=
    List.all_eq_true.mpr fun _ => isDigit_of_mem_decimal
  have value : atoi (decimal pid.toNat) = pid := by
    unfold atoi
    rw [strtol_decimal (by omega), BitVec.ofInt_natCast, BitVec.ofNat_toNat, BitVec.setWidth_eq]
  unfold listedPid procEntry
  rw [value, if_pos ⟨rfl, numeric, positive⟩]

theorem listedPid_of_not_process {entry : Dirent} (other : isProcess entry = false) :
    listedPid entry = none := by
  unfold listedPid
  apply if_neg
  rintro ⟨directory, numeric, -⟩
  simp [isProcess, directory, numeric] at other

theorem filterMap_listedPid (entries : List Dirent) :
    entries.filterMap listedPid = (entries.filter isProcess).filterMap listedPid := by
  induction entries with
  | nil => rfl
  | cons entry rest inductionHypothesis =>
      cases process : isProcess entry with
      | false =>
          rw [List.filterMap_cons_none (listedPid_of_not_process process),
            List.filter_cons_of_neg (by simp [process]), inductionHypothesis]
      | true =>
          rw [List.filter_cons_of_pos process, List.filterMap_cons, List.filterMap_cons,
            inductionHypothesis]

section Agreement

variable {world : World} {env : Environment} {entries : List Dirent}
  (frozen : Frozen world env entries)

include frozen

theorem listed_perm :
    (entries.filterMap listedPid).Perm (env.processes.map fun task => (env.task task).pid) := by
  have pids : (env.processes.map fun task => procEntry (env.task task).pid).filterMap listedPid =
      env.processes.map fun task => (env.task task).pid := by
    rw [List.filterMap_map, ← List.filterMap_eq_map]
    apply List.filterMap_congr
    intro task member
    exact listedPid_procEntry (frozen.table.positive task member)
  rw [filterMap_listedPid, ← pids]
  exact frozen.listing.filterMap listedPid

theorem rowOf_pid {task : TaskRef} (member : task ∈ env.processes) :
    rowOf env (env.task task).pid = taskRow env task := by
  unfold rowOf statsOf taskRow
  simp only [lookup_pid frozen.table member]
  cases env.taskMm task with
  | none => rfl
  | some mm => rfl

theorem tableRows_perm (start : Nat) :
    (tableRows world start (entries.filterMap listedPid)).Perm
      (env.processes.filterMap (taskRow env)) := by
  have oneMoment : ∀ pids : List PidT,
      tableRows world start pids = pids.filterMap (rowOf env) := by
    intro pids
    have asked : ((pids.zipIdx start).map Prod.fst).filterMap (rowOf env) = _ :=
      List.filterMap_map
    rw [List.zipIdx_map_fst] at asked
    unfold tableRows
    simp only [frozen.still]
    exact asked.symm
  have tasks : (env.processes.map fun task => (env.task task).pid).filterMap (rowOf env) =
      env.processes.filterMap (taskRow env) := by
    rw [List.filterMap_map]
    apply List.filterMap_congr
    intro task member
    exact rowOf_pid frozen member
  rw [oneMoment, ← tasks]
  exact (listed_perm frozen).filterMap (rowOf env)

omit frozen in
theorem taskRows_pids (tasks : List TaskRef) :
    ((tasks.filterMap (taskRow env)).map Prod.fst).Sublist
      (tasks.map fun task => (env.task task).pid) := by
  induction tasks with
  | nil => exact List.Sublist.refl _
  | cons task rest inductionHypothesis =>
      cases owned : env.taskMm task with
      | none =>
          have skipped : taskRow env task = none := by simp [taskRow, owned]
          rw [List.filterMap_cons_none skipped]
          exact inductionHypothesis.cons _
      | some mm =>
          have shown : taskRow env task = some ((env.task task).pid,
              infoOf (env.mm mm) (env.task task).oomScoreAdj) := by
            simp [taskRow, owned]
          rw [List.filterMap_cons_some shown]
          exact inductionHypothesis.cons_cons _

/-- The same tasks are counted and given a row. -/
theorem totals_eq_summed :
    totals env env.processes = summed (env.processes.filterMap (taskRow env)) := by
  have figures : ∀ (pages : MmStruct → UnsignedLong) (figure : ProcInfo → UnsignedLong),
      (∀ mm adjustment, figure (infoOf mm adjustment) = pagesToKb (pages mm)) →
        ((env.processes.filterMap (counted env)).map fun mm => pagesToMb (pages mm)).sum =
          BitVec.ofNat 64 ((env.processes.filterMap (taskRow env)).map
            fun row => (figure row.2).toNat / 1024).sum := by
    intro pages figure reads
    rw [sum_pagesToMb, List.map_filterMap, List.map_filterMap]
    congr 2
    apply List.filterMap_congr
    intro task member
    rw [counted_eq frozen.table member, taskRow, Option.map_map, Option.map_map]
    apply congrArg (Option.map · _)
    funext mm
    simp only [Function.comp_apply, reads]
  unfold totals summed
  rw [figures MmStruct.totalVm ProcInfo.vmKb fun _ _ => rfl,
    figures MmStruct.rss ProcInfo.rssKb fun _ _ => rfl]

omit frozen in
theorem summed_perm {left right : List (PidT × ProcInfo)} (perm : left.Perm right) :
    summed left = summed right := by
  unfold summed
  rw [(perm.map _).sum_nat, (perm.map _).sum_nat]

end Agreement

/-- While the processes do not change, the table has exactly one row for every
process with an address space, and every screen of the monitor shows the sums of
the figures in the table, each in whole megabytes, modulo `2 ^ 64`. -/
theorem monitor_agrees_with_table {world : World} {env : Environment} {entries : List Dirent}
    (frozen : Frozen world env entries) {arguments : List (List Char)}
    (unargued : argumentPid arguments = 0) {fuel : Nat} (enough : entries.length < fuel)
    {lister watcher : Process} {pinfo info : UnsignedLong}
    (listerHolds : LocalVariable world lister pinfo.toNat sizeofTamallocProcInfo)
    (watcherHolds : LocalVariable world watcher info.toNat sizeofTamallocGlobalInfo)
    (refreshes : Nat) :
    ∃ rows listed watched,
      (rows.map Prod.fst).Nodup ∧
      (∀ row, row ∈ rows ↔ ∃ task ∈ env.processes, ∃ mm, env.taskMm task = some mm ∧
        row = ((env.task task).pid, infoOf (env.mm mm) (env.task task).oomScoreAdj)) ∧
      Behaves world (statisticsMain arguments pinfo fuel) lister (some 0) listed ∧
      listed.log = lister.log ++ (headerEvents ++
        (rows.flatMap (fun row => rowEvents row.1 row.2) ++ [.idled .closedir])) ∧
      Behaves world (monitorMain info refreshes) watcher none watched ∧
      watched.log = watcher.log ++
        (.idled .signal :: (List.replicate refreshes (screen (summed rows))).flatten) := by
  have perm := tableRows_perm frozen lister.calls
  obtain ⟨listed, lists, shown⟩ := statisticsMain_of_listing unargued frozen.directory enough
    listerHolds
  have installed : Advanced (totalsBuffer info) [.idled .signal] 0 watcher
      (watcher.shown [.idled .signal]) := .shown _ _
  obtain ⟨watched, watches, screened⟩ := monitorLoop_runs refreshes _
    (watcherHolds.advance installed)
  refine ⟨_, listed, watched, ?_, ?_, lists, shown.log, Program.Runs.bind (behaves_idle _) watches,
    ?_⟩
  · apply (perm.map Prod.fst).nodup_iff.mpr
    exact (taskRows_pids env.processes).nodup frozen.table.distinct
  · intro row
    rw [perm.mem_iff, List.mem_filterMap]
    constructor
    · rintro ⟨task, member, found⟩
      obtain ⟨mm, owned, same⟩ := Option.map_eq_some_iff.mp found
      exact ⟨task, member, mm, owned, same.symm⟩
    · rintro ⟨task, member, mm, owned, rfl⟩
      exact ⟨task, member, Option.map_eq_some_iff.mpr ⟨mm, owned, rfl⟩⟩
  · have same : ∀ time, totalsAt world time =
        summed (tableRows world lister.calls (entries.filterMap listedPid)) := by
      intro time
      unfold totalsAt
      rw [frozen.still, totals_eq_summed frozen, summed_perm perm]
    have repeated : screens world (watcher.shown [.idled .signal]).calls refreshes =
        (List.replicate refreshes (screen
          (summed (tableRows world lister.calls (entries.filterMap listedPid))))).flatten := by
      unfold screens
      simp only [same]
      rw [List.flatMap_def, List.map_const', List.length_range']
    have whole := (installed.trans screened).log
    rw [repeated] at whole
    exact whole

theorem threeListed_frozen : Frozen threeListed twoAndZombie
    [⟨dtDir, ['.', '.']⟩, ⟨dtDir, ['2']⟩, ⟨8, ['4']⟩, ⟨dtDir, ['3']⟩, ⟨dtDir, ['1']⟩] where
  still := fun _ => rfl
  directory := rfl
  table := twoAndZombie_table
  listing := by decide

theorem monitor_agrees_with_table_of_two :
    ∃ rows listed watched,
      (rows.map Prod.fst).Nodup ∧
      Behaves threeListed (statisticsMain [] 0x1100 6) onePage (some 0) listed ∧
      listed.log = headerEvents ++
        (rows.flatMap (fun row => rowEvents row.1 row.2) ++ [.idled .closedir]) ∧
      Behaves threeListed (monitorMain 0x1100 1) onePage none watched ∧
      watched.log = .idled .signal :: screen (summed rows) := by
  have lister : LocalVariable threeListed onePage (0x1100 : UnsignedLong).toNat
    sizeofTamallocProcInfo := onePage_variable (by decide)
  have watcher : LocalVariable threeListed onePage (0x1100 : UnsignedLong).toNat
    sizeofTamallocGlobalInfo := onePage_variable (by decide)
  have unargued : argumentPid [] = 0 := rfl
  obtain ⟨rows, listed, watched, distinct, -, lists, table, watches, screened⟩ :=
    monitor_agrees_with_table threeListed_frozen unargued (by decide : 5 < 6) lister watcher 1
  exact ⟨rows, listed, watched, distinct, lists, table, watches,
    screened.trans (congrArg (_ :: ·) (List.append_nil _))⟩

end UsacSyscalls.Userland
