import UsacSyscalls.Project1.ProcModules
import UsacSyscalls.Project2.Figures
import UsacSyscalls.Userland.Process

/-!
Contract: `202000173_test_memory_allocation_statistics.c`, the program that
prints a table of the memory of one process or of all processes in `/proc`.

Owns the program, the table that a world makes it print, and the result that it
prints this table whatever happens between its queries.

Does not own the comparison of a table with other programs; that is
`MemoryMonitor`.
-/

set_option autoImplicit false

namespace UsacSyscalls.Userland

open UsacSyscalls.Foundation
open UsacSyscalls.Kernel
open UsacSyscalls.Project1
open UsacSyscalls.Project2

/-! ### The program -/

structure ProcInfo where
  vmKb : UnsignedLong
  rssKb : UnsignedLong
  rssPercentOfVm : BitVec 32
  oomAdjustment : BitVec 32
deriving DecidableEq, Repr

def tableRule : String :=
  "\x1b[1;37m__________________________________________________________________\n"

/-- The first line that `body_table` prints; its format is
`%-6d`, `%-15lu`, `%-15lu`, `%-8u`, `%-6d`. -/
def rowText (pid : PidT) (pinfo : ProcInfo) : String :=
  "\x1b[1;37m│ \x1b[1;34m" ++ padRight 6 (toString pid.toInt) ++
    " \x1b[1;37m│ \x1b[1;34m" ++ padRight 15 (toString pinfo.vmKb.toNat) ++
    " \x1b[1;37m│ \x1b[1;34m" ++ padRight 15 (toString pinfo.rssKb.toNat) ++
    " \x1b[1;37m│ \x1b[1;34m" ++ padRight 8 (toString pinfo.rssPercentOfVm.toNat) ++
    " \x1b[1;37m│ \x1b[1;34m" ++ padRight 6 (toString pinfo.oomAdjustment.toInt) ++
    " \x1b[1;37m│\n"

def headerText : String :=
  "\x1b[1;37m│ \x1b[1;31m" ++ padRight 6 "PID" ++
    " \x1b[1;37m│ \x1b[1;31m" ++ padRight 15 "Reserved (KB)" ++
    " \x1b[1;37m│ \x1b[1;31m" ++ padRight 15 "Commited (KB)" ++
    " \x1b[1;37m│ \x1b[1;31m" ++ padRight 8 "Usage (%)" ++
    " \x1b[1;37m│ \x1b[1;31m" ++ padRight 5 "OOM" ++
    " \x1b[1;37m│\n"

def tamallocGetIndiviualStats (pid : PidT) (info : UnsignedLong) : User Int := do
  let register ← passInt pid
  syscall 551 ⟨register, info, 0⟩

def bodyTable (pid : PidT) (pinfo : Nat) : User Unit := do
  let vmKb ← load pinfo 8 64
  let rssKb ← load (pinfo + 8) 8 64
  let rssPercentOfVm ← load (pinfo + 16) 4 32
  let oomAdjustment ← load (pinfo + 20) 4 32
  printf (rowText pid ⟨vmKb, rssKb, rssPercentOfVm, oomAdjustment⟩)
  printf tableRule

def headerTable : User Unit := do
  printf tableRule
  printf headerText
  printf tableRule

/-- The loop over `dname`; a name without characters passes it. -/
def isNumeric (dname : List Char) : Bool := dname.all Char.isDigit

/-- The body of the `readdir` loop. -/
def showEntry (pinfo : UnsignedLong) (entry : Dirent) : User Unit :=
  if entry.dType = dtDir then
    if isNumeric entry.dName then
      let currentPid := atoi entry.dName
      if 0 < currentPid.toInt then do
        let ret ← tamallocGetIndiviualStats currentPid pinfo
        if ret = 0 then bodyTable currentPid pinfo.toNat else pure ()
      else pure ()
    else pure ()
  else pure ()

/-- The loop itself, for at most `fuel` calls of `readdir`. -/
def tableLoop (pinfo : UnsignedLong) : Nat → User Bool
  | 0 => pure false
  | fuel + 1 => do
      match ← readdir with
      | none => pure true
      | some entry => do
          showEntry pinfo entry
          tableLoop pinfo fuel

def argumentPid : List (List Char) → PidT
  | [] => 0
  | argument :: _ => atoi argument

def statsFailed : String := "tamalloc_get_indiviual_stats syscall"
def opendirFailed : String := "No se pudo abrir /proc"

/-- `main` with its arguments after the program's name. Each of its two branches
has a local `pinfo`, and only one of them is taken. -/
def statisticsMain (arguments : List (List Char)) (pinfo : UnsignedLong) (fuel : Nat) :
    User (Option Int) :=
  let pid := argumentPid arguments
  if pid ≠ 0 then do
    let ret ← tamallocGetIndiviualStats pid pinfo
    if ret < 0 then do
      perror statsFailed
      pure (some 1)
    else do
      headerTable
      bodyTable pid pinfo.toNat
      pure (some 0)
  else do
    if ← opendir "/proc" then do
      headerTable
      if ← tableLoop pinfo fuel then do
        idle .closedir
        pure (some 0)
      else pure none
    else do
      perror opendirFailed
      pure (some 1)

/-! ### The table of a world -/

def infoOf (mm : MmStruct) (oomScoreAdj : BitVec 16) : ProcInfo :=
  ⟨pagesToKb mm.totalVm, pagesToKb mm.rss, percentOf mm, oomScoreAdj.signExtend 32⟩

/-- What the kernel tells about a pid, or the number it fails with. -/
def statsOf (env : Environment) (pid : PidT) : Except Int ProcInfo :=
  match env.lookup pid with
  | none => .error esrch
  | some task =>
      match env.taskMm task with
      | none => .error einval
      | some mm => .ok (infoOf (env.mm mm) (env.task task).oomScoreAdj)

theorem statsOf_ok {env : Environment} {pid : PidT} {info : ProcInfo}
    (told : statsOf env pid = .ok info) :
    ∃ task mm, env.lookup pid = some task ∧ env.taskMm task = some mm ∧
      infoOf (env.mm mm) (env.task task).oomScoreAdj = info := by
  unfold statsOf at told
  cases found : env.lookup pid with
  | none =>
      rw [found] at told
      cases told
  | some task =>
      simp only [found] at told
      cases owned : env.taskMm task with
      | none =>
          rw [owned] at told
          cases told
      | some mm =>
          simp only [owned, Except.ok.injEq] at told
          exact ⟨task, mm, rfl, owned, told⟩

theorem statsOf_error {env : Environment} {pid : PidT} {errno : Int}
    (told : statsOf env pid = .error errno) :
    (env.lookup pid = none ∧ errno = esrch) ∨
      ∃ task, env.lookup pid = some task ∧ env.taskMm task = none ∧ errno = einval := by
  unfold statsOf at told
  cases found : env.lookup pid with
  | none =>
      simp only [found, Except.error.injEq] at told
      exact .inl ⟨rfl, told.symm⟩
  | some task =>
      simp only [found] at told
      cases owned : env.taskMm task with
      | none =>
          simp only [owned, Except.error.injEq] at told
          exact .inr ⟨task, rfl, owned, told.symm⟩
      | some mm =>
          simp only [owned] at told
          cases told

/-- The pid that an entry of `/proc` stands for. -/
def listedPid (entry : Dirent) : Option PidT :=
  if entry.dType = dtDir ∧ isNumeric entry.dName ∧ 0 < (atoi entry.dName).toInt then
    some (atoi entry.dName)
  else none

def rowEvents (pid : PidT) (info : ProcInfo) : List Event :=
  [.printed (rowText pid info), .printed tableRule]

def headerEvents : List Event :=
  [.printed tableRule, .printed headerText, .printed tableRule]

/-- The row of a pid in a table made at this moment, if it gets one. -/
def rowOf (env : Environment) (pid : PidT) : Option (PidT × ProcInfo) :=
  (statsOf env pid).toOption.map fun info => (pid, info)

/-- The rows of pids that are asked for one after the other, the first of them
at the syscall `start`. -/
def tableRows (world : World) (start : Nat) (pids : List PidT) : List (PidT × ProcInfo) :=
  (pids.zipIdx start).filterMap fun query => rowOf (world.moment query.2).env query.1

/-- How the program ends, what it shows, and how many pids it asks for. -/
structure TableRun where
  code : Int
  events : List Event
  queries : Nat

/-- The table that the program makes of the world, the first pid being asked for
at the syscall `start`. -/
def tableOf (world : World) (arguments : List (List Char)) (start : Nat) : TableRun :=
  if argumentPid arguments ≠ 0 then
    match statsOf (world.moment start).env (argumentPid arguments) with
    | .error errno => ⟨1, [.failed statsFailed errno], 1⟩
    | .ok info => ⟨0, headerEvents ++ rowEvents (argumentPid arguments) info, 1⟩
  else
    match world.directory with
    | .error errno => ⟨1, [.failed opendirFailed errno], 0⟩
    | .ok entries =>
        ⟨0, headerEvents ++
          ((tableRows world start (entries.filterMap listedPid)).flatMap
            (fun row => rowEvents row.1 row.2) ++ [.idled .closedir]),
          (entries.filterMap listedPid).length⟩

/-! ### One query -/

/-- The structure at `address` holds `info`. -/
structure InfoAt (user : ByteMemory) (address : Nat) (info : ProcInfo) : Prop where
  vmKb : getField user address 8 64 = info.vmKb
  rssKb : getField user (address + 8) 8 64 = info.rssKb
  rssPercentOfVm : getField user (address + 16) 4 32 = info.rssPercentOfVm
  oomAdjustment : getField user (address + 20) 4 32 = info.oomAdjustment

theorem infoAt_stored (user : ByteMemory) (address : Nat) (mm : MmStruct)
    (oomScoreAdj : BitVec 16) :
    InfoAt (user.store address (procInfoBytes mm oomScoreAdj)) address
      (infoOf mm oomScoreAdj) := by
  obtain ⟨vmKb, rssKb⟩ := procInfo_sizes user address mm oomScoreAdj
  have percent : procInfoBytes mm oomScoreAdj =
      (leBytes 8 (pagesToKb mm.totalVm).toNat ++ leBytes 8 (pagesToKb mm.rss).toNat) ++
        (leBytes 4 (percentOf mm).toNat ++ leBytes 4 (oomScoreAdj.signExtend 32).toNat) := by
    unfold procInfoBytes percentOf
    rw [List.append_assoc]
  have adjustment : procInfoBytes mm oomScoreAdj =
      (leBytes 8 (pagesToKb mm.totalVm).toNat ++ leBytes 8 (pagesToKb mm.rss).toNat ++
        leBytes 4 (percentOf mm).toNat) ++
          (leBytes 4 (oomScoreAdj.signExtend 32).toNat ++ []) := by
    rw [List.append_nil]
    rfl
  constructor
  · exact vmKb
  · exact rssKb
  · exact getField_store_member user address 4 (percentOf mm) _ _ percent rfl
  · exact getField_store_member user address 4 (oomScoreAdj.signExtend 32) _ _ adjustment rfl

section Query

variable {world : World} {process : Process} {pid : PidT} {pinfo : UnsignedLong}

/-- The variable that the queries fill. -/
abbrev infoBuffer (pinfo : UnsignedLong) : Region := ⟨pinfo.toNat, sizeofTamallocProcInfo⟩

abbrev afterQuery (world : World) (pid : PidT) (pinfo : UnsignedLong) (process : Process) :
    Process :=
  afterStats world (.memoryAllocationStatistics pid pinfo.toNat) process

theorem query_invocation (upper : BitVec 32) :
    Entry.memoryAllocationStatistics.invocation ⟨upper ++ pid, pinfo, 0⟩ =
      .machine (.stats (.memoryAllocationStatistics pid pinfo.toNat)) := by
  unfold Entry.invocation
  rw [setWidth_passInt]

theorem advanced_query :
    Advanced (infoBuffer pinfo) [] 1 process (afterQuery world pid pinfo process) :=
  advanced_afterStats (.memoryAllocationStatistics pid pinfo.toNat)

theorem behaves_query_ok {info : ProcInfo}
    (held : LocalVariable world process pinfo.toNat sizeofTamallocProcInfo)
    (told : statsOf (world.moment process.calls).env pid = .ok info) :
    Behaves world (tamallocGetIndiviualStats pid pinfo) process 0
        (afterQuery world pid pinfo process) ∧
      InfoAt (afterQuery world pid pinfo process).user pinfo.toNat info := by
  have entry : syscallTable.lookup 551 = some .memoryAllocationStatistics := rfl
  obtain ⟨task, mm, found, owned, rfl⟩ := statsOf_ok told
  have outcome := complete_memoryAllocationStatistics_of_copies process.system.machine
    found owned (held.copies process.calls)
  obtain ⟨run, stored⟩ := behaves_stats_ok entry (query_invocation _) outcome
  constructor
  · exact Program.Runs.bind (behaves_passInt pid) run
  · rw [stored]
    exact infoAt_stored _ _ _ _

theorem behaves_query_error {errno : Int}
    (told : statsOf (world.moment process.calls).env pid = .error errno) :
    Behaves world (tamallocGetIndiviualStats pid pinfo) process (-1)
        (afterQuery world pid pinfo process) ∧
      (afterQuery world pid pinfo process).errno = errno := by
  have entry : syscallTable.lookup 551 = some .memoryAllocationStatistics := rfl
  have outcome := complete_memoryAllocationStatistics (world.moment process.calls).env
    process.system.machine pid pinfo.toNat
  have failed : complete (world.moment process.calls).env
      (memoryAllocationStatistics pid pinfo.toNat) process.system.machine =
        (-errno, process.system.machine) ∧ 0 < errno ∧ errno ≤ 4095 := by
    rcases statsOf_error told with ⟨missing, rfl⟩ | ⟨task, found, unowned, rfl⟩
    · simp only [missing] at outcome
      exact ⟨outcome, by decide, by decide⟩
    · simp only [found, unowned] at outcome
      exact ⟨outcome, by decide, by decide⟩
  obtain ⟨run, number⟩ := behaves_stats_error entry (query_invocation _) failed.1 failed.2.1
    failed.2.2
  exact ⟨Program.Runs.bind (behaves_passInt pid) run, number⟩

theorem behaves_bodyTable {info : ProcInfo}
    (room : process.Mapped pinfo.toNat sizeofTamallocProcInfo)
    (filled : InfoAt process.user pinfo.toNat info) :
    Behaves world (bodyTable pid pinfo.toNat) process () (process.shown (rowEvents pid info)) := by
  obtain ⟨region, member, lower, upper⟩ := room
  have size : sizeofTamallocProcInfo = 24 := rfl
  have inside : ∀ offset width, offset + width ≤ 24 →
      process.Mapped (pinfo.toNat + offset) width := by
    intro offset width fits
    exact ⟨region, member, by omega, by omega⟩
  unfold bodyTable
  apply Program.Runs.bind (behaves_load (inside 0 8 (by decide)))
  apply Program.Runs.bind (behaves_load (inside 8 8 (by decide)))
  apply Program.Runs.bind (behaves_load (inside 16 4 (by decide)))
  apply Program.Runs.bind (behaves_load (inside 20 4 (by decide)))
  rw [filled.rssKb, filled.rssPercentOfVm, filled.oomAdjustment, Nat.add_zero, filled.vmKb]
  have lines : process.shown (rowEvents pid info) =
      (process.shown [.printed (rowText pid info)]).shown [.printed tableRule] := by
    rw [Process.shown_shown]
    rfl
  rw [lines]
  exact Program.Runs.bind (behaves_printf _) (behaves_printf _)

theorem behaves_headerTable :
    Behaves world headerTable process () (process.shown headerEvents) := by
  have lines : process.shown headerEvents =
      ((process.shown [.printed tableRule]).shown [.printed headerText]).shown
        [.printed tableRule] := by
    rw [Process.shown_shown, Process.shown_shown]
    rfl
  rw [lines]
  unfold headerTable
  apply Program.Runs.bind (behaves_printf _)
  exact Program.Runs.bind (behaves_printf _) (behaves_printf _)

end Query

/-! ### The walk over `/proc` -/

section Walk

variable {world : World} {pinfo : UnsignedLong}

/-- The rows that an entry adds at the syscall `time`. -/
def entryEvents (world : World) (time : Nat) (entry : Dirent) : List Event :=
  (tableRows world time (listedPid entry).toList).flatMap fun row => rowEvents row.1 row.2

theorem tableRows_single (time : Nat) (pid : PidT) :
    tableRows world time [pid] = (rowOf (world.moment time).env pid).toList := by
  unfold tableRows
  cases row : rowOf (world.moment time).env pid with
  | none => simp [row]
  | some found => simp [row]

theorem tableRows_append (time : Nat) (first second : List PidT) :
    tableRows world time (first ++ second) =
      tableRows world time first ++ tableRows world (time + first.length) second := by
  unfold tableRows
  rw [List.zipIdx_append, List.filterMap_append]

/-- A step of the walk adds the row of the entry and asks at most once. -/
theorem behaves_showEntry {process : Process} (entry : Dirent)
    (held : LocalVariable world process pinfo.toNat sizeofTamallocProcInfo) :
    ∃ after, Behaves world (showEntry pinfo entry) process () after ∧
      Advanced (infoBuffer pinfo) (entryEvents world process.calls entry)
        (listedPid entry).toList.length process after ∧
      after.stream = process.stream := by
  by_cases listed : entry.dType = dtDir ∧ isNumeric entry.dName ∧ 0 < (atoi entry.dName).toInt
  · have pid : listedPid entry = some (atoi entry.dName) := if_pos listed
    have asked : Advanced (infoBuffer pinfo) [] 1 process
        (afterQuery world (atoi entry.dName) pinfo process) := advanced_query
    unfold showEntry entryEvents
    simp only [if_pos listed.1, if_pos listed.2.1, if_pos listed.2.2, pid, Option.toList_some,
      tableRows_single, rowOf]
    cases told : statsOf (world.moment process.calls).env (atoi entry.dName) with
    | error errno =>
        obtain ⟨run, -⟩ := behaves_query_error told
        refine ⟨_, Program.Runs.bind run ?_, asked, rfl⟩
        rw [if_neg (by decide)]
        exact Program.Runs.pure ()
    | ok info =>
        obtain ⟨run, filled⟩ := behaves_query_ok held told
        have room := (held.advance asked).mapped
        refine ⟨_, Program.Runs.bind run ?_, asked.trans (.shown _ _), ?_⟩
        · rw [if_pos rfl]
          exact behaves_bodyTable room filled
        · rfl
  · have none : listedPid entry = none := if_neg listed
    have skipped : showEntry pinfo entry = pure () := by
      unfold showEntry
      split
      · split
        · simp only
          rw [if_neg]
          intro positive
          exact listed ⟨by assumption, by assumption, positive⟩
        · rfl
      · rfl
    refine ⟨process, ?_, ?_, rfl⟩
    · rw [skipped]
      exact Program.Runs.pure ()
    · unfold entryEvents
      rw [none]
      have nothing : Advanced (infoBuffer pinfo) [] 0 process (process.shown []) := .shown _ _
      rwa [Process.shown_nil] at nothing

/-- The whole walk, by induction on the entries that are left: the pids of the
first entries have been asked for when the next one is read. -/
theorem behaves_tableLoop (entries : List Dirent) (fuel : Nat) (process : Process)
    (left : process.stream = entries) (enough : entries.length < fuel)
    (held : LocalVariable world process pinfo.toNat sizeofTamallocProcInfo) :
    ∃ after, Behaves world (tableLoop pinfo fuel) process true after ∧
      Advanced (infoBuffer pinfo)
        ((tableRows world process.calls (entries.filterMap listedPid)).flatMap
          fun row => rowEvents row.1 row.2)
        (entries.filterMap listedPid).length process after := by
  induction entries generalizing fuel process with
  | nil =>
      obtain ⟨fuel, rfl⟩ : ∃ rest, fuel = rest + 1 := ⟨fuel - 1, by simp at enough; omega⟩
      refine ⟨{ process with stream := process.stream.tail }, ?_, ?_⟩
      · unfold tableLoop
        apply Program.Runs.bind behaves_readdir
        rw [left]
        exact Program.Runs.pure true
      · exact ⟨(List.append_nil _).symm, rfl, rfl, fun _ _ => rfl⟩
  | cons entry rest inductionHypothesis =>
      obtain ⟨fuel, rfl⟩ : ∃ more, fuel = more + 1 := ⟨fuel - 1, by simp at enough; omega⟩
      have read : LocalVariable world { process with stream := process.stream.tail }
          pinfo.toNat sizeofTamallocProcInfo := ⟨held.mapped, held.copies⟩
      obtain ⟨between, first, advanced, stream⟩ := behaves_showEntry entry read
      have restLeft : between.stream = rest := by
        rw [stream]
        simp only [left, List.tail_cons]
      obtain ⟨after, later, finished⟩ := inductionHypothesis fuel between restLeft
        (by simp at enough; omega) (read.advance advanced)
      refine ⟨after, ?_, ?_⟩
      · have head : process.stream.head? = some entry := by rw [left]; rfl
        unfold tableLoop
        apply Program.Runs.bind behaves_readdir
        rw [head]
        exact Program.Runs.bind first later
      · have pids : (entry :: rest).filterMap listedPid =
            (listedPid entry).toList ++ rest.filterMap listedPid := by
          cases listed : listedPid entry with
          | none => rw [List.filterMap_cons_none listed]; rfl
          | some pid => rw [List.filterMap_cons_some listed]; rfl
        have calls : between.calls = process.calls + (listedPid entry).toList.length :=
          advanced.calls
        have both := advanced.trans finished
        rw [pids, tableRows_append, List.flatMap_append, List.length_append, ← calls]
        exact ⟨both.log, both.calls, both.space, both.memory⟩

end Walk

/-! ### The program as a whole -/

section Main

variable {world : World} {process : Process} {pinfo : UnsignedLong}
  {arguments : List (List Char)}

theorem statisticsMain_of_argument (fuel : Nat) (argued : argumentPid arguments ≠ 0)
    (held : LocalVariable world process pinfo.toNat sizeofTamallocProcInfo) :
    ∃ after, Behaves world (statisticsMain arguments pinfo fuel) process
        (some (tableOf world arguments process.calls).code) after ∧
      Advanced (infoBuffer pinfo) (tableOf world arguments process.calls).events
        (tableOf world arguments process.calls).queries process after := by
  have asked : Advanced (infoBuffer pinfo) [] 1 process
      (afterQuery world (argumentPid arguments) pinfo process) := advanced_query
  unfold statisticsMain tableOf
  simp only [if_pos argued]
  cases told : statsOf (world.moment process.calls).env (argumentPid arguments) with
  | error errno =>
      obtain ⟨run, number⟩ := behaves_query_error told
      refine ⟨_, Program.Runs.bind run ?_, asked.trans (.shown _ _)⟩
      rw [if_pos (by decide), ← number]
      exact Program.Runs.bind (behaves_perror _) (Program.Runs.pure _)
  | ok info =>
      obtain ⟨run, filled⟩ := behaves_query_ok held told
      have room := (held.advance asked).mapped
      refine ⟨_, Program.Runs.bind run ?_, asked.trans ((Advanced.shown _ headerEvents).trans
        (.shown _ _))⟩
      rw [if_neg (by decide)]
      apply Program.Runs.bind behaves_headerTable
      exact Program.Runs.bind (behaves_bodyTable room filled) (Program.Runs.pure _)

theorem statisticsMain_of_closed (fuel : Nat) (unargued : argumentPid arguments = 0) {errno : Int}
    (closed : world.directory = .error errno) :
    ∃ after, Behaves world (statisticsMain arguments pinfo fuel) process (some 1) after ∧
      Advanced (infoBuffer pinfo) [.failed opendirFailed errno] 0 process after := by
  unfold statisticsMain
  simp only [if_neg (not_not_intro unargued)]
  refine ⟨{ process with errno := errno }.shown [.failed opendirFailed errno], ?_, ?_⟩
  · apply Program.Runs.bind (behaves_opendir_error closed)
    exact Program.Runs.bind (behaves_perror _) (Program.Runs.pure _)
  · exact ⟨rfl, rfl, rfl, fun _ _ => rfl⟩

theorem statisticsMain_of_listing {fuel : Nat} (unargued : argumentPid arguments = 0)
    {entries : List Dirent} (opened : world.directory = .ok entries)
    (enough : entries.length < fuel)
    (held : LocalVariable world process pinfo.toNat sizeofTamallocProcInfo) :
    ∃ after, Behaves world (statisticsMain arguments pinfo fuel) process (some 0) after ∧
      Advanced (infoBuffer pinfo)
        (headerEvents ++
          ((tableRows world process.calls (entries.filterMap listedPid)).flatMap
            (fun row => rowEvents row.1 row.2) ++ [.idled .closedir]))
        (entries.filterMap listedPid).length process after := by
  have ready : LocalVariable world ({ process with stream := entries }.shown headerEvents)
      pinfo.toNat sizeofTamallocProcInfo := ⟨held.mapped, held.copies⟩
  have opening : Advanced (infoBuffer pinfo) headerEvents 0 process
      ({ process with stream := entries }.shown headerEvents) :=
    ⟨rfl, rfl, rfl, fun _ _ => rfl⟩
  obtain ⟨between, walk, walked⟩ := behaves_tableLoop entries fuel _ rfl enough ready
  have whole := opening.trans (walked.trans (.shown between [.idled .closedir]))
  rw [Nat.add_zero, Nat.zero_add] at whole
  refine ⟨between.shown [.idled .closedir], ?_, whole⟩
  unfold statisticsMain
  simp only [if_neg (not_not_intro unargued)]
  apply Program.Runs.bind (behaves_opendir_ok opened)
  apply Program.Runs.bind behaves_headerTable
  apply Program.Runs.bind walk
  exact Program.Runs.bind (behaves_idle _) (Program.Runs.pure _)

/-- Whatever changes between its queries, the program prints the table of its
world: for an argument the row of that pid, and otherwise one row for each entry
of `/proc` that is a process with an address space when it is asked for, in the
order of the entries. It fails only where the kernel does, accesses only its own
variable, and leaves all other memory alone. -/
theorem statisticsMain_prints_table (arguments : List (List Char)) (fuel : Nat)
    (held : LocalVariable world process pinfo.toNat sizeofTamallocProcInfo)
    (enough : ∀ entries, world.directory = .ok entries → entries.length < fuel) :
    ∃ after, Behaves world (statisticsMain arguments pinfo fuel) process
        (some (tableOf world arguments process.calls).code) after ∧
      Advanced (infoBuffer pinfo) (tableOf world arguments process.calls).events
        (tableOf world arguments process.calls).queries process after := by
  by_cases argued : argumentPid arguments ≠ 0
  · exact statisticsMain_of_argument fuel argued held
  · have unargued : argumentPid arguments = 0 := not_not.mp argued
    unfold tableOf
    rw [if_neg argued]
    cases opened : world.directory with
    | error errno => exact statisticsMain_of_closed fuel unargued opened
    | ok entries => exact statisticsMain_of_listing unargued opened (enough entries opened) held

end Main

/-- Two processes and a zombie, and `/proc` with a file among their directories. -/
def threeListed : World :=
  { quietWorld with
    moment := fun _ => { quietMoment with env := twoAndZombie }
    directory := .ok [⟨dtDir, ['.', '.']⟩, ⟨dtDir, ['2']⟩, ⟨8, ['4']⟩, ⟨dtDir, ['3']⟩,
      ⟨dtDir, ['1']⟩] }

/-- A process with one page of stack. -/
def onePage : Process :=
  { newProcess with system := ⟨.boot fun _ => 0, { newProcess.system.space with
    regions := [⟨0x1000, 0x1000⟩] }⟩ }

theorem onePage_variable {size : Nat} (fits : size ≤ 24) :
    LocalVariable threeListed onePage 0x1100 size where
  mapped := ⟨⟨0x1000, 0x1000⟩, List.mem_cons_self, by decide, by simp only; omega⟩
  copies := by
    intro time
    refine ⟨?_, rfl⟩
    show 0x1100 + size ≤ twoAndZombie.taskSizeMax
    have limit : 0x1100 + 24 ≤ twoAndZombie.taskSizeMax := by decide
    omega

theorem statisticsMain_prints_table_of_two :
    ∃ after, Behaves threeListed (statisticsMain [] 0x1100 6) onePage (some 0) after ∧
      after.log = headerEvents ++ (rowEvents 2 ⟨8000, 2400, 30, 0⟩ ++
        rowEvents 1 ⟨8000, 2400, 30, 0⟩ ++ [.idled .closedir]) := by
  have rows : tableRows threeListed 0 [2, 3, 1] =
      [(2, ⟨8000, 2400, 30, 0⟩), (1, ⟨8000, 2400, 30, 0⟩)] := by decide
  have pids : [⟨dtDir, ['.', '.']⟩, ⟨dtDir, ['2']⟩, ⟨8, ['4']⟩, ⟨dtDir, ['3']⟩,
      ⟨dtDir, ['1']⟩].filterMap listedPid = [2, 3, 1] := by decide
  have table : tableOf threeListed [] 0 = ⟨0, headerEvents ++
      ((tableRows threeListed 0 [2, 3, 1]).flatMap (fun row => rowEvents row.1 row.2) ++
        [.idled .closedir]), 3⟩ := by
    show TableRun.mk _ _ _ = _
    rw [pids]
    rfl
  have enough : ∀ entries, threeListed.directory = .ok entries → entries.length < 6 := by
    intro entries same
    cases same
    decide
  have held : LocalVariable threeListed onePage (0x1100 : UnsignedLong).toNat
    sizeofTamallocProcInfo := onePage_variable (Nat.le_refl 24)
  obtain ⟨after, run, advanced⟩ := statisticsMain_prints_table [] 6 held enough
  have start : onePage.calls = 0 := rfl
  rw [start, table] at run advanced
  refine ⟨after, run, advanced.log.trans ?_⟩
  rw [rows]
  rfl

end UsacSyscalls.Userland
