import UsacSyscalls.Foundation.Decimal
import UsacSyscalls.Kernel.References
import UsacSyscalls.Project1.ProcModules
import UsacSyscalls.Project1.Syscalls

/-!
Contract: the `/proc` file with the I/O counters of one process.

Owns the show function of `202000173_module_get_io_throttle.c` with the
functions it calls, the lines it prints as data and as text, the report it makes
of any history of the system, the rules it keeps for task pointers, and the
comparison of its text with what the `get_io_throttle` syscall delivers.

Does not own the syscall; that is `Syscalls`.
-/

set_option autoImplicit false

namespace UsacSyscalls.Project1

open UsacSyscalls.Foundation
open UsacSyscalls.Kernel

/-! ### Output -/

/-- One call of `seq_puts` or `seq_printf`. -/
inductive IoItem where
  | puts (text : String)
  | missing (pid : PidT)
  | heading (pid : PidT)
  | bytes (label : String) (bytesVal mb gb : BitVec 64)
  | count (label : String) (value : BitVec 64)
deriving DecidableEq, Repr

def IoItem.chars : IoItem → List Char
  | .puts text => text.toList
  | .missing pid => "El proceso con PID ".toList ++ (signed pid.toInt ++ " no existe.\n".toList)
  | .heading pid => "I/O Stats para PID ".toList ++ (signed pid.toInt ++ ":\n\n".toList)
  | .bytes label bytesVal mb gb =>
      (padRight 12 label).toList ++ (": ".toList ++ (decimal bytesVal.toNat ++
        (" bytes (".toList ++ (decimal mb.toNat ++ (" MB (".toList ++ (decimal gb.toNat ++
          " GB))\n".toList))))))
  | .count label value =>
      (padRight 12 label).toList ++ (": ".toList ++ (decimal value.toNat ++ "\n".toList))

/-! ### The show function -/

/-- `param` reads the module parameter `pid`, which root may write at any time.
A `call` is an operation of the kernel. -/
inductive IoOp where
  | param
  | call (operation : Op)
  | write (item : IoItem)

@[reducible] def IoReply : IoOp → Type
  | .param => PidT
  | .call operation => Reply operation
  | .write _ => Unit

abbrev IoShow (α : Type) := Program IoOp IoReply α

def ioParam : IoShow PidT := .perform IoOp.param
def ioCall (operation : Op) : IoShow (Reply operation) := .perform (IoOp.call operation)
def ioWrite (item : IoItem) : IoShow Unit := .perform (IoOp.write item)

def printIoBytesLine (label : String) (bytesVal : BitVec 64) : IoShow Unit := do
  let mb := bytesVal >>> 20
  let gb := bytesVal >>> 30
  ioWrite (.bytes label bytesVal mb gb)

def printIoCountLine (label : String) (count : BitVec 64) : IoShow Unit :=
  ioWrite (.count label count)

/-- Every use of `pid` and every member of `task->ioac` is a load of its own. -/
def ioThrottleShow : IoShow Int := do
  ioWrite (.puts rule)
  ioWrite (.puts "          I/O Statistics Monitor\n")
  ioWrite (.puts (rule ++ "\n"))
  if (← ioParam) = 0 then do
    ioWrite (.puts "No se ha especificado un PID. Use insmod con pid=[PID].\n")
    ioWrite (.puts "Ejemplo: insmod 202000173_module_get_io_throttle.ko pid=0001\n")
    pure 0
  else do
    ioCall .rcuReadLock
    let found ← ioCall (.findVpid (← ioParam))
    let task : Option TaskRef ← ioCall (.pidTask found)
    match task with
    | none => do
        ioCall .rcuReadUnlock
        ioWrite (.missing (← ioParam))
        pure 0
    | some task => do
        let rchar := (← ioCall (.ioac task)).rchar
        let wchar := (← ioCall (.ioac task)).wchar
        let syscr := (← ioCall (.ioac task)).syscr
        let syscw := (← ioCall (.ioac task)).syscw
        let readBytes := (← ioCall (.ioac task)).readBytes
        let writeBytes := (← ioCall (.ioac task)).writeBytes
        ioCall .rcuReadUnlock
        ioWrite (.heading (← ioParam))
        printIoBytesLine "rchar" rchar
        printIoBytesLine "wchar" wchar
        printIoCountLine "syscr" syscr
        printIoCountLine "syscw" syscw
        printIoBytesLine "read_bytes" readBytes
        printIoBytesLine "write_bytes" writeBytes
        ioWrite (.puts ("\n" ++ rule))
        pure 0

/-! ### A changing system -/

/-- The kernel and the module parameter at one operation. -/
structure IoMoment where
  env : Environment
  pid : PidT

structure IoFile where
  machine : Machine
  counters : Counters
  items : List IoItem

def ioHandler (moment : IoMoment) : Program.Handler IoOp IoReply IoFile
  | .param, file => (moment.pid, file)
  | .call operation, file =>
      let answer := kernel moment.env operation file.machine
      (answer.1,
        { file with machine := answer.2, counters := file.counters + change operation answer.1 })
  | .write item, file => ((), { file with items := file.items ++ [item] })

/-- The system goes its own way: each operation meets its own moment. -/
abbrev ioSystem (history : Nat → IoMoment) : Program.Handler IoOp IoReply (IoFile × Nat) :=
  Program.evolving fun time => ioHandler (history time)

/-- What follows a task pointer or looks one up. -/
def usesTask : Op → Bool
  | .findVpid _ => true
  | .pidTask _ => true
  | .ioac _ => true
  | _ => false

/-- Task pointers are used inside a read-side section, and nothing is printed
there. -/
def IoRules (state : IoFile × Nat) : IoOp → Prop
  | .param => True
  | .call operation => usesTask operation = true → 0 < state.1.counters .rcuReadSide
  | .write _ => state.1.counters .rcuReadSide = 0

/-! ### The report -/

inductive IoReport where
  | unset
  | missing (pid : PidT)
  | figures (pid : PidT) (accounting : TaskIoAccounting)
deriving DecidableEq, Repr

def bytesItem (label : String) (bytesVal : BitVec 64) : IoItem :=
  .bytes label bytesVal (bytesVal >>> 20) (bytesVal >>> 30)

def ioHeader : List IoItem :=
  [.puts rule, .puts "          I/O Statistics Monitor\n", .puts (rule ++ "\n")]

/-- The items after the header. -/
def IoReport.body : IoReport → List IoItem
  | .unset =>
      [.puts "No se ha especificado un PID. Use insmod con pid=[PID].\n",
        .puts "Ejemplo: insmod 202000173_module_get_io_throttle.ko pid=0001\n"]
  | .missing pid => [.missing pid]
  | .figures pid accounting =>
      [.heading pid, bytesItem "rchar" accounting.rchar, bytesItem "wchar" accounting.wchar,
        .count "syscr" accounting.syscr, .count "syscw" accounting.syscw,
        bytesItem "read_bytes" accounting.readBytes, bytesItem "write_bytes" accounting.writeBytes,
        .puts ("\n" ++ rule)]

def IoReport.text (report : IoReport) : List Char := (ioHeader ++ report.body).flatMap IoItem.chars

/-- The task that the two lookups find. -/
def ioTask (history : Nat → IoMoment) (start : Nat) : Option TaskRef :=
  if ((history (start + 6)).env.lookup (history (start + 5)).pid).isSome then
    (history (start + 7)).env.lookup (history (start + 5)).pid
  else none

/-- The counters of a task, each loaded at its own moment. -/
def loadedCounters (history : Nat → IoMoment) (start : Nat) (task : TaskRef) :
    TaskIoAccounting where
  rchar := ((history (start + 8)).env.task task).ioac.rchar
  wchar := ((history (start + 9)).env.task task).ioac.wchar
  syscr := ((history (start + 10)).env.task task).ioac.syscr
  syscw := ((history (start + 11)).env.task task).ioac.syscw
  readBytes := ((history (start + 12)).env.task task).ioac.readBytes
  writeBytes := ((history (start + 13)).env.task task).ioac.writeBytes

/-- The report of a show function that starts at the operation `start`. -/
def reportOf (history : Nat → IoMoment) (start : Nat) : IoReport :=
  if (history (start + 3)).pid = 0 then .unset
  else
    match ioTask history start with
    | none => .missing (history (start + 9)).pid
    | some task => .figures (history (start + 15)).pid (loadedCounters history start task)

namespace IoFile

def print (file : IoFile) (items : List IoItem) : IoFile :=
  { file with items := file.items ++ items }

/-- The file while its show function is in a read-side section. -/
def locked (file : IoFile) : IoFile :=
  { file with counters := file.counters + one .rcuReadSide }

@[simp] theorem print_print (file : IoFile) (first second : List IoItem) :
    (file.print first).print second = file.print (first ++ second) := by
  simp [print]

end IoFile

section Rules

variable {history : Nat → IoMoment} {file : IoFile} {start : Nat}

theorem runs_ioParam :
    Program.Runs (ioSystem history) IoRules ioParam (file, start)
      ((history start).pid, file, start + 1) :=
  Program.Runs.perform trivial

/-- Printing goes on after what has been printed. -/
theorem runs_ioWrite {α : Type} {items : List IoItem} {item : IoItem} {next : Unit → IoShow α}
    {outcome : α × IoFile × Nat} (outside : file.counters .rcuReadSide = 0)
    (rest : Program.Runs (ioSystem history) IoRules (next ())
      (file.print (items ++ [item]), start + 1) outcome) :
    Program.Runs (ioSystem history) IoRules (ioWrite item >>= next) (file.print items, start)
      outcome := by
  rw [← IoFile.print_print] at rest
  have written : Program.Runs (ioSystem history) IoRules (ioWrite item) (file.print items, start)
      ((), (file.print items).print [item], start + 1) := Program.Runs.perform outside
  exact written.bind rest

theorem runs_rcuReadLock :
    Program.Runs (ioSystem history) IoRules (ioCall .rcuReadLock) (file, start)
      ((), file.locked, start + 1) := by
  apply Program.Runs.perform
  intro uses
  cases uses

theorem runs_rcuReadUnlock :
    Program.Runs (ioSystem history) IoRules (ioCall .rcuReadUnlock) (file.locked, start)
      ((), file, start + 1) := by
  have left : file.locked.counters + change .rcuReadUnlock () = file.counters :=
    add_neg_cancel_right file.counters (one .rcuReadSide)
  have performed : Program.Runs (ioSystem history) IoRules (ioCall .rcuReadUnlock)
      (file.locked, start)
      ((), { file.locked with counters := file.locked.counters + change .rcuReadUnlock () },
        start + 1) := by
    apply Program.Runs.perform
    intro uses
    cases uses
  rwa [left] at performed

/-- An operation that takes nothing and only looks at tasks. -/
theorem runs_lookup {operation : Op} {answer : Reply operation}
    (answered : kernel (history start).env operation file.machine = (answer, file.machine))
    (neutral : change operation answer = 0) (inside : 0 < file.counters .rcuReadSide) :
    Program.Runs (ioSystem history) IoRules (ioCall operation) (file, start)
      (answer, file, start + 1) := by
  have performed : Program.Runs (ioSystem history) IoRules (ioCall operation) (file, start) _ :=
    Program.Runs.perform fun _ => inside
  simp only [Program.evolving, ioHandler, answered, neutral, add_zero] at performed
  exact performed

theorem locked_inside (outside : file.counters .rcuReadSide = 0) :
    0 < file.locked.counters .rcuReadSide := by
  show 0 < file.counters .rcuReadSide + one .rcuReadSide .rcuReadSide
  rw [outside, one_self]
  decide

end Rules

section Run

variable {history : Nat → IoMoment} {file : IoFile} {start : Nat}

theorem runs_findVpid (pid : PidT) (inside : 0 < file.counters .rcuReadSide) :
    Program.Runs (ioSystem history) IoRules (ioCall (.findVpid pid)) (file, start)
      (if ((history start).env.lookup pid).isSome then some pid else none, file, start + 1) :=
  runs_lookup rfl rfl inside

theorem runs_pidTask (found : Option StructPid) (inside : 0 < file.counters .rcuReadSide) :
    Program.Runs (ioSystem history) IoRules (ioCall (.pidTask found)) (file, start)
      (found.bind (history start).env.lookup, file, start + 1) :=
  runs_lookup rfl rfl inside

theorem runs_ioac (task : TaskRef) (inside : 0 < file.counters .rcuReadSide) :
    Program.Runs (ioSystem history) IoRules (ioCall (.ioac task)) (file, start)
      (((history start).env.task task).ioac, file, start + 1) :=
  runs_lookup rfl rfl inside

theorem runs_header {α : Type} {next : IoShow α} {outcome : α × IoFile × Nat}
    (outside : file.counters .rcuReadSide = 0)
    (rest : Program.Runs (ioSystem history) IoRules next (file.print ioHeader, start + 3)
      outcome) :
    Program.Runs (ioSystem history) IoRules
      (do
        ioWrite (.puts rule)
        ioWrite (.puts "          I/O Statistics Monitor\n")
        ioWrite (.puts (rule ++ "\n"))
        next)
      (file, start) outcome := by
  have fresh : file = file.print [] := by simp [IoFile.print]
  rw [fresh]
  apply runs_ioWrite outside
  apply runs_ioWrite outside
  apply runs_ioWrite outside
  exact rest

variable (start) in
/-- Both lookups are answered inside the section that was just entered. -/
theorem runs_search {α : Type} {next : Option TaskRef → IoShow α} {outcome : α × IoFile × Nat}
    (outside : file.counters .rcuReadSide = 0)
    (rest : Program.Runs (ioSystem history) IoRules (next (ioTask history start))
      (file.locked, start + 8) outcome) :
    Program.Runs (ioSystem history) IoRules
      (do
        ioCall .rcuReadLock
        let found ← ioCall (.findVpid (← ioParam))
        let task : Option TaskRef ← ioCall (.pidTask found)
        next task)
      (file, start + 4) outcome := by
  have inside := locked_inside outside
  have searched : ioTask history start =
      ((if ((history (start + 6)).env.lookup (history (start + 5)).pid).isSome
        then some (history (start + 5)).pid else none : Option StructPid).bind
          (history (start + 7)).env.lookup) := by
    unfold ioTask
    split
    · rfl
    · rfl
  rw [searched] at rest
  apply Program.Runs.bind runs_rcuReadLock
  apply Program.Runs.bind runs_ioParam
  apply Program.Runs.bind (runs_findVpid _ inside)
  exact Program.Runs.bind (runs_pidTask _ inside) rest

variable (history start) in
/-- In every history the function returns 0, keeps to the rules, leaves the
section it entered, and prints the report of that history. -/
theorem runs_ioThrottleShow (outside : file.counters .rcuReadSide = 0) :
    ∃ stop, Program.Runs (ioSystem history) IoRules ioThrottleShow (file, start)
      (0, file.print (ioHeader ++ (reportOf history start).body), stop) := by
  have between : (file.print ioHeader).counters .rcuReadSide = 0 := outside
  have inside := locked_inside between
  unfold ioThrottleShow reportOf
  by_cases unset : (history (start + 3)).pid = 0
  · rw [if_pos unset]
    refine ⟨start + 6, runs_header outside (Program.Runs.bind runs_ioParam ?_)⟩
    rw [if_pos unset]
    apply runs_ioWrite outside
    apply runs_ioWrite outside
    exact Program.Runs.pure _
  · rw [if_neg unset]
    cases found : ioTask history start with
    | none =>
        refine ⟨start + 11, runs_header outside (Program.Runs.bind runs_ioParam ?_)⟩
        rw [if_neg unset]
        apply runs_search start between
        rw [found]
        apply Program.Runs.bind runs_rcuReadUnlock
        apply Program.Runs.bind runs_ioParam
        apply runs_ioWrite outside
        exact Program.Runs.pure _
    | some task =>
        refine ⟨start + 24, runs_header outside (Program.Runs.bind runs_ioParam ?_)⟩
        rw [if_neg unset]
        apply runs_search start between
        rw [found]
        apply Program.Runs.bind (runs_ioac task inside)
        apply Program.Runs.bind (runs_ioac task inside)
        apply Program.Runs.bind (runs_ioac task inside)
        apply Program.Runs.bind (runs_ioac task inside)
        apply Program.Runs.bind (runs_ioac task inside)
        apply Program.Runs.bind (runs_ioac task inside)
        apply Program.Runs.bind runs_rcuReadUnlock
        apply Program.Runs.bind runs_ioParam
        apply runs_ioWrite outside
        apply runs_ioWrite outside
        apply runs_ioWrite outside
        apply runs_ioWrite outside
        apply runs_ioWrite outside
        apply runs_ioWrite outside
        apply runs_ioWrite outside
        apply runs_ioWrite outside
        exact Program.Runs.pure _

end Run

/-! ### The text -/

/-- What follows the number in a line with bytes. -/
def bytesTail (value : Nat) : List Char :=
  " bytes (".toList ++ (decimal (value >>> 20) ++ (" MB (".toList ++ (decimal (value >>> 30) ++
    " GB))\n".toList)))

theorem bytesTail_stops (value : Nat) (rest : List Char) : Stops (bytesTail value ++ rest) := by
  have space : " bytes (".toList.head? = some ' ' := by decide
  unfold bytesTail
  rw [List.append_assoc]
  exact stops_append space (by decide) _

theorem newline_stops (rest : List Char) : Stops ("\n".toList ++ rest) := by
  have newline : "\n".toList.head? = some '\n' := by decide
  exact stops_append newline (by decide) _

theorem bytesItem_inj {label : String} {left right : BitVec 64} {rest other : List Char}
    (same : (bytesItem label left).chars ++ rest = (bytesItem label right).chars ++ other) :
    left = right ∧ rest = other := by
  have line : ∀ value : BitVec 64, (bytesItem label value).chars =
      ((padRight 12 label).toList ++ ": ".toList) ++
        (decimal value.toNat ++ bytesTail value.toNat) := by
    intro value
    unfold bytesTail
    rw [List.append_assoc, ← BitVec.toNat_ushiftRight value 20, ← BitVec.toNat_ushiftRight value 30]
    unfold bytesItem IoItem.chars
    rfl
  rw [line, line] at same
  obtain ⟨number, tail⟩ := decimal_line_inj bytesTail_stops same
  exact ⟨BitVec.eq_of_toNat_eq number, tail⟩

theorem countItem_inj {label : String} {left right : BitVec 64} {rest other : List Char}
    (same : (IoItem.count label left).chars ++ rest = (IoItem.count label right).chars ++ other) :
    left = right ∧ rest = other := by
  have line : ∀ value : BitVec 64, (IoItem.count label value).chars =
      ((padRight 12 label).toList ++ ": ".toList) ++ (decimal value.toNat ++ "\n".toList) := by
    intro value
    rw [List.append_assoc]
    rfl
  rw [line, line] at same
  obtain ⟨number, tail⟩ := decimal_line_inj (fun _ => newline_stops) same
  exact ⟨BitVec.eq_of_toNat_eq number, tail⟩

theorem missingItem_inj {left right : PidT} {rest other : List Char}
    (same : (IoItem.missing left).chars ++ rest = (IoItem.missing right).chars ++ other) :
    left = right ∧ rest = other := by
  have space : " no existe.\n".toList.head? = some ' ' := by decide
  obtain ⟨number, tail⟩ := signed_line_inj (stops_append space (by decide)) same
  exact ⟨BitVec.eq_of_toInt_eq number, tail⟩

theorem headingItem_inj {left right : PidT} {rest other : List Char}
    (same : (IoItem.heading left).chars ++ rest = (IoItem.heading right).chars ++ other) :
    left = right ∧ rest = other := by
  have colon : ":\n\n".toList.head? = some ':' := by decide
  obtain ⟨number, tail⟩ := signed_line_inj (stops_append colon (by decide)) same
  exact ⟨BitVec.eq_of_toInt_eq number, tail⟩

/-- The first character after the header tells the three reports apart. -/
def IoReport.initial : IoReport → Char
  | .unset => 'N'
  | .missing _ => 'E'
  | .figures _ _ => 'I'

theorem body_head (report : IoReport) :
    (report.body.flatMap IoItem.chars).head? = some report.initial := by
  cases report with
  | unset => rfl
  | missing pid => rfl
  | figures pid accounting => rfl

theorem figures_inj {left right : PidT} {first second : TaskIoAccounting}
    (same : (IoReport.figures left first).body.flatMap IoItem.chars =
      (IoReport.figures right second).body.flatMap IoItem.chars) :
    left = right ∧ first = second := by
  simp only [IoReport.body, List.flatMap_cons] at same
  obtain ⟨pid, same⟩ := headingItem_inj same
  obtain ⟨rchar, same⟩ := bytesItem_inj same
  obtain ⟨wchar, same⟩ := bytesItem_inj same
  obtain ⟨syscr, same⟩ := countItem_inj same
  obtain ⟨syscw, same⟩ := countItem_inj same
  obtain ⟨readBytes, same⟩ := bytesItem_inj same
  obtain ⟨writeBytes, -⟩ := bytesItem_inj same
  constructor
  · exact pid
  · cases first
    cases second
    simp only [TaskIoAccounting.mk.injEq]
    exact ⟨rchar, wchar, syscr, syscw, readBytes, writeBytes⟩

/-- A reader of the file can tell every report from every other. -/
theorem text_inj {left right : IoReport} (same : left.text = right.text) : left = right := by
  unfold IoReport.text at same
  rw [List.flatMap_append, List.flatMap_append] at same
  have bodies := List.append_cancel_left same
  have kinds : left.initial = right.initial := by
    have heads := congrArg List.head? bodies
    rw [body_head, body_head] at heads
    exact Option.some.inj heads
  cases left with
  | unset =>
      cases right with
      | unset => rfl
      | missing pid => exact absurd kinds (by simp [IoReport.initial])
      | figures pid accounting => exact absurd kinds (by simp [IoReport.initial])
  | missing pid =>
      cases right with
      | unset => exact absurd kinds (by simp [IoReport.initial])
      | missing other =>
          simp only [IoReport.body, List.flatMap_cons] at bodies
          rw [(missingItem_inj bodies).1]
      | figures other accounting => exact absurd kinds (by simp [IoReport.initial])
  | figures pid accounting =>
      cases right with
      | unset => exact absurd kinds (by simp [IoReport.initial])
      | missing other => exact absurd kinds (by simp [IoReport.initial])
      | figures other accounting' =>
          obtain ⟨rfl, rfl⟩ := figures_inj bodies
          rfl

/-! ### What the report says -/

inductive IoCounter where
  | rchar
  | wchar
  | syscr
  | syscw
  | readBytes
  | writeBytes
deriving DecidableEq, Repr

def IoCounter.of (accounting : TaskIoAccounting) : IoCounter → Nat
  | .rchar => accounting.rchar.toNat
  | .wchar => accounting.wchar.toNat
  | .syscr => accounting.syscr.toNat
  | .syscw => accounting.syscw.toNat
  | .readBytes => accounting.readBytes.toNat
  | .writeBytes => accounting.writeBytes.toNat

/-- A counter of a task at an operation. -/
def counterAt (history : Nat → IoMoment) (task : TaskRef) (counter : IoCounter)
    (time : Nat) : Nat :=
  counter.of ((history time).env.task task).ioac

/-- From the first to the last load no counter of any task goes back. -/
def CountersGrow (history : Nat → IoMoment) (start : Nat) : Prop :=
  ∀ task counter time, start + 8 ≤ time → time < start + 13 →
    counterAt history task counter time ≤ counterAt history task counter (time + 1)

/-- A report that is true of the process `pid` at some instant of the show
function. -/
inductive Truthful (history : Nat → IoMoment) (start : Nat) (pid : PidT) : IoReport → Prop
  | unset (unset : pid = 0) : Truthful history start pid .unset
  | missing (time : Nat) (during : time = start + 6 ∨ time = start + 7) (set : pid ≠ 0)
      (absent : (history time).env.lookup pid = none) : Truthful history start pid (.missing pid)
  | figures (task : TaskRef) (accounting : TaskIoAccounting) (set : pid ≠ 0)
      (found : (history (start + 7)).env.lookup pid = some task)
      (between : ∀ counter, counterAt history task counter (start + 8) ≤ counter.of accounting ∧
        counter.of accounting ≤ counterAt history task counter (start + 13)) :
      Truthful history start pid (.figures pid accounting)

section Truth

variable {history : Nat → IoMoment} {start : Nat} {pid : PidT}

theorem counterAt_mono (grows : CountersGrow history start) (task : TaskRef)
    (counter : IoCounter) {early late : Nat} (first : start + 8 ≤ early) (order : early ≤ late)
    (last : late ≤ start + 13) :
    counterAt history task counter early ≤ counterAt history task counter late := by
  induction order with
  | refl => exact Nat.le_refl _
  | step earlier inductionHypothesis =>
      have before : early ≤ _ := earlier
      exact Nat.le_trans (inductionHypothesis (by omega))
        (grows task counter _ (by omega) (by omega))

theorem loadedCounters_between (grows : CountersGrow history start) (task : TaskRef)
    (counter : IoCounter) :
    counterAt history task counter (start + 8) ≤
        counter.of (loadedCounters history start task) ∧
      counter.of (loadedCounters history start task) ≤
        counterAt history task counter (start + 13) := by
  have loaded : ∃ time, start + 8 ≤ time ∧ time ≤ start + 13 ∧
      counter.of (loadedCounters history start task) = counterAt history task counter time := by
    cases counter with
    | rchar => exact ⟨start + 8, by omega, by omega, rfl⟩
    | wchar => exact ⟨start + 9, by omega, by omega, rfl⟩
    | syscr => exact ⟨start + 10, by omega, by omega, rfl⟩
    | syscw => exact ⟨start + 11, by omega, by omega, rfl⟩
    | readBytes => exact ⟨start + 12, by omega, by omega, rfl⟩
    | writeBytes => exact ⟨start + 13, by omega, by omega, rfl⟩
  obtain ⟨time, first, last, same⟩ := loaded
  rw [same]
  exact ⟨counterAt_mono grows task counter (Nat.le_refl _) first last,
    counterAt_mono grows task counter first last (Nat.le_refl _)⟩

theorem ioTask_none (none : ioTask history start = none) :
    ∃ time, (time = start + 6 ∨ time = start + 7) ∧
      (history time).env.lookup (history (start + 5)).pid = Option.none := by
  unfold ioTask at none
  split at none
  · exact ⟨start + 7, .inr rfl, none⟩
  · rename_i absent
    exact ⟨start + 6, .inl rfl, Option.not_isSome_iff_eq_none.mp absent⟩

theorem ioTask_some {task : TaskRef} (found : ioTask history start = some task) :
    (history (start + 7)).env.lookup (history (start + 5)).pid = some task := by
  unfold ioTask at found
  split at found
  · exact found
  · cases found

theorem reportOf_truthful
    (stable : ∀ time, start ≤ time → time ≤ start + 15 → (history time).pid = pid)
    (grows : CountersGrow history start) :
    Truthful history start pid (reportOf history start) := by
  have param : ∀ offset, offset ≤ 15 → (history (start + offset)).pid = pid := by
    intro offset bounded
    exact stable _ (by omega) (by omega)
  unfold reportOf
  rw [param 3 (by decide)]
  by_cases unset : pid = 0
  · rw [if_pos unset]
    exact .unset unset
  · rw [if_neg unset]
    cases searched : ioTask history start with
    | none =>
        obtain ⟨time, during, absent⟩ := ioTask_none searched
        rw [param 5 (by decide)] at absent
        simp only [param 9 (by decide)]
        exact .missing time during unset absent
    | some task =>
        have found := ioTask_some searched
        rw [param 5 (by decide)] at found
        simp only [param 15 (by decide)]
        exact .figures task _ unset found (loadedCounters_between grows task)

end Truth

/-- Whatever the rest of the system does meanwhile, as long as nobody writes the
parameter the file tells the truth about the process it names: it was looked up
and missed, or each figure is one its counter passed through during the read.
The function returns 0, follows task pointers only inside its read-side section,
and leaves the section before it prints. -/
theorem ioThrottleShow_truthful {history : Nat → IoMoment} {start : Nat} {pid : PidT}
    {file : IoFile} (outside : file.counters .rcuReadSide = 0)
    (stable : ∀ time, start ≤ time → time ≤ start + 15 → (history time).pid = pid)
    (grows : CountersGrow history start) :
    ∃ report stop, Program.Runs (ioSystem history) IoRules ioThrottleShow (file, start)
        (0, file.print (ioHeader ++ report.body), stop) ∧
      Truthful history start pid report := by
  obtain ⟨stop, run⟩ := runs_ioThrottleShow history start outside
  exact ⟨_, stop, run, reportOf_truthful stable grows⟩

/-- The process 7 at work: at each operation all its counters are one higher. -/
def working (time : Nat) : Environment :=
  { Environment.quiet 7 with
    task := fun _ => ⟨7, 0, false, some 1,
      ⟨.ofNat 64 time, .ofNat 64 time, .ofNat 64 time, .ofNat 64 time, .ofNat 64 time,
        .ofNat 64 time⟩, 0⟩ }

theorem counterAt_working (param : Nat → PidT) (task : TaskRef) (counter : IoCounter)
    (time : Nat) :
    counterAt (fun time => ⟨working time, param time⟩) task counter time = time % 2 ^ 64 := by
  cases counter <;> rfl

theorem working_grows (param : Nat → PidT) :
    CountersGrow (fun time => ⟨working time, param time⟩) 0 := by
  intro task counter time _ last
  rw [counterAt_working, counterAt_working]
  omega

/-- The process 7 goes on reading and writing while the file is read. -/
theorem ioThrottleShow_truthful_on_working :
    ∃ report stop, Program.Runs (ioSystem fun time => ⟨working time, 7⟩) IoRules ioThrottleShow
        (⟨.boot fun _ => 0, 0, []⟩, 0)
        (0, (IoFile.mk (.boot fun _ => 0) 0 []).print (ioHeader ++ report.body), stop) ∧
      Truthful (fun time => ⟨working time, 7⟩) 0 7 report := by
  have outside : (IoFile.mk (.boot fun _ => 0) 0 []).counters .rcuReadSide = 0 := rfl
  have stable : ∀ time, 0 ≤ time → time ≤ 0 + 15 →
      ((fun time => ⟨working time, 7⟩ : Nat → IoMoment) time).pid = 7 := fun _ _ _ => rfl
  exact ioThrottleShow_truthful outside stable (working_grows fun _ => 7)

/-! ### Writes to the parameter -/

/-- The counters in the report are those of `task`, which was found under the
parameter of the lookup. The heading has the parameter of its own load, so it is
the number of that task exactly if both loads gave the same. -/
structure Shown (history : Nat → IoMoment) (start : Nat) (named : PidT)
    (accounting : TaskIoAccounting) (task : TaskRef) : Prop where
  found : (history (start + 7)).env.lookup (history (start + 5)).pid = some task
  between : ∀ counter, counterAt history task counter (start + 8) ≤ counter.of accounting ∧
    counter.of accounting ≤ counterAt history task counter (start + 13)
  heading : named = (history (start + 15)).pid
  right : ((history (start + 7)).env.task task).pid = named ↔
    (history (start + 5)).pid = (history (start + 15)).pid

/-- A report while the parameter is written at any time: each of its loads goes
into its own part. -/
inductive Labelled (history : Nat → IoMoment) (start : Nat) : IoReport → Prop
  | unset (unset : (history (start + 3)).pid = 0) : Labelled history start .unset
  | missing (time : Nat) (during : time = start + 6 ∨ time = start + 7)
      (absent : (history time).env.lookup (history (start + 5)).pid = none) :
      Labelled history start (.missing (history (start + 9)).pid)
  | figures (named : PidT) (accounting : TaskIoAccounting) (task : TaskRef)
      (shown : Shown history start named accounting task) :
      Labelled history start (.figures named accounting)

theorem pid_of_lookup {env : Environment} {pid : PidT} {task : TaskRef}
    (found : env.lookup pid = some task) : (env.task task).pid = pid := by
  have matched := List.find?_some found
  exact eq_of_beq matched

theorem reportOf_labelled {history : Nat → IoMoment} {start : Nat}
    (grows : CountersGrow history start) : Labelled history start (reportOf history start) := by
  unfold reportOf
  by_cases unset : (history (start + 3)).pid = 0
  · rw [if_pos unset]
    exact .unset unset
  · rw [if_neg unset]
    cases searched : ioTask history start with
    | none =>
        obtain ⟨time, during, absent⟩ := ioTask_none searched
        exact .missing time during absent
    | some task =>
        have found := ioTask_some searched
        refine .figures _ _ task ⟨found, loadedCounters_between grows task, rfl, ?_⟩
        rw [pid_of_lookup found]

/-- Whatever the rest of the system does, writes to the parameter included, the
heading has the number the parameter held when the heading was printed, and the
counters are those of the process the lookup found under the number it held
then: the file shows one process under the number of another exactly if the two
numbers differ. -/
theorem ioThrottleShow_mislabels {history : Nat → IoMoment} {start : Nat} {file : IoFile}
    (outside : file.counters .rcuReadSide = 0) (grows : CountersGrow history start) :
    ∃ report stop, Program.Runs (ioSystem history) IoRules ioThrottleShow (file, start)
        (0, file.print (ioHeader ++ report.body), stop) ∧
      Labelled history start report := by
  obtain ⟨stop, run⟩ := runs_ioThrottleShow history start outside
  exact ⟨_, stop, run, reportOf_labelled grows⟩

/-- The parameter changes from 7 to 8 while the section is open: the counters of
the process 7, which is at work, are printed under the number 8. -/
theorem ioThrottleShow_mislabels_seven :
    ∃ accounting stop, Program.Runs
        (ioSystem fun time => ⟨working time, if time < 10 then 7 else 8⟩) IoRules
        ioThrottleShow (⟨.boot fun _ => 0, 0, []⟩, 0)
        (0, (IoFile.mk (.boot fun _ => 0) 0 []).print
          (ioHeader ++ (IoReport.figures 8 accounting).body), stop) ∧
      ∀ counter : IoCounter, 8 ≤ counter.of accounting ∧ counter.of accounting ≤ 13 := by
  have outside : (IoFile.mk (.boot fun _ => 0) 0 []).counters .rcuReadSide = 0 := rfl
  obtain ⟨report, stop, run, labelled⟩ :=
    ioThrottleShow_mislabels outside (working_grows fun time => if time < 10 then 7 else 8)
  cases labelled with
  | unset unset => exact absurd unset (by decide)
  | missing time during absent =>
      rcases during with rfl | rfl
      · exact absurd absent (by decide)
      · exact absurd absent (by decide)
  | figures named accounting task shown =>
      obtain rfl : named = 8 := shown.heading
      refine ⟨accounting, stop, run, ?_⟩
      intro counter
      have between := shown.between counter
      rw [counterAt_working, counterAt_working] at between
      exact between

/-! ### The file against the syscall -/

/-- The text of the file when nothing changes while it is read. -/
def ioFileText (env : Environment) (pid : PidT) (machine : Machine) : List Char :=
  (Program.run (ioSystem fun _ => ⟨env, pid⟩) ioThrottleShow
    (⟨machine, 0, []⟩, 0)).2.1.items.flatMap IoItem.chars

/-- The report of a still system. -/
def stillReport (env : Environment) (pid : PidT) : IoReport :=
  match env.lookup pid with
  | none => .missing pid
  | some task => .figures pid (env.task task).ioac

/-- The process that a report names. -/
def IoReport.pid : IoReport → PidT
  | .unset => 0
  | .missing pid => pid
  | .figures pid _ => pid

theorem stillReport_pid (env : Environment) (pid : PidT) : (stillReport env pid).pid = pid := by
  unfold stillReport
  cases env.lookup pid with
  | none => rfl
  | some task => rfl

theorem ioFileText_eq {env : Environment} {pid : PidT} (set : pid ≠ 0) (machine : Machine) :
    ioFileText env pid machine = (stillReport env pid).text := by
  have outside : (IoFile.mk machine 0 []).counters .rcuReadSide = 0 := rfl
  obtain ⟨stop, run⟩ := runs_ioThrottleShow (fun _ => ⟨env, pid⟩) 0 outside
  have reported : reportOf (fun _ => ⟨env, pid⟩) 0 = stillReport env pid := by
    unfold reportOf stillReport ioTask
    rw [if_neg set]
    cases found : env.lookup pid with
    | none => simp
    | some task =>
        simp
        rfl
  unfold ioFileText
  rw [run.outcome_eq, reported]
  rfl

theorem leBytes_toNat_inj {left right : UnsignedLong}
    (same : leBytes 8 left.toNat = leBytes 8 right.toNat) : left = right := by
  have range : ∀ value : UnsignedLong, value.toNat % 256 ^ 8 = value.toNat := by
    intro value
    exact Nat.mod_eq_of_lt value.isLt
  have values := congrArg leValue same
  rw [leValue_leBytes, leValue_leBytes, range, range] at values
  exact BitVec.eq_of_toNat_eq values

/-- The bytes that the syscall copies determine the counters. -/
theorem ioStatsBytes_inj {left right : TaskIoAccounting}
    (same : ioStatsBytes left = ioStatsBytes right) : left = right := by
  have width : ∀ value other : UnsignedLong,
      (leBytes 8 value.toNat).length = (leBytes 8 other.toNat).length := by
    intro value other
    rw [leBytes_length, leBytes_length]
  unfold ioStatsBytes at same
  obtain ⟨same, writeBytes⟩ := List.append_inj' same (width _ _)
  obtain ⟨same, readBytes⟩ := List.append_inj' same (width _ _)
  obtain ⟨same, syscw⟩ := List.append_inj' same (width _ _)
  obtain ⟨same, syscr⟩ := List.append_inj' same (width _ _)
  obtain ⟨rchar, wchar⟩ := List.append_inj' same (width _ _)
  cases left
  cases right
  simp only [TaskIoAccounting.mk.injEq]
  exact ⟨leBytes_toNat_inj rchar, leBytes_toNat_inj wchar, leBytes_toNat_inj syscr,
    leBytes_toNat_inj syscw, leBytes_toNat_inj readBytes, leBytes_toNat_inj writeBytes⟩

/-- What the syscall returns and leaves in memory, from the report of the file. -/
def IoReport.answer (machine : Machine) (userStats : Nat) : IoReport → Int × Machine
  | .figures _ accounting =>
      (0, { machine with user := machine.user.store userStats (ioStatsBytes accounting) })
  | _ => (-esrch, machine)

theorem complete_getIoThrottle_eq_answer {env : Environment} {userStats : Nat}
    (works : env.Copies userStats sizeofIoStatsUser) (pid : PidT) (machine : Machine) :
    complete env (getIoThrottle pid userStats) machine =
      (stillReport env pid).answer machine userStats := by
  rw [complete_getIoThrottle]
  unfold stillReport
  cases env.lookup pid with
  | none => rfl
  | some task =>
      have copies : env.Copies userStats (ioStatsBytes (env.task task).ioac).length := by
        simpa [ioStatsBytes, sizeofIoStatsUser] using works
      exact complete_copyOut_of_copies copies machine

theorem stillReport_cases (env : Environment) (pid : PidT) :
    stillReport env pid = .missing pid ∨
      ∃ accounting, stillReport env pid = .figures pid accounting := by
  unfold stillReport
  cases env.lookup pid with
  | none => exact .inl rfl
  | some task => exact .inr ⟨_, rfl⟩

theorem answer_figures_inj {pid : PidT} {left right : TaskIoAccounting} {machine : Machine}
    {userStats : Nat}
    (same : (IoReport.figures pid left).answer machine userStats =
      (IoReport.figures pid right).answer machine userStats) : left = right := by
  have memory : machine.user.store userStats (ioStatsBytes left) =
      machine.user.store userStats (ioStatsBytes right) :=
    congrArg (fun outcome => outcome.2.user) same
  have width : (ioStatsBytes left).length = (ioStatsBytes right).length := by
    simp [ioStatsBytes]
  apply ioStatsBytes_inj
  rw [← machine.user.load_store_self userStats (ioStatsBytes left), memory, width,
    machine.user.load_store_self]

/-- The file and the syscall say the same: two still systems print the same text
exactly if the file names the same process and `get_io_throttle` returns the
same code and leaves the same memory. -/
theorem ioFileText_iff_syscall {env other : Environment} {pid otherPid : PidT} (set : pid ≠ 0)
    (otherSet : otherPid ≠ 0) {userStats : Nat} (works : env.Copies userStats sizeofIoStatsUser)
    (otherWorks : other.Copies userStats sizeofIoStatsUser) (machine : Machine) :
    ioFileText env pid machine = ioFileText other otherPid machine ↔
      pid = otherPid ∧ complete env (getIoThrottle pid userStats) machine =
        complete other (getIoThrottle otherPid userStats) machine := by
  rw [ioFileText_eq set, ioFileText_eq otherSet, complete_getIoThrottle_eq_answer works,
    complete_getIoThrottle_eq_answer otherWorks]
  constructor
  · intro same
    have reports := text_inj same
    have pids : (stillReport env pid).pid = (stillReport other otherPid).pid :=
      congrArg IoReport.pid reports
    rw [stillReport_pid, stillReport_pid] at pids
    exact ⟨pids, by rw [reports]⟩
  · rintro ⟨rfl, answers⟩
    have failed : -esrch ≠ 0 := by decide
    apply congrArg IoReport.text
    rcases stillReport_cases env pid with missing | ⟨accounting, figures⟩
    · rcases stillReport_cases other pid with otherMissing | ⟨otherAccounting, otherFigures⟩
      · rw [missing, otherMissing]
      · rw [missing, otherFigures] at answers
        exact absurd (congrArg Prod.fst answers) failed
    · rcases stillReport_cases other pid with otherMissing | ⟨otherAccounting, otherFigures⟩
      · rw [figures, otherMissing] at answers
        exact absurd (congrArg Prod.fst answers).symm failed
      · rw [figures, otherFigures] at answers ⊢
        rw [answer_figures_inj answers]

/-- A process that has read one byte. -/
def oneByteRead : Environment :=
  { Environment.quiet 7 with task := fun _ => ⟨7, 0, false, some 1, ⟨1, 0, 1, 0, 0, 0⟩, 0⟩ }

/-- The memory that the syscall leaves differs, and so does the text. -/
theorem ioFileText_shows_one_byte :
    ioFileText (.quiet 7) 7 (.boot fun _ => 0) ≠ ioFileText oneByteRead 7 (.boot fun _ => 0) := by
  have set : (7 : PidT) ≠ 0 := by decide
  have works : (Environment.quiet 7).Copies 4096 sizeofIoStatsUser := ⟨by decide, rfl⟩
  have otherWorks : oneByteRead.Copies 4096 sizeofIoStatsUser := ⟨by decide, rfl⟩
  intro same
  obtain ⟨-, answers⟩ := (ioFileText_iff_syscall set set works otherWorks _).mp same
  have first := congrArg (fun outcome => outcome.2.user 4096) answers
  exact absurd first (by decide)

end UsacSyscalls.Project1
