import Mathlib.Data.BitVec
import UsacSyscalls.Kernel.Operations

/-!
Contract: the two `/proc` files with memory and system statistics.

Owns the show functions of both modules with every function they call, the
lines they print as data and as text, the handler that answers their kernel
calls and collects their output, and the whole report of each file as a
function of what the kernel answers.

Does not own the correctness of the figures; that is `CacheFigure` for the
snapshot and `DiskFigures` for the sizes.
-/

set_option autoImplicit false

namespace UsacSyscalls.Project1

open UsacSyscalls.Foundation
open UsacSyscalls.Kernel

/-! ### Output -/

/-- `%-<width>s` -/
def padRight (width : Nat) (text : String) : String :=
  text ++ String.ofList (List.replicate (width - text.length) ' ')

/-- `%<width>lu` -/
def padLeft (width : Nat) (value : UnsignedLong) : String :=
  String.ofList (List.replicate (width - (toString value.toNat).length) ' ') ++
    toString value.toNat

structure MemoryLine where
  label : String
  mb : UnsignedLong
  gb : UnsignedLong
deriving DecidableEq, Repr

structure SizeLine where
  label : String
  kb : UnsignedLong
  mb : UnsignedLong
  gb : UnsignedLong
deriving DecidableEq, Repr

structure CpuLine where
  label : String
  val : UnsignedLong
deriving DecidableEq, Repr

/-- One call of `seq_puts` or `seq_printf`. -/
inductive SeqItem where
  | puts (text : String)
  | memory (line : MemoryLine)
  | size (line : SizeLine)
  | cpu (line : CpuLine)
  | partition (name : String)
deriving DecidableEq, Repr

def SeqItem.text : SeqItem → String
  | .puts text => text
  | .memory line =>
      padRight 18 line.label ++ ": " ++ padLeft 10 line.mb ++ " MB (" ++ padLeft 0 line.gb ++
        " GB)\n"
  | .size line =>
      padRight 20 line.label ++ ": " ++ padLeft 10 line.kb ++ " KB (" ++ padLeft 0 line.mb ++
        " MB (" ++ padLeft 0 line.gb ++ " GB))\n"
  | .cpu line => padRight 20 line.label ++ ": " ++ padLeft 0 line.val ++ "\n"
  | .partition name => "Partition Monitored: " ++ name ++ "\n"

/-! ### Kernel calls -/

inductive CpuTime where
  | user
  | nice
  | system
  | idle
  | iowait
  | irq
  | softirq
  | steal
deriving DecidableEq, Repr

/-- The members of `struct kstatfs` that are read; `f_bsize` is a `long`. -/
structure Kstatfs where
  fBlocks : BitVec 64
  fBfree : BitVec 64
  fBsize : BitVec 64
deriving DecidableEq, Repr

abbrev PathRef := Nat

/-- What a failing call returns. -/
structure ErrorCode where
  code : Int
  code_ne_zero : code ≠ 0

inductive ProcOp where
  | siMeminfo
  | globalNodePageState (item : NodeStatItem)
  | possibleCpus
  | kcpustat (cpu : Nat) (item : CpuTime)
  | kernPath (name : String)
  | vfsStatfs (path : PathRef)
  | pathPut (path : PathRef)
  | seqWrite (item : SeqItem)

@[reducible] def ProcReply : ProcOp → Type
  | .siMeminfo => Meminfo
  | .globalNodePageState _ => UnsignedLong
  | .possibleCpus => List Nat
  | .kcpustat _ _ => BitVec 64
  | .kernPath _ => Except ErrorCode PathRef
  | .vfsStatfs _ => Except ErrorCode Kstatfs
  | .pathPut _ => Unit
  | .seqWrite _ => Unit

abbrev Show (α : Type) := Program ProcOp ProcReply α

def procMeminfo : Show Meminfo := .perform ProcOp.siMeminfo
def nodePageState (item : NodeStatItem) : Show UnsignedLong :=
  .perform (ProcOp.globalNodePageState item)
def possibleCpus : Show (List Nat) := .perform ProcOp.possibleCpus
def kcpustat (cpu : Nat) (item : CpuTime) : Show (BitVec 64) :=
  .perform (ProcOp.kcpustat cpu item)
def kernPath (name : String) : Show (Except ErrorCode PathRef) := .perform (ProcOp.kernPath name)
def vfsStatfs (path : PathRef) : Show (Except ErrorCode Kstatfs) :=
  .perform (ProcOp.vfsStatfs path)
def pathPut (path : PathRef) : Show Unit := .perform (ProcOp.pathPut path)
def seqWrite (item : SeqItem) : Show Unit := .perform (ProcOp.seqWrite item)
def seqPuts (text : String) : Show Unit := seqWrite (.puts text)

structure ProcEnvironment extends Environment where
  cpus : List Nat
  cpustat : Nat → CpuTime → BitVec 64
  path : String → Except ErrorCode PathRef
  statfs : PathRef → Except ErrorCode Kstatfs

/-- What has been printed, and how many path references are held. -/
structure SeqFile where
  items : List SeqItem
  paths : Int
deriving DecidableEq, Repr

def SeqFile.print (file : SeqFile) (items : List SeqItem) : SeqFile :=
  { file with items := file.items ++ items }

def SeqFile.text (file : SeqFile) : String := String.join (file.items.map SeqItem.text)

/-- A successful `kern_path` takes a reference to the path. -/
def procfs (env : ProcEnvironment) : Program.Handler ProcOp ProcReply SeqFile
  | .siMeminfo, file => (env.meminfo, file)
  | .globalNodePageState item, file => (env.nodePages item, file)
  | .possibleCpus, file => (env.cpus, file)
  | .kcpustat cpu item, file => (env.cpustat cpu item, file)
  | .kernPath name, file =>
      (env.path name,
        match env.path name with
        | .ok _ => { file with paths := file.paths + 1 }
        | .error _ => file)
  | .vfsStatfs path, file => (env.statfs path, file)
  | .pathPut _, file => ((), { file with paths := file.paths - 1 })
  | .seqWrite item, file => ((), file.print [item])

/-! ### The memory snapshot -/

def printMemoryLine (label : String) (pages : UnsignedLong) : Show Unit := do
  let bytes : BitVec 64 := pages * pageSize
  let mb := bytes >>> 20
  let gb := bytes >>> 30
  seqWrite (.memory ⟨label, mb, gb⟩)

/-- The order in which the operands of one expression are evaluated. -/
inductive Order where
  | leftFirst
  | rightFirst
deriving DecidableEq, Repr

/-- Two counter reads in one expression. C leaves their order open. -/
def readBoth (order : Order) (left right : NodeStatItem) :
    Show (UnsignedLong × UnsignedLong) :=
  match order with
  | .leftFirst => do
      let first ← nodePageState left
      let second ← nodePageState right
      pure (first, second)
  | .rightFirst => do
      let second ← nodePageState right
      let first ← nodePageState left
      pure (first, second)

structure Orders where
  cache : Order
  active : Order
  inactive : Order
deriving DecidableEq, Repr

/-- The six variables of `fill_mem_snapshot` that are printed. -/
structure MemSnapshot where
  totalRam : UnsignedLong
  freeRam : UnsignedLong
  cacheRam : UnsignedLong
  bufferRam : UnsignedLong
  activeRam : UnsignedLong
  inactiveRam : UnsignedLong
deriving DecidableEq, Repr

/-- The declarations of `fill_mem_snapshot`. -/
def readMemSnapshot (orders : Orders) : Show MemSnapshot := do
  let i ← procMeminfo
  let (filePages, shmem) ← readBoth orders.cache .nrFilePages .nrShmem
  let (activeFile, activeAnon) ← readBoth orders.active .nrActiveFile .nrActiveAnon
  let (inactiveFile, inactiveAnon) ← readBoth orders.inactive .nrInactiveFile .nrInactiveAnon
  pure
    { totalRam := i.totalram
      freeRam := i.freeram
      cacheRam := filePages - shmem - i.bufferram
      bufferRam := i.bufferram
      activeRam := activeFile + activeAnon
      inactiveRam := inactiveFile + inactiveAnon }

def fillMemSnapshot (orders : Orders) : Show Unit := do
  let snapshot ← readMemSnapshot orders
  printMemoryLine "Total RAM" snapshot.totalRam
  printMemoryLine "Free RAM" snapshot.freeRam
  printMemoryLine "Cached RAM" snapshot.cacheRam
  printMemoryLine "Buffered RAM" snapshot.bufferRam
  printMemoryLine "Active RAM" snapshot.activeRam
  printMemoryLine "Inactive RAM" snapshot.inactiveRam

def rule : String := "=========================================\n"

def captureMemShow (orders : Orders) : Show Int := do
  seqPuts rule
  seqPuts "          Memory Snapshot Info\n"
  seqPuts (rule ++ "\n")
  fillMemSnapshot orders
  seqPuts ("\n" ++ rule)
  pure 0

/-! ### The system statistics -/

def printSizeLine (label : String) (kbVal : UnsignedLong) : Show Unit := do
  let mb := kbVal >>> 10
  let gb := mb >>> 10
  seqWrite (.size ⟨label, kbVal, mb, gb⟩)

def printCpuLine (label : String) (val : BitVec 64) : Show Unit := seqWrite (.cpu ⟨label, val⟩)

/-- `mem_unit` is an `unsigned int` and widened for the product. -/
def getMemoryInfo : Show Unit := do
  let i ← procMeminfo
  let totalBytes := i.totalram * i.memUnit.setWidth 64
  let freeBytes := i.freeram * i.memUnit.setWidth 64
  let memTotalKb := totalBytes / 1024
  let memFreeKb := freeBytes / 1024
  printSizeLine "Memory Total" memTotalKb
  printSizeLine "Memory Free" memFreeKb

def getDiskInfo (partition : String) : Show Int := do
  match ← kernPath partition with
  | .error err => pure err.code
  | .ok path => do
      let statfs ← vfsStatfs path
      pathPut path
      match statfs with
      | .error err => pure err.code
      | .ok stat => do
          let totalBytes := stat.fBlocks * stat.fBsize
          let freeBytes := stat.fBfree * stat.fBsize
          let diskTotalKb := totalBytes / 1024
          let diskFreeKb := freeBytes / 1024
          printSizeLine "Disk Total" diskTotalKb
          printSizeLine "Disk Free" diskFreeKb
          pure 0

def cpuTimes : List CpuTime := [.user, .nice, .system, .idle, .iowait, .irq, .softirq, .steal]

/-- The additions for one CPU. -/
def addCpu (cpu : Nat) : List CpuTime → (CpuTime → BitVec 64) → Show (CpuTime → BitVec 64)
  | [], cpuStats => pure cpuStats
  | item :: rest, cpuStats => do
      let time ← kcpustat cpu item
      addCpu cpu rest fun other => if other = item then cpuStats item + time else cpuStats other

/-- The loop over the CPUs that are left. -/
def addCpus : List Nat → (CpuTime → BitVec 64) → Show (CpuTime → BitVec 64)
  | [], cpuStats => pure cpuStats
  | cpu :: rest, cpuStats => do
      let cpuStats ← addCpu cpu cpuTimes cpuStats
      addCpus rest cpuStats

def getCpuInfo : Show Unit := do
  let cpus ← possibleCpus
  let cpuStats ← addCpus cpus fun _ => 0
  printCpuLine "CPU User" (cpuStats .user)
  printCpuLine "CPU Nice" (cpuStats .nice)
  printCpuLine "CPU System" (cpuStats .system)
  printCpuLine "CPU Idle" (cpuStats .idle)
  printCpuLine "CPU IOWait" (cpuStats .iowait)
  printCpuLine "CPU IRQ" (cpuStats .irq)
  printCpuLine "CPU SoftIRQ" (cpuStats .softirq)
  printCpuLine "CPU Steal" (cpuStats .steal)

def systemStatsShow (partition : String) : Show Int := do
  seqPuts rule
  seqPuts "            System Statistics\n"
  seqPuts (rule ++ "\n")
  seqPuts "[CPU Usage]\n"
  getCpuInfo
  seqPuts "\n[Memory Usage]\n"
  getMemoryInfo
  seqPuts "\n[Disk Usage]\n"
  if (← getDiskInfo partition) ≠ 0 then seqPuts "Error reading disk info.\n"
  seqPuts ("\n" ++ rule)
  seqWrite (.partition partition)
  seqPuts rule
  pure 0

/-! ### What is printed -/

/-- The line for a number of units, as both parts compute it. -/
def sizeLine (label : String) (count unit : BitVec 64) : SizeLine :=
  let kb := count * unit / 1024
  ⟨label, kb, kb >>> 10, kb >>> 10 >>> 10⟩

def memoryLine (label : String) (pages : UnsignedLong) : MemoryLine :=
  ⟨label, (pages * pageSize) >>> 20, (pages * pageSize) >>> 30⟩

/-- The lines of the snapshot when all counters are read at one instant. -/
def snapshotLines (env : ProcEnvironment) : List SeqItem :=
  [.memory (memoryLine "Total RAM" env.meminfo.totalram),
    .memory (memoryLine "Free RAM" env.meminfo.freeram),
    .memory (memoryLine "Cached RAM"
      (env.nodePages .nrFilePages - env.nodePages .nrShmem - env.meminfo.bufferram)),
    .memory (memoryLine "Buffered RAM" env.meminfo.bufferram),
    .memory (memoryLine "Active RAM"
      (env.nodePages .nrActiveFile + env.nodePages .nrActiveAnon)),
    .memory (memoryLine "Inactive RAM"
      (env.nodePages .nrInactiveFile + env.nodePages .nrInactiveAnon))]

def cpuTotal (env : ProcEnvironment) (item : CpuTime) : BitVec 64 :=
  (env.cpus.map fun cpu => env.cpustat cpu item).sum

def cpuLines (env : ProcEnvironment) : List SeqItem :=
  [.cpu ⟨"CPU User", cpuTotal env .user⟩, .cpu ⟨"CPU Nice", cpuTotal env .nice⟩,
    .cpu ⟨"CPU System", cpuTotal env .system⟩, .cpu ⟨"CPU Idle", cpuTotal env .idle⟩,
    .cpu ⟨"CPU IOWait", cpuTotal env .iowait⟩, .cpu ⟨"CPU IRQ", cpuTotal env .irq⟩,
    .cpu ⟨"CPU SoftIRQ", cpuTotal env .softirq⟩, .cpu ⟨"CPU Steal", cpuTotal env .steal⟩]

def memoryLines (env : ProcEnvironment) : List SeqItem :=
  [.size (sizeLine "Memory Total" env.meminfo.totalram (env.meminfo.memUnit.setWidth 64)),
    .size (sizeLine "Memory Free" env.meminfo.freeram (env.meminfo.memUnit.setWidth 64))]

def diskLines (stat : Kstatfs) : List SeqItem :=
  [.size (sizeLine "Disk Total" stat.fBlocks stat.fBsize),
    .size (sizeLine "Disk Free" stat.fBfree stat.fBsize)]

/-- What stands under the disk heading. -/
def diskItems (env : ProcEnvironment) (partition : String) : List SeqItem :=
  match (env.path partition).bind env.statfs with
  | .ok stat => diskLines stat
  | .error _ => [.puts "Error reading disk info.\n"]

def snapshotReport (env : ProcEnvironment) : List SeqItem :=
  [.puts rule, .puts "          Memory Snapshot Info\n", .puts (rule ++ "\n")] ++
    snapshotLines env ++ [.puts ("\n" ++ rule)]

def systemReport (env : ProcEnvironment) (partition : String) : List SeqItem :=
  [.puts rule, .puts "            System Statistics\n", .puts (rule ++ "\n")] ++
    [.puts "[CPU Usage]\n"] ++ cpuLines env ++
    [.puts "\n[Memory Usage]\n"] ++ memoryLines env ++
    [.puts "\n[Disk Usage]\n"] ++ diskItems env partition ++
    [.puts ("\n" ++ rule), .partition partition, .puts rule]

section Outcomes

variable (env : ProcEnvironment) (file : SeqFile)

theorem run_printSizeLine (label : String) (count unit : BitVec 64) :
    Program.run (procfs env) (printSizeLine label (count * unit / 1024)) file =
      ((), file.print [.size (sizeLine label count unit)]) :=
  rfl

theorem run_printMemoryLine (label : String) (pages : UnsignedLong) :
    Program.run (procfs env) (printMemoryLine label pages) file =
      ((), file.print [.memory (memoryLine label pages)]) :=
  rfl

theorem run_printCpuLine (label : String) (val : BitVec 64) :
    Program.run (procfs env) (printCpuLine label val) file =
      ((), file.print [.cpu ⟨label, val⟩]) :=
  rfl

theorem run_seqPuts (text : String) :
    Program.run (procfs env) (seqPuts text) file = ((), file.print [.puts text]) :=
  rfl

theorem run_readBoth (order : Order) (left right : NodeStatItem) :
    Program.run (procfs env) (readBoth order left right) file =
      ((env.nodePages left, env.nodePages right), file) := by
  cases order <;> rfl

theorem print_print (first second : List SeqItem) :
    (file.print first).print second = file.print (first ++ second) := by
  simp [SeqFile.print]

theorem run_getMemoryInfo :
    Program.run (procfs env) getMemoryInfo file = ((), file.print (memoryLines env)) := by
  unfold getMemoryInfo
  simp only [Program.run_bind, procMeminfo, Program.run_perform, procfs, run_printSizeLine,
    print_print]
  rfl

/-- A failed lookup takes no reference to the path, and every other way gives
its own back. -/
theorem run_getDiskInfo (partition : String) :
    Program.run (procfs env) (getDiskInfo partition) file =
      match (env.path partition).bind env.statfs with
      | .error err => (err.code, file)
      | .ok stat => (0, file.print (diskLines stat)) := by
  unfold getDiskInfo
  simp only [Program.run_bind, kernPath, Program.run_perform, procfs]
  cases found : env.path partition with
  | error err => rfl
  | ok path =>
      simp only [Program.run_bind, vfsStatfs, pathPut, Program.run_perform, procfs,
        Int.add_sub_cancel, Except.bind]
      cases answered : env.statfs path with
      | error err => rfl
      | ok stat =>
          simp only [Program.run_bind, run_printSizeLine, print_print, Program.run_pure]
          rfl

theorem cpuTimes_complete (item : CpuTime) : item ∈ cpuTimes := by
  cases item <;> decide

theorem run_addCpu (cpu : Nat) {items : List CpuTime} (distinct : items.Nodup)
    (cpuStats : CpuTime → BitVec 64) :
    Program.run (procfs env) (addCpu cpu items cpuStats) file =
      (fun item => if item ∈ items then cpuStats item + env.cpustat cpu item else cpuStats item,
        file) := by
  induction items generalizing cpuStats with
  | nil => simp [addCpu]
  | cons item rest inductionHypothesis =>
      obtain ⟨absent, restDistinct⟩ := List.nodup_cons.mp distinct
      unfold addCpu
      simp only [Program.run_bind, kcpustat, Program.run_perform, procfs,
        inductionHypothesis restDistinct]
      congr 1
      funext other
      by_cases same : other = item
      · subst same
        simp [absent]
      · simp [same]

/-- The totals over the CPUs that are left, modulo `2 ^ 64`. -/
theorem run_addCpus (cpus : List Nat) (cpuStats : CpuTime → BitVec 64) :
    Program.run (procfs env) (addCpus cpus cpuStats) file =
      (fun item => cpuStats item + (cpus.map fun cpu => env.cpustat cpu item).sum, file) := by
  induction cpus generalizing cpuStats with
  | nil => simp [addCpus]
  | cons cpu rest inductionHypothesis =>
      have distinct : cpuTimes.Nodup := by decide
      unfold addCpus
      simp only [Program.run_bind, run_addCpu env file cpu distinct, cpuTimes_complete, if_true,
        inductionHypothesis, List.map_cons, List.sum_cons, BitVec.add_assoc]

theorem run_getCpuInfo :
    Program.run (procfs env) getCpuInfo file = ((), file.print (cpuLines env)) := by
  have fromZero : ∀ total : BitVec 64, 0 + total = total := BitVec.zero_add
  unfold getCpuInfo
  simp only [Program.run_bind, possibleCpus, Program.run_perform, procfs, run_addCpus, fromZero,
    run_printCpuLine, print_print]
  rfl

/-- The order in which counters are read does not matter while they stand
still. -/
theorem run_captureMemShow (orders : Orders) :
    Program.run (procfs env) (captureMemShow orders) file =
      (0, file.print (snapshotReport env)) := by
  unfold captureMemShow fillMemSnapshot readMemSnapshot
  simp only [Program.run_bind, procMeminfo, Program.run_perform, procfs, run_readBoth, run_seqPuts,
    run_printMemoryLine, print_print, Program.run_pure]
  rfl

/-- Whatever fails, the report is complete and no path stays referenced. -/
theorem run_systemStatsShow (partition : String) :
    Program.run (procfs env) (systemStatsShow partition) file =
      (0, file.print (systemReport env partition)) := by
  unfold systemStatsShow systemReport diskItems
  simp only [Program.run_bind, run_seqPuts, run_getCpuInfo, run_getMemoryInfo, run_getDiskInfo,
    print_print]
  cases (env.path partition).bind env.statfs with
  | error err =>
      simp only [err.code_ne_zero, ne_eq, not_false_eq_true, if_true, run_seqPuts, seqWrite,
        Program.run_bind, Program.run_perform, procfs, print_print, Program.run_pure]
      rfl
  | ok stat =>
      simp only [ne_eq, not_true_eq_false, if_false, run_seqPuts, seqWrite, Program.run_bind,
        Program.run_perform, procfs, print_print, Program.run_pure]
      rfl

end Outcomes

end UsacSyscalls.Project1
