import UsacSyscalls.Kernel.Operations

/-!
Contract: the four memory-limit syscalls, statement by statement.

Owns `add_memory_limit`, `update_memory_limit`, `remove_memory_limit` and
`get_memory_limits`. Every file names its list head through
`memoryLimitedProcesses`, so linkage decides which object it walks.
`add_memory_limit` is written as the four parts that its possible sleeping
points separate; the parts are joined in source order.

Does not own what a call does to the machine; that is `Calls`.
-/

set_option autoImplicit false

namespace UsacSyscalls.Project3

open UsacSyscalls.Foundation
open UsacSyscalls.Kernel

/-! ### `add_memory_limit` -/

/-- `task->mm` is loaded twice: for the null test and to reach `total_vm`. -/
def getProcessMemoryUsage (task : Option TaskRef) : Syscall Int :=
  match task with
  | none => pure 0
  | some task => do
      match ← taskMm task with
      | none => pure 0
      | some _ => do
          let mm ← taskMm task
          let totalVm ← totalVm mm
          pure (totalVm <<< pageShift).toInt

/-- Argument and capability checks, task lookup and comparison of the current
usage with the limit cast to `long`. An error carries the code of the exit
taken. -/
def addAdmission (processPid : PidT) (memoryLimit : SizeT) : Syscall (Except Int TaskRef) :=
  if processPid.toInt ≤ 0 ∨ memoryLimit ≤ 0 then pure (.error (-einval))
  else do
    if !(← capable) then pure (.error (-eperm))
    else do
      let pid ← findVpid processPid
      match ← getPidTask pid with
      | none => pure (.error (-esrch))
      | some task => do
          let currentUsage ← getProcessMemoryUsage (some task)
          if currentUsage > memoryLimit.toInt then do
            putTaskStruct task
            pure (.error (-100))
          else pure (.ok task)

/-- The walk of the list for an entry with the same pid. -/
def addDuplicateWalk (processPid : PidT) (task : TaskRef) : Syscall (Except Int Unit) := do
  let entries ← listEntries (memoryLimitedProcesses .addMemoryLimit)
  if entries.any fun entry => entry.pid == processPid then do
    putTaskStruct task
    pure (.error (-101))
  else pure (.ok ())

def addAllocation (task : TaskRef) : Syscall (Except Int Unit) := do
  if !(← kmalloc) then do
    putTaskStruct task
    pure (.error (-enomem))
  else pure (.ok ())

def addLink (processPid : PidT) (memoryLimit : SizeT) (task : TaskRef) : Syscall Int := do
  listAdd (memoryLimitedProcesses .addMemoryLimit) ⟨processPid, memoryLimit⟩
  putTaskStruct task
  pure 0

def addMemoryLimit (processPid : PidT) (memoryLimit : SizeT) : Syscall Int := do
  match ← addAdmission processPid memoryLimit with
  | .error code => pure code
  | .ok task => do
      match ← addDuplicateWalk processPid task with
      | .error code => pure code
      | .ok _ => do
          match ← addAllocation task with
          | .error code => pure code
          | .ok _ => addLink processPid memoryLimit task

/-! ### `update_memory_limit` and `remove_memory_limit` -/

/-- The walk of `update_memory_limit` over the list it traverses: the code it
returns and the list it leaves. -/
def updateWalk (processPid : PidT) (memoryLimit : SizeT) :
    List MemoryLimitationEntry → Int × List MemoryLimitationEntry
  | [] => (-esrch, [])
  | entry :: rest =>
      if entry.pid = processPid then (0, { entry with memoryLimit := memoryLimit } :: rest)
      else
        let (code, edited) := updateWalk processPid memoryLimit rest
        (code, entry :: edited)

/-- The walk of `remove_memory_limit` over the list it traverses. -/
def removeWalk (processPid : PidT) :
    List MemoryLimitationEntry → Int × List MemoryLimitationEntry
  | [] => (-esrch, [])
  | entry :: rest =>
      if entry.pid = processPid then (0, rest)
      else
        let (code, edited) := removeWalk processPid rest
        (code, entry :: edited)

def updateMemoryLimit (processPid : PidT) (memoryLimit : SizeT) : Syscall Int :=
  if processPid.toInt ≤ 0 ∨ memoryLimit ≤ 0 then pure (-einval)
  else do
    if !(← capable) then pure (-eperm)
    else do
      let entries ← listEntries (memoryLimitedProcesses .updateMemoryLimit)
      let (code, edited) := updateWalk processPid memoryLimit entries
      setEntries (memoryLimitedProcesses .updateMemoryLimit) edited
      pure code

def removeMemoryLimit (processPid : PidT) : Syscall Int :=
  if processPid.toInt ≤ 0 then pure (-einval)
  else do
    if !(← capable) then pure (-eperm)
    else do
      let entries ← listEntries (memoryLimitedProcesses .removeMemoryLimit)
      let (code, edited) := removeWalk processPid entries
      setEntries (memoryLimitedProcesses .removeMemoryLimit) edited
      pure code

/-! ### `get_memory_limits` -/

/-- The two assignments to `tmp`; bytes 4 to 7 belong to no member. -/
def fillTmp (tmp : ByteMemory) (entry : MemoryLimitationEntry) : ByteMemory :=
  setField (setField tmp 0 4 entry.pid) 8 8 entry.memoryLimit

/-- The loop of `get_memory_limits` from a position with `count` records
delivered. `tmp` keeps its stack memory from one iteration to the next. -/
def copyRecords (uProcessesBuffer : Nat) (maxEntries : SizeT) :
    List MemoryLimitationEntry → SizeT → ByteMemory → Syscall (Except Int SizeT)
  | [], count, _ => pure (.ok count)
  | entry :: rest, count, tmp =>
      if count ≥ maxEntries then pure (.ok count)
      else do
        let filled := fillTmp tmp entry
        let left ← copyToUser (uProcessesBuffer + sizeofMemoryLimitation * count.toNat)
          (filled.load 0 sizeofMemoryLimitation)
        if left ≠ 0 then pure (.error (-efault))
        else copyRecords uProcessesBuffer maxEntries rest (count + 1) filled

def getMemoryLimits (uProcessesBuffer : Nat) (maxEntries : SizeT)
    (processesReturned : Nat) : Syscall Int :=
  if maxEntries ≤ 0 then pure (-einval)
  else if uProcessesBuffer = 0 ∨ processesReturned = 0 then pure (-einval)
  else do
    let tmp ← stackSlot .tmp
    let entries ← listEntries (memoryLimitedProcesses .getMemoryLimits)
    match ← copyRecords uProcessesBuffer maxEntries entries 0 tmp with
    | .error code => pure code
    | .ok count => do
        -- The copy is as wide as the kernel's `size_t`, not as the user's `int`.
        let left ← copyToUser processesReturned (leBytes 8 count.toNat)
        if left ≠ 0 then pure (-efault)
        else pure count.toInt

end UsacSyscalls.Project3
