import Mathlib.Logic.Function.Basic
import UsacSyscalls.Foundation.Program
import UsacSyscalls.Kernel.Data

/-!
Contract: the kernel operations the syscalls perform and what they do when a
call runs to completion.

Owns the operation set, the environment that answers operations during one
call, the mutable machine (the three list heads and user memory), the handler
`kernel`, and the behaviour of `copy_to_user` on success, on a fault and
outside the user address space.

Does not own the syscalls or any schedule of several calls.
-/

set_option autoImplicit false

namespace UsacSyscalls.Kernel

open UsacSyscalls.Foundation

/-! ### Operations

`taskMm` is the load `task->mm`, and `totalVm` the load `mm->total_vm` through
a pointer that may be null. `getPidTask` and `getTaskMm` take a reference on
what they return. `forEachProcess` replies with the tasks that loop walks, and
`listEntries` with the entries a walk of a head sees, both in order;
`setEntries` is what a walk left in the list it traversed. `kmalloc` replies
whether the pointer is non-null, `stackSlot` with the bytes an uninitialised
local finds in its stack memory, and `copyToUser` with the number of bytes not
copied. `divide` is the `div` instruction on 64 bits. -/

inductive Op where
  | capable
  | rcuReadLock
  | rcuReadUnlock
  | findVpid (pid : PidT)
  | pidTask (pid : Option StructPid)
  | getPidTask (pid : Option StructPid)
  | putTaskStruct (task : TaskRef)
  | taskMm (task : TaskRef)
  | getTaskMm (task : TaskRef)
  | mmput (mm : MmRef)
  | totalVm (mm : Option MmRef)
  | getMmRss (mm : Option MmRef)
  | exitState (task : TaskRef)
  | ioac (task : TaskRef)
  | oomScoreAdj (task : TaskRef)
  | forEachProcess
  | siMeminfo
  | globalNodePageState (item : NodeStatItem)
  | listEntries (head : ListHead)
  | setEntries (head : ListHead) (entries : List MemoryLimitationEntry)
  | listAdd (head : ListHead) (entry : MemoryLimitationEntry)
  | kmalloc
  | stackSlot (slot : StackSlot)
  | copyToUser (destination : Nat) (bytes : List Byte)
  | divide (dividend divisor : UnsignedLong)

@[reducible] def Reply : Op → Type
  | .capable => Bool
  | .rcuReadLock => Unit
  | .rcuReadUnlock => Unit
  | .findVpid _ => Option StructPid
  | .pidTask _ => Option TaskRef
  | .getPidTask _ => Option TaskRef
  | .putTaskStruct _ => Unit
  | .taskMm _ => Option MmRef
  | .getTaskMm _ => Option MmRef
  | .mmput _ => Unit
  | .totalVm _ => UnsignedLong
  | .getMmRss _ => UnsignedLong
  | .exitState _ => Int
  | .ioac _ => TaskIoAccounting
  | .oomScoreAdj _ => BitVec 16
  | .forEachProcess => List TaskRef
  | .siMeminfo => Meminfo
  | .globalNodePageState _ => UnsignedLong
  | .listEntries _ => List MemoryLimitationEntry
  | .setEntries _ _ => Unit
  | .listAdd _ _ => Unit
  | .kmalloc => Bool
  | .stackSlot _ => ByteMemory
  | .copyToUser _ _ => Nat
  | .divide _ _ => UnsignedLong

/-- The body of a syscall, or of a static function it calls. -/
abbrev Syscall (α : Type) := Program Op Reply α

def capable : Syscall Bool := .perform Op.capable
def rcuReadLock : Syscall Unit := .perform Op.rcuReadLock
def rcuReadUnlock : Syscall Unit := .perform Op.rcuReadUnlock
def findVpid (pid : PidT) : Syscall (Option StructPid) := .perform (Op.findVpid pid)
def pidTask (pid : Option StructPid) : Syscall (Option TaskRef) := .perform (Op.pidTask pid)
def getPidTask (pid : Option StructPid) : Syscall (Option TaskRef) := .perform (Op.getPidTask pid)
def putTaskStruct (task : TaskRef) : Syscall Unit := .perform (Op.putTaskStruct task)
def taskMm (task : TaskRef) : Syscall (Option MmRef) := .perform (Op.taskMm task)
def getTaskMm (task : TaskRef) : Syscall (Option MmRef) := .perform (Op.getTaskMm task)
def mmput (mm : MmRef) : Syscall Unit := .perform (Op.mmput mm)
def totalVm (mm : Option MmRef) : Syscall UnsignedLong := .perform (Op.totalVm mm)
def getMmRss (mm : Option MmRef) : Syscall UnsignedLong := .perform (Op.getMmRss mm)
def exitState (task : TaskRef) : Syscall Int := .perform (Op.exitState task)
def ioac (task : TaskRef) : Syscall TaskIoAccounting := .perform (Op.ioac task)
def oomScoreAdj (task : TaskRef) : Syscall (BitVec 16) := .perform (Op.oomScoreAdj task)
def forEachProcess : Syscall (List TaskRef) := .perform Op.forEachProcess
def siMeminfo : Syscall Meminfo := .perform Op.siMeminfo
def kmalloc : Syscall Bool := .perform Op.kmalloc
def stackSlot (slot : StackSlot) : Syscall ByteMemory := .perform (Op.stackSlot slot)

def globalNodePageState (item : NodeStatItem) : Syscall UnsignedLong :=
  .perform (Op.globalNodePageState item)

def listEntries (head : ListHead) : Syscall (List MemoryLimitationEntry) :=
  .perform (Op.listEntries head)

def setEntries (head : ListHead) (entries : List MemoryLimitationEntry) : Syscall Unit :=
  .perform (Op.setEntries head entries)

def listAdd (head : ListHead) (entry : MemoryLimitationEntry) : Syscall Unit :=
  .perform (Op.listAdd head entry)

def copyToUser (destination : Nat) (bytes : List Byte) : Syscall Nat :=
  .perform (Op.copyToUser destination bytes)

def divide (dividend divisor : UnsignedLong) : Syscall UnsignedLong :=
  .perform (Op.divide dividend divisor)

/-- The instruction that raises a divide error. -/
def divideError : Op → Bool
  | .divide _ divisor => divisor = 0
  | _ => false

/-- How the statistics calls end: the local structure goes to the caller, and
any byte left uncopied is `-EFAULT`. -/
def copyOut (destination : Nat) (bytes : List Byte) : Syscall Int := do
  let left ← copyToUser destination bytes
  if left ≠ 0 then pure (-efault) else pure 0

/-! ### Environment and machine -/

/-- A `copy_to_user` that does not complete. It leaves at least one byte
uncopied and may leave anything in its own destination range, as a function of
the memory it met and the bytes it was given. -/
structure Fault where
  left : Nat
  left_pos : 0 < left
  residue : ByteMemory → List Byte → Nat → Byte

/-- What the rest of the kernel answers during one call. `taskSizeMax` is the
end of the user address space, and `fault` tells whether a copy of a given
length to a given address faults. -/
structure Environment where
  capable : Bool
  kmalloc : Bool
  processes : List TaskRef
  task : TaskRef → TaskStruct
  mm : MmRef → MmStruct
  meminfo : Meminfo
  nodePages : NodeStatItem → UnsignedLong
  taskSizeMax : Nat
  fault : Nat → Nat → Option Fault
  stack : StackSlot → ByteMemory

/-- What the syscalls change. -/
structure Machine where
  heads : ListHead → List MemoryLimitationEntry
  user : ByteMemory

namespace Environment

variable (env : Environment)

/-- The task `pid_task(find_vpid(pid), PIDTYPE_PID)` finds. Every task is the
leader of its thread group here. -/
def lookup (pid : PidT) : Option TaskRef :=
  env.processes.find? fun task => (env.task task).pid == pid

/-- `get_task_mm`: no `mm` for a kernel thread, even if it borrows one. -/
def taskMm (task : TaskRef) : Option MmRef :=
  if (env.task task).kthread then none else (env.task task).mm

/-- `access_ok`: the range lies in the user address space. -/
def AccessOk (destination : Nat) (length : Nat) : Prop :=
  destination + length ≤ env.taskSizeMax

instance (destination : Nat) (length : Nat) :
    Decidable (env.AccessOk destination length) :=
  inferInstanceAs (Decidable (_ ≤ _))

def Copies (destination : Nat) (length : Nat) : Prop :=
  env.AccessOk destination length ∧ env.fault destination length = none

/-- Every copy into the region completes. -/
def Writable (base : Nat) (size : Nat) : Prop :=
  base + size ≤ env.taskSizeMax ∧
    ∀ destination length, base ≤ destination → destination + length ≤ base + size →
      env.fault destination length = none

def copyToUser (destination : Nat) (bytes : List Byte) (user : ByteMemory) :
    Nat × ByteMemory :=
  if env.AccessOk destination bytes.length then
    match env.fault destination bytes.length with
    | none => (0, user.store destination bytes)
    | some fault =>
        (fault.left,
          user.store destination ((List.range bytes.length).map (fault.residue user bytes)))
  else (bytes.length, user)

variable {env} {destination : Nat} {bytes : List Byte}

theorem Writable.copies {base : Nat} {size length : Nat} (writable : env.Writable base size)
    (lower : base ≤ destination) (upper : destination + length ≤ base + size) :
    env.Copies destination length :=
  ⟨Nat.le_trans upper writable.1, writable.2 destination length lower upper⟩

theorem copyToUser_of_copies (copies : env.Copies destination bytes.length) (user : ByteMemory) :
    env.copyToUser destination bytes user = (0, user.store destination bytes) := by
  unfold copyToUser
  rw [if_pos copies.1, copies.2]

/-- The code's test for zero bytes left tells exactly whether the copy
completed. -/
theorem copyToUser_left_eq_zero (nonempty : 0 < bytes.length) (user : ByteMemory) :
    (env.copyToUser destination bytes user).1 = 0 ↔ env.Copies destination bytes.length := by
  unfold copyToUser Copies
  by_cases access : env.AccessOk destination bytes.length
  · rw [if_pos access]
    cases faulted : env.fault destination bytes.length with
    | none => simp [access]
    | some fault => simp [Nat.ne_of_gt fault.left_pos]
  · rw [if_neg access]
    simp [access, Nat.ne_of_gt nonempty]

/-- Completed or not, a copy only touches its own destination range. -/
theorem copyToUser_outside {address : Nat}
    (outside : address < destination ∨ destination + bytes.length ≤ address) (user : ByteMemory) :
    (env.copyToUser destination bytes user).2 address = user address := by
  unfold copyToUser
  by_cases access : env.AccessOk destination bytes.length
  · rw [if_pos access]
    cases env.fault destination bytes.length with
    | none => exact ByteMemory.store_outside user outside
    | some fault => exact ByteMemory.store_outside user (by simpa using outside)
  · rw [if_neg access]

/-- Outside the user address space nothing is written. -/
theorem copyToUser_refused (refused : ¬ env.AccessOk destination bytes.length)
    (user : ByteMemory) :
    env.copyToUser destination bytes user = (bytes.length, user) := by
  unfold copyToUser
  rw [if_neg refused]

/-- A privileged caller on a machine with one process, of one page, under
`pid`; allocations and copies below the end of the user address space succeed. -/
def quiet (pid : PidT) : Environment where
  capable := true
  kmalloc := true
  processes := [1]
  task := fun _ => ⟨pid, 0, false, some 1, ⟨0, 0, 0, 0, 0, 0⟩, 0⟩
  mm := fun _ => ⟨1, 1⟩
  meminfo := ⟨0, 0, 0, 0, 0, 0, 1⟩
  nodePages := fun _ => 0
  taskSizeMax := 2 ^ 47 - 4096
  fault := fun _ _ => none
  stack := fun _ _ => 0

theorem quiet_writable {pid : PidT} {base size : Nat} (below : base + size ≤ 2 ^ 47 - 4096) :
    (quiet pid).Writable base size :=
  ⟨below, fun _ _ _ _ => rfl⟩

end Environment

namespace Machine

/-- Every list head is empty at boot. -/
def boot (user : ByteMemory) : Machine := ⟨fun _ => [], user⟩

def setHead (machine : Machine) (head : ListHead) (entries : List MemoryLimitationEntry) :
    Machine :=
  { machine with heads := Function.update machine.heads head entries }

end Machine

/-- The kernel's answer to each operation of a call that runs to completion. A
load through a null pointer and a division by zero have no meaning here; they
are answered by zero. -/
def kernel (env : Environment) : Program.Handler Op Reply Machine
  | .capable, machine => (env.capable, machine)
  | .rcuReadLock, machine => ((), machine)
  | .rcuReadUnlock, machine => ((), machine)
  | .findVpid pid, machine => (if (env.lookup pid).isSome then some pid else none, machine)
  | .pidTask pid, machine => (pid.bind env.lookup, machine)
  | .getPidTask pid, machine => (pid.bind env.lookup, machine)
  | .putTaskStruct _, machine => ((), machine)
  | .taskMm task, machine => ((env.task task).mm, machine)
  | .getTaskMm task, machine => (env.taskMm task, machine)
  | .mmput _, machine => ((), machine)
  | .totalVm mm, machine => ((mm.map fun ref => (env.mm ref).totalVm).getD 0, machine)
  | .getMmRss mm, machine => ((mm.map fun ref => (env.mm ref).rss).getD 0, machine)
  | .exitState task, machine => ((env.task task).exitState, machine)
  | .ioac task, machine => ((env.task task).ioac, machine)
  | .oomScoreAdj task, machine => ((env.task task).oomScoreAdj, machine)
  | .forEachProcess, machine => (env.processes, machine)
  | .siMeminfo, machine => (env.meminfo, machine)
  | .globalNodePageState item, machine => (env.nodePages item, machine)
  | .listEntries head, machine => (machine.heads head, machine)
  | .setEntries head entries, machine => ((), machine.setHead head entries)
  | .listAdd head entry, machine => ((), machine.setHead head (entry :: machine.heads head))
  | .kmalloc, machine => (env.kmalloc, machine)
  | .stackSlot slot, machine => (env.stack slot, machine)
  | .copyToUser destination bytes, machine =>
      ((env.copyToUser destination bytes machine.user).1,
        { machine with user := (env.copyToUser destination bytes machine.user).2 })
  | .divide dividend divisor, machine => (dividend / divisor, machine)

/-- A call that runs to completion: its result and the machine after it. -/
abbrev complete {α : Type} (env : Environment) (call : Syscall α) (machine : Machine) :
    α × Machine :=
  Program.run (kernel env) call machine

/-- The same call where a division by zero ends it: `none` for a divide error. -/
abbrev completeOrFault {α : Type} (env : Environment) (call : Syscall α) (machine : Machine) :
    Option (α × Machine) :=
  Program.attempt (kernel env) divideError call machine

section Completion

variable (env : Environment) (machine : Machine)

@[simp] theorem complete_capable : complete env capable machine = (env.capable, machine) := (rfl)

@[simp] theorem complete_rcuReadLock : complete env rcuReadLock machine = ((), machine) := (rfl)

@[simp] theorem complete_rcuReadUnlock : complete env rcuReadUnlock machine = ((), machine) := (rfl)

/-- Looking a number up in two steps finds the task that owns it. -/
theorem findVpid_bind_lookup (pid : PidT) :
    (complete env (findVpid pid) machine).1.bind env.lookup = env.lookup pid := by
  change (if (env.lookup pid).isSome then some pid else none).bind env.lookup = _
  cases found : env.lookup pid with
  | none => rfl
  | some task => simpa using found

@[simp] theorem complete_findVpid_snd (pid : PidT) :
    (complete env (findVpid pid) machine).2 = machine := (rfl)

@[simp] theorem complete_pidTask (pid : Option StructPid) :
    complete env (pidTask pid) machine = (pid.bind env.lookup, machine) := (rfl)

@[simp] theorem complete_getPidTask (pid : Option StructPid) :
    complete env (getPidTask pid) machine = (pid.bind env.lookup, machine) := (rfl)

@[simp] theorem complete_putTaskStruct (task : TaskRef) :
    complete env (putTaskStruct task) machine = ((), machine) := (rfl)

@[simp] theorem complete_taskMm (task : TaskRef) :
    complete env (taskMm task) machine = ((env.task task).mm, machine) := (rfl)

@[simp] theorem complete_getTaskMm (task : TaskRef) :
    complete env (getTaskMm task) machine = (env.taskMm task, machine) := (rfl)

@[simp] theorem complete_mmput (mm : MmRef) :
    complete env (mmput mm) machine = ((), machine) := (rfl)

@[simp] theorem complete_totalVm (mm : MmRef) :
    complete env (totalVm (some mm)) machine = ((env.mm mm).totalVm, machine) := (rfl)

@[simp] theorem complete_getMmRss (mm : MmRef) :
    complete env (getMmRss (some mm)) machine = ((env.mm mm).rss, machine) := (rfl)

@[simp] theorem complete_exitState (task : TaskRef) :
    complete env (exitState task) machine = ((env.task task).exitState, machine) := (rfl)

@[simp] theorem complete_ioac (task : TaskRef) :
    complete env (ioac task) machine = ((env.task task).ioac, machine) := (rfl)

@[simp] theorem complete_oomScoreAdj (task : TaskRef) :
    complete env (oomScoreAdj task) machine = ((env.task task).oomScoreAdj, machine) := (rfl)

@[simp] theorem complete_forEachProcess :
    complete env forEachProcess machine = (env.processes, machine) := (rfl)

@[simp] theorem complete_siMeminfo :
    complete env siMeminfo machine = (env.meminfo, machine) := (rfl)

@[simp] theorem complete_globalNodePageState (item : NodeStatItem) :
    complete env (globalNodePageState item) machine = (env.nodePages item, machine) := (rfl)

@[simp] theorem complete_listEntries (head : ListHead) :
    complete env (listEntries head) machine = (machine.heads head, machine) := (rfl)

@[simp] theorem complete_setEntries (head : ListHead) (entries : List MemoryLimitationEntry) :
    complete env (setEntries head entries) machine = ((), machine.setHead head entries) := (rfl)

@[simp] theorem complete_listAdd (head : ListHead) (entry : MemoryLimitationEntry) :
    complete env (listAdd head entry) machine =
      ((), machine.setHead head (entry :: machine.heads head)) := (rfl)

@[simp] theorem complete_kmalloc : complete env kmalloc machine = (env.kmalloc, machine) := (rfl)

@[simp] theorem complete_stackSlot (slot : StackSlot) :
    complete env (stackSlot slot) machine = (env.stack slot, machine) := (rfl)

@[simp] theorem complete_copyToUser (destination : Nat) (bytes : List Byte) :
    complete env (copyToUser destination bytes) machine =
      ((env.copyToUser destination bytes machine.user).1,
        { machine with user := (env.copyToUser destination bytes machine.user).2 }) := (rfl)

@[simp] theorem complete_divide (dividend divisor : UnsignedLong) :
    complete env (divide dividend divisor) machine = (dividend / divisor, machine) := (rfl)

theorem complete_copyOut (destination : Nat) (bytes : List Byte) :
    complete env (copyOut destination bytes) machine =
      (if (env.copyToUser destination bytes machine.user).1 = 0 then 0 else -efault,
        { machine with user := (env.copyToUser destination bytes machine.user).2 }) := by
  unfold copyOut
  simp only [Program.run_bind, complete_copyToUser]
  by_cases copied : (env.copyToUser destination bytes machine.user).1 = 0
  · simp [copied]
  · simp [copied]

theorem complete_copyOut_of_copies {env : Environment} {destination : Nat} {bytes : List Byte}
    (copies : env.Copies destination bytes.length) (machine : Machine) :
    complete env (copyOut destination bytes) machine =
      (0, { machine with user := machine.user.store destination bytes }) := by
  rw [complete_copyOut, Environment.copyToUser_of_copies copies, if_pos rfl]

end Completion

end UsacSyscalls.Kernel
