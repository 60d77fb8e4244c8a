import UsacSyscalls.Foundation.ByteMemory

/-!
Contract: the data the syscalls exchange with the kernel and with user space
on x86-64.

Owns the machine integer types, error numbers and page constants, the parts of
`task_struct`, `mm_struct` and the memory counters that the syscalls read, the
entries and list heads of the memory-limit files, and the byte layout of every
structure that is copied to user memory.

Does not own any operation on these data.
-/

set_option autoImplicit false

namespace UsacSyscalls.Kernel

open UsacSyscalls.Foundation

/-! ### Integers and addresses

`pid_t` is a signed 32-bit `int`. `size_t`, `unsigned long`,
`unsigned long long` and `u64` are all 64 bits wide. User addresses are natural
numbers and their sums are not reduced modulo `2 ^ 64`: a range that ends above
the user address space is refused before it could wrap. A task is identified by
the address of its `task_struct`, and a non-null `struct pid *` by the number it
was found under. -/

abbrev PidT := BitVec 32
abbrev SizeT := BitVec 64
abbrev UnsignedLong := BitVec 64
abbrev TaskRef := Nat
abbrev MmRef := Nat
abbrev StructPid := PidT

def eperm : Int := 1
def esrch : Int := 3
def enomem : Int := 12
def efault : Int := 14
def einval : Int := 22

def pageShift : Nat := 12
def pageSize : UnsignedLong := 4096
def exitZombie : Int := 0x20

/-! ### Kernel objects

`rss` is what `get_mm_rss` returns for the `mm`. `kthread` is the `PF_KTHREAD`
flag, and `oomScoreAdj` the `short` in `task->signal`. `Meminfo` holds the
values `si_meminfo` assigns. -/

structure MmStruct where
  totalVm : UnsignedLong
  rss : UnsignedLong
deriving DecidableEq, Repr

structure TaskIoAccounting where
  rchar : UnsignedLong
  wchar : UnsignedLong
  syscr : UnsignedLong
  syscw : UnsignedLong
  readBytes : UnsignedLong
  writeBytes : UnsignedLong
deriving DecidableEq, Repr

structure TaskStruct where
  pid : PidT
  exitState : Int
  kthread : Bool
  mm : Option MmRef
  ioac : TaskIoAccounting
  oomScoreAdj : BitVec 16
deriving DecidableEq, Repr

structure Meminfo where
  totalram : UnsignedLong
  sharedram : UnsignedLong
  freeram : UnsignedLong
  bufferram : UnsignedLong
  totalhigh : UnsignedLong
  freehigh : UnsignedLong
  memUnit : BitVec 32
deriving DecidableEq, Repr

inductive NodeStatItem where
  | nrFilePages
  | nrShmem
  | nrActiveFile
  | nrActiveAnon
  | nrInactiveFile
  | nrInactiveAnon
deriving DecidableEq, Repr

/-! ### The memory-limit lists

An entry's `list` member is its position in the list that holds it. Four files
declare `memory_limited_processes`; after linking there are three list heads. -/

structure MemoryLimitationEntry where
  pid : PidT
  memoryLimit : SizeT
deriving DecidableEq, Repr

inductive TranslationUnit where
  | addMemoryLimit
  | getMemoryLimits
  | updateMemoryLimit
  | removeMemoryLimit
deriving DecidableEq, Repr

inductive ListHead where
  | shared
  | updateStatic
  | removeStatic
deriving DecidableEq, Repr

/-- The object that the name `memory_limited_processes` denotes in each file:
`LIST_HEAD` has external linkage and `extern` refers to it, while each
`static LIST_HEAD` is an object of its own file. -/
def memoryLimitedProcesses : TranslationUnit → ListHead
  | .addMemoryLimit => .shared
  | .getMemoryLimits => .shared
  | .updateMemoryLimit => .updateStatic
  | .removeMemoryLimit => .removeStatic

/-! ### Uninitialised locals and structure members

The slots are the structure-typed locals declared without an initialiser:
`tmp` of `get_memory_limits`, `i` of `fill_memory_snapshot`, `snap` of
`capture_memory_snapshot`, `kernel_stats` of `get_io_throttle` and `kinfo` of
`memory_allocation_statistics`. -/

inductive StackSlot where
  | tmp
  | sysinfo
  | snap
  | kernelStats
  | kinfo
deriving DecidableEq, Repr

/-- Assign an integer member of `width` bytes at `offset`; only the bytes of
the member change. -/
def setField (object : ByteMemory) (offset width : Nat) {bits : Nat} (value : BitVec bits) :
    ByteMemory :=
  object.store offset (leBytes width value.toNat)

def getField (object : ByteMemory) (offset width : Nat) (bits : Nat) : BitVec bits :=
  BitVec.ofNat bits (object.loadLE offset width)

/-- A member of as many bytes as its value has, read back after it was stored. -/
theorem getField_eq {object : ByteMemory} {offset width bits : Nat} {value : BitVec bits}
    (bytes : bits = 8 * width)
    (stored : object.load offset width = leBytes width value.toNat) :
    getField object offset width bits = value := by
  have range : 2 ^ bits = 256 ^ width := by
    rw [bytes, Nat.pow_mul]
  have small : value.toNat < 256 ^ width := range ▸ value.isLt
  unfold getField
  rw [ByteMemory.loadLE_eq stored small, BitVec.ofNat_toNat, BitVec.setWidth_eq]

theorem getField_setField_self (object : ByteMemory) (offset : Nat) {width bits : Nat}
    (value : BitVec bits) (bytes : bits = 8 * width) :
    getField (setField object offset width value) offset width bits = value := by
  apply getField_eq bytes
  have stored := object.load_store_self offset (leBytes width value.toNat)
  rwa [leBytes_length] at stored

theorem getField_setField_apart (object : ByteMemory) {offset width other otherWidth : Nat}
    {bits otherBits : Nat} (value : BitVec bits)
    (apart : other + otherWidth ≤ offset ∨ offset + width ≤ other) :
    getField (setField object offset width value) other otherWidth otherBits =
      getField object other otherWidth otherBits := by
  unfold getField setField ByteMemory.loadLE
  rw [ByteMemory.load_store_disjoint object (by rwa [leBytes_length])]

/-- Members assigned in ascending order fill the object from its start. -/
theorem load_setField_append (object : ByteMemory) (offset width : Nat) {bits : Nat}
    (value : BitVec bits) :
    (setField object offset width value).load 0 (offset + width) =
      object.load 0 offset ++ leBytes width value.toNat := by
  have appended := object.load_store_append 0 offset (leBytes width value.toNat)
  rwa [leBytes_length, Nat.zero_add] at appended

/-- A member of a stored structure, read at its place in memory. -/
theorem getField_store_member (memory : ByteMemory) (base width : Nat) {bits : Nat}
    (value : BitVec bits) {stored : List Byte} (before after : List Byte)
    (layout : stored = before ++ (leBytes width value.toNat ++ after))
    (bytes : bits = 8 * width) :
    getField (memory.store base stored) (base + before.length) width bits = value := by
  subst layout
  apply getField_eq bytes
  have member := memory.load_store_middle base before (leBytes width value.toNat) after
  rwa [leBytes_length] at member

def sizeofMemoryLimitation : Nat := 16
def sizeofMemorySnapshot : Nat := 64
def sizeofIoStatsUser : Nat := 48
def sizeofTamallocProcInfo : Nat := 24
def sizeofTamallocGlobalInfo : Nat := 16

end UsacSyscalls.Kernel
