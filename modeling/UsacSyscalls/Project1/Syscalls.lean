import UsacSyscalls.Kernel.Operations

/-!
Contract: the snapshot and the I/O statistics syscalls, statement by statement.

Owns `capture_memory_snapshot` and `get_io_throttle` with the static functions
they call, the byte offsets of their structures, and what each call copies to
its caller as a function of the environment.

Does not own comparisons of runs with different stack contents; those are in
`Statistics`.
-/

set_option autoImplicit false

namespace UsacSyscalls.Project1

open UsacSyscalls.Foundation
open UsacSyscalls.Kernel

/-! ### `capture_memory_snapshot`

Offsets in `struct sysinfo`: `totalram` 32, `freeram` 40, `sharedram` 48,
`bufferram` 56, `totalswap` 64, `freeswap` 72, `totalhigh` 88, `freehigh` 96,
`mem_unit` 104. The members of `struct memory_snapshot` are eight bytes each,
in the order in which they are assigned. -/

/-- The effect of `si_meminfo` on its argument. -/
def assignMeminfo (i : ByteMemory) (meminfo : Meminfo) : ByteMemory :=
  let i := setField i 32 8 meminfo.totalram
  let i := setField i 48 8 meminfo.sharedram
  let i := setField i 40 8 meminfo.freeram
  let i := setField i 56 8 meminfo.bufferram
  let i := setField i 88 8 meminfo.totalhigh
  let i := setField i 96 8 meminfo.freehigh
  setField i 104 4 meminfo.memUnit

def fillMemorySnapshot (snap : ByteMemory) : Syscall ByteMemory := do
  let uninitialised ← stackSlot .sysinfo
  let meminfo ← siMeminfo
  let i := assignMeminfo uninitialised meminfo
  let bufferram : UnsignedLong := getField i 56 8 64
  let filePages ← globalNodePageState .nrFilePages
  let shmem ← globalNodePageState .nrShmem
  let activeFile ← globalNodePageState .nrActiveFile
  let activeAnon ← globalNodePageState .nrActiveAnon
  let inactiveFile ← globalNodePageState .nrInactiveFile
  let inactiveAnon ← globalNodePageState .nrInactiveAnon
  let snap := setField snap 0 8 (getField i 32 8 64)
  let snap := setField snap 8 8 (getField i 40 8 64)
  let snap := setField snap 16 8 (getField i 64 8 64)
  let snap := setField snap 24 8 (getField i 72 8 64)
  let snap := setField snap 32 8 (filePages - shmem - bufferram)
  let snap := setField snap 40 8 bufferram
  let snap := setField snap 48 8 (activeFile + activeAnon)
  pure (setField snap 56 8 (inactiveFile + inactiveAnon))

def captureMemorySnapshot (userSnap : Nat) : Syscall Int := do
  let uninitialised ← stackSlot .snap
  let snap ← fillMemorySnapshot uninitialised
  copyOut userSnap (snap.load 0 sizeofMemorySnapshot)

/-! ### `get_io_throttle` -/

def getIoStatsForPid (pid : PidT) (stats : ByteMemory) : Syscall (Int × ByteMemory) := do
  rcuReadLock
  let found ← findVpid pid
  match ← pidTask found with
  | none => do
      rcuReadUnlock
      pure (-esrch, stats)
  | some task => do
      let accounting ← ioac task
      let stats := setField stats 0 8 accounting.rchar
      let stats := setField stats 8 8 accounting.wchar
      let stats := setField stats 16 8 accounting.syscr
      let stats := setField stats 24 8 accounting.syscw
      let stats := setField stats 32 8 accounting.readBytes
      let stats := setField stats 40 8 accounting.writeBytes
      rcuReadUnlock
      pure (0, stats)

def getIoThrottle (pid : PidT) (userStats : Nat) : Syscall Int := do
  let uninitialised ← stackSlot .kernelStats
  let (ret, kernelStats) ← getIoStatsForPid pid uninitialised
  if ret < 0 then pure ret
  else copyOut userStats (kernelStats.load 0 sizeofIoStatsUser)

/-! ### What is copied -/

/-- The two swap members of `i`, which `si_meminfo` does not assign. -/
def staleSwap (env : Environment) : UnsignedLong × UnsignedLong :=
  (getField (env.stack .sysinfo) 64 8 64, getField (env.stack .sysinfo) 72 8 64)

def snapshotBytes (env : Environment) : List Byte :=
  leBytes 8 env.meminfo.totalram.toNat ++ leBytes 8 env.meminfo.freeram.toNat ++
    leBytes 8 (staleSwap env).1.toNat ++ leBytes 8 (staleSwap env).2.toNat ++
    leBytes 8 (env.nodePages .nrFilePages - env.nodePages .nrShmem -
      env.meminfo.bufferram).toNat ++
    leBytes 8 env.meminfo.bufferram.toNat ++
    leBytes 8 (env.nodePages .nrActiveFile + env.nodePages .nrActiveAnon).toNat ++
    leBytes 8 (env.nodePages .nrInactiveFile + env.nodePages .nrInactiveAnon).toNat

def ioStatsBytes (accounting : TaskIoAccounting) : List Byte :=
  leBytes 8 accounting.rchar.toNat ++ leBytes 8 accounting.wchar.toNat ++
    leBytes 8 accounting.syscr.toNat ++ leBytes 8 accounting.syscw.toNat ++
    leBytes 8 accounting.readBytes.toNat ++ leBytes 8 accounting.writeBytes.toNat

theorem snapshotBytes_length (env : Environment) :
    (snapshotBytes env).length = sizeofMemorySnapshot := by
  simp [snapshotBytes, sizeofMemorySnapshot]

/-- The members of `i` that are read after `si_meminfo`: three it assigned and
two it did not. -/
theorem assignMeminfo_members (i : ByteMemory) (meminfo : Meminfo) :
    getField (assignMeminfo i meminfo) 32 8 64 = meminfo.totalram ∧
      getField (assignMeminfo i meminfo) 40 8 64 = meminfo.freeram ∧
      getField (assignMeminfo i meminfo) 56 8 64 = meminfo.bufferram ∧
      getField (assignMeminfo i meminfo) 64 8 64 = getField i 64 8 64 ∧
      getField (assignMeminfo i meminfo) 72 8 64 = getField i 72 8 64 := by
  unfold assignMeminfo
  refine ⟨?_, ?_, ?_, ?_, ?_⟩ <;>
    simp only [getField_setField_apart, getField_setField_self, Nat.reduceLeDiff, Nat.reduceAdd,
      Nat.reduceMul, or_true, true_or]

section Outcomes

variable (env : Environment) (machine : Machine)

theorem complete_fillMemorySnapshot (snap : ByteMemory) :
    (complete env (fillMemorySnapshot snap) machine).1.load 0 sizeofMemorySnapshot =
        snapshotBytes env ∧
      (complete env (fillMemorySnapshot snap) machine).2 = machine := by
  obtain ⟨totalram, freeram, bufferram, totalswap, freeswap⟩ :=
    assignMeminfo_members (env.stack .sysinfo) env.meminfo
  unfold fillMemorySnapshot
  simp only [Program.run_bind, complete_stackSlot, complete_siMeminfo,
    complete_globalNodePageState, Program.run_pure, totalram, freeram, bufferram, totalswap,
    freeswap, and_true]
  unfold sizeofMemorySnapshot
  rw [load_setField_append, load_setField_append, load_setField_append, load_setField_append,
    load_setField_append, load_setField_append, load_setField_append, load_setField_append]
  rfl

/-- The snapshot is copied whatever its own stack memory held before. -/
theorem complete_captureMemorySnapshot (userSnap : Nat) :
    complete env (captureMemorySnapshot userSnap) machine =
      complete env (copyOut userSnap (snapshotBytes env)) machine := by
  obtain ⟨bytes, unchanged⟩ := complete_fillMemorySnapshot env machine (env.stack .snap)
  unfold captureMemorySnapshot
  simp only [Program.run_bind, complete_stackSlot, bytes, unchanged]

theorem complete_getIoStatsForPid (pid : PidT) (stats : ByteMemory) :
    match env.lookup pid with
    | none => complete env (getIoStatsForPid pid stats) machine = ((-esrch, stats), machine)
    | some task =>
        (complete env (getIoStatsForPid pid stats) machine).1.1 = 0 ∧
          (complete env (getIoStatsForPid pid stats) machine).1.2.load 0 sizeofIoStatsUser =
            ioStatsBytes (env.task task).ioac ∧
          (complete env (getIoStatsForPid pid stats) machine).2 = machine := by
  unfold getIoStatsForPid
  simp only [Program.run_bind, complete_rcuReadLock, complete_pidTask, complete_findVpid_snd,
    findVpid_bind_lookup]
  cases env.lookup pid with
  | none => simp only [Program.run_bind, complete_rcuReadUnlock, Program.run_pure]
  | some task =>
      simp only [Program.run_bind, complete_ioac, complete_rcuReadUnlock, Program.run_pure,
        true_and, and_true]
      unfold sizeofIoStatsUser
      rw [load_setField_append, load_setField_append, load_setField_append,
        load_setField_append, load_setField_append, load_setField_append]
      rfl

theorem complete_getIoThrottle (pid : PidT) (userStats : Nat) :
    complete env (getIoThrottle pid userStats) machine =
      match env.lookup pid with
      | none => (-esrch, machine)
      | some task =>
          complete env (copyOut userStats (ioStatsBytes (env.task task).ioac)) machine := by
  have stats := complete_getIoStatsForPid env machine pid (env.stack .kernelStats)
  unfold getIoThrottle
  simp only [Program.run_bind, complete_stackSlot]
  cases found : env.lookup pid with
  | none =>
      simp only [found] at stats
      simp [stats, esrch]
  | some task =>
      simp only [found] at stats
      obtain ⟨ret, bytes, unchanged⟩ := stats
      simp [ret, bytes, unchanged]

end Outcomes

end UsacSyscalls.Project1
