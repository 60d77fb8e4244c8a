import Mathlib.Data.BitVec
import UsacSyscalls.Project1.ProcModules
import UsacSyscalls.Project1.Syscalls

/-!
Contract: the cache figure of both memory snapshots while the counters change.

Owns the runs of the syscall and of the `/proc` file in which every kernel call
may see different counters, the instants at which each of them reads the three
counters of the cache figure, and how far the counters may move after
`si_meminfo` for the figure not to wrap around.

Does not own figures that are read at one instant.
-/

set_option autoImplicit false

namespace UsacSyscalls.Project1

open UsacSyscalls.Foundation
open UsacSyscalls.Kernel

/-! ### Counters -/

/-- The counters of the cache figure, in pages. -/
structure CacheCounters where
  totalram : UnsignedLong
  bufferram : UnsignedLong
  filePages : UnsignedLong
  shmem : UnsignedLong
deriving DecidableEq, Repr

def cacheCounters (env : Environment) : CacheCounters where
  totalram := env.meminfo.totalram
  bufferram := env.meminfo.bufferram
  filePages := env.nodePages .nrFilePages
  shmem := env.nodePages .nrShmem

/-- At any instant shared memory and buffers are part of the page cache, and the
page cache is part of the memory. -/
def CacheCounters.Consistent (counters : CacheCounters) : Prop :=
  counters.shmem.toNat + counters.bufferram.toNat ≤ counters.filePages.toNat ∧
    counters.filePages.toNat ≤ counters.totalram.toNat

instance (counters : CacheCounters) : Decidable counters.Consistent :=
  inferInstanceAs (Decidable (_ ∧ _))

/-! ### Readers -/

inductive SnapshotReader where
  | syscall
  | procFile (orders : Orders)
deriving DecidableEq, Repr

/-- The instants of `si_meminfo`, which tells the total and the buffers, and of
the two counter reads. -/
structure Instants where
  meminfo : Nat
  filePages : Nat
  shmem : Nat
deriving DecidableEq, Repr

/-- The syscall performs its first kernel call for its stack memory. -/
def SnapshotReader.instants : SnapshotReader → Instants
  | .syscall => ⟨1, 2, 3⟩
  | .procFile ⟨.leftFirst, _, _⟩ => ⟨0, 1, 2⟩
  | .procFile ⟨.rightFirst, _, _⟩ => ⟨0, 2, 1⟩

/-- The two figures of a snapshot that are compared here. -/
structure CacheReport where
  totalRam : UnsignedLong
  cacheRam : UnsignedLong
deriving DecidableEq, Repr

/-- What the reader reports, from members 0 and 32 of `snap` for the syscall. -/
def SnapshotReader.report (evolution : Nat → ProcEnvironment) (machine : Machine)
    (snap : ByteMemory) (file : SeqFile) : SnapshotReader → CacheReport
  | .syscall =>
      let filled := Program.run (Program.evolving fun time => kernel (evolution time).toEnvironment)
        (fillMemorySnapshot snap) (machine, 0)
      ⟨getField filled.1 0 8 64, getField filled.1 32 8 64⟩
  | .procFile orders =>
      let read := Program.run (Program.evolving fun time => procfs (evolution time))
        (readMemSnapshot orders) (file, 0)
      ⟨read.1.totalRam, read.1.cacheRam⟩

section Readers

variable (evolution : Nat → ProcEnvironment)

/-- The counters when `si_meminfo` runs. -/
def SnapshotReader.atMeminfo (reader : SnapshotReader) : CacheCounters :=
  cacheCounters (evolution reader.instants.meminfo).toEnvironment

/-- `file_pages` when it is read. -/
def SnapshotReader.filePages (reader : SnapshotReader) : UnsignedLong :=
  (cacheCounters (evolution reader.instants.filePages).toEnvironment).filePages

/-- `shmem` when it is read. -/
def SnapshotReader.shmem (reader : SnapshotReader) : UnsignedLong :=
  (cacheCounters (evolution reader.instants.shmem).toEnvironment).shmem

/-- What the reader reports, each counter at its own instant. -/
theorem report_eq (machine : Machine) (snap : ByteMemory) (file : SeqFile)
    (reader : SnapshotReader) :
    reader.report evolution machine snap file =
      ⟨(reader.atMeminfo evolution).totalram,
        reader.filePages evolution - reader.shmem evolution -
          (reader.atMeminfo evolution).bufferram⟩ := by
  cases reader with
  | syscall =>
      obtain ⟨totalram, _, bufferram, _, _⟩ :=
        assignMeminfo_members ((evolution 0).stack .sysinfo) (evolution 1).meminfo
      simp only [SnapshotReader.report, fillMemorySnapshot, Program.run_bind,
        Program.run_pure, stackSlot, siMeminfo, globalNodePageState, Program.run_perform,
        Program.evolving, kernel]
      simp only [getField_setField_apart, getField_setField_self, Nat.reduceLeDiff, Nat.reduceAdd,
        Nat.reduceMul, true_or, totalram, bufferram]
      rfl
  | procFile orders =>
      rcases orders with ⟨_ | _, active, inactive⟩
      all_goals
        simp only [SnapshotReader.report, readMemSnapshot, readBoth, procMeminfo,
          nodePageState, Program.run_bind, Program.run_perform, Program.run_pure]
        rfl

/-! ### How the counters move -/

/-- How far the page cache exceeds shared memory and buffers. -/
def CacheCounters.slack (counters : CacheCounters) : Int :=
  counters.filePages.toNat - counters.shmem.toNat - counters.bufferram.toNat

/-- The fall of the page cache from `si_meminfo` to its own read and the growth
of shared memory from `si_meminfo` to its own read, together. -/
def SnapshotReader.loss (reader : SnapshotReader) : Int :=
  ((reader.atMeminfo evolution).filePages.toNat - (reader.filePages evolution).toNat) +
    ((reader.shmem evolution).toNat - (reader.atMeminfo evolution).shmem.toNat)

/-- The counters lose no more than the slack there was, and gain no more than the
reported memory leaves beside it. The gain only matters if memory is added while
the snapshot is taken. -/
structure MovesLittle (reader : SnapshotReader) : Prop where
  loss : reader.loss evolution ≤ (reader.atMeminfo evolution).slack
  gain : -reader.loss evolution ≤
    (reader.atMeminfo evolution).totalram.toNat - (reader.atMeminfo evolution).slack

/-! ### The figure -/

/-- The subtraction does not wrap around, and the figure is at most the total
reported with it. -/
structure CacheRight (reader : SnapshotReader) (report : CacheReport) : Prop where
  exact : (report.cacheRam.toNat : Int) = (reader.filePages evolution).toNat -
    (reader.shmem evolution).toNat - (reader.atMeminfo evolution).bufferram.toNat
  bounded : report.cacheRam.toNat ≤ report.totalRam.toNat

end Readers

/-- A difference on 64 bits is the difference of the numbers, or it is off by a
multiple of `2 ^ 64`. -/
theorem toNat_sub_sub_cases (filePages shmem bufferram : UnsignedLong) :
    let difference : Int := filePages.toNat - shmem.toNat - bufferram.toNat
    let figure : Int := (filePages - shmem - bufferram).toNat
    0 ≤ difference ∧ figure = difference ∨
      difference < 0 ∧ (figure = difference + 2 ^ 64 ∨ figure = difference + 2 * 2 ^ 64) := by
  intro difference figure
  have filePagesBound := filePages.isLt
  have shmemBound := shmem.isLt
  have bufferramBound := bufferram.isLt
  have value : (filePages - shmem - bufferram).toNat =
      (2 ^ 64 - bufferram.toNat + (2 ^ 64 - shmem.toNat + filePages.toNat) % 2 ^ 64) % 2 ^ 64 := by
    rw [BitVec.toNat_sub, BitVec.toNat_sub]
  simp only [figure, difference]
  omega

section Evolution

variable {evolution : Nat → ProcEnvironment}

/-- What is left of the slack when the counters have been read. -/
theorem slack_sub_loss (reader : SnapshotReader) :
    (reader.atMeminfo evolution).slack - reader.loss evolution =
      (reader.filePages evolution).toNat - (reader.shmem evolution).toNat -
        (reader.atMeminfo evolution).bufferram.toNat := by
  unfold CacheCounters.slack SnapshotReader.loss
  omega

variable (machine : Machine) (snap : ByteMemory) (file : SeqFile) (reader : SnapshotReader)

theorem cacheRight_iff_movesLittle :
    CacheRight evolution reader (reader.report evolution machine snap file) ↔
      MovesLittle evolution reader := by
  have cases := toNat_sub_sub_cases (reader.filePages evolution) (reader.shmem evolution)
    (reader.atMeminfo evolution).bufferram
  have left : (reader.atMeminfo evolution).slack - reader.loss evolution = _ :=
    slack_sub_loss reader
  rw [report_eq]
  constructor
  · rintro ⟨exactly, bounded⟩
    simp only at exactly bounded
    have total := Int.ofNat_le.mpr bounded
    constructor
    · omega
    · omega
  · rintro ⟨loss, gain⟩
    have exactly : ((reader.filePages evolution - reader.shmem evolution -
        (reader.atMeminfo evolution).bufferram).toNat : Int) =
          (reader.filePages evolution).toNat - (reader.shmem evolution).toNat -
            (reader.atMeminfo evolution).bufferram.toNat := by omega
    refine ⟨exactly, Int.ofNat_le.mp ?_⟩
    simp only
    omega

/-- On a machine with less than `2 ^ 62` pages a figure that wrapped around is
larger than the total, so the report shows it. -/
theorem bounded_iff_movesLittle
    (consistent : ∀ time, (cacheCounters (evolution time).toEnvironment).Consistent)
    (fits : ∀ time, (evolution time).meminfo.totalram.toNat < 2 ^ 62) :
    (reader.report evolution machine snap file).cacheRam.toNat ≤
        (reader.report evolution machine snap file).totalRam.toNat ↔
      MovesLittle evolution reader := by
  have cases := toNat_sub_sub_cases (reader.filePages evolution) (reader.shmem evolution)
    (reader.atMeminfo evolution).bufferram
  have shmemSmall : (reader.shmem evolution).toNat < 2 ^ 62 := by
    obtain ⟨inside, below⟩ := consistent reader.instants.shmem
    have total := fits reader.instants.shmem
    exact Nat.lt_of_le_of_lt (Nat.le_trans (Nat.le_trans (Nat.le_add_right _ _) inside) below) total
  have totalSmall : (reader.atMeminfo evolution).totalram.toNat < 2 ^ 62 :=
    fits reader.instants.meminfo
  have bufferramSmall : (reader.atMeminfo evolution).bufferram.toNat < 2 ^ 62 := by
    obtain ⟨inside, below⟩ := consistent reader.instants.meminfo
    exact Nat.lt_of_le_of_lt (Nat.le_trans (Nat.le_trans (Nat.le_add_left _ _) inside) below)
      totalSmall
  constructor
  · intro bounded
    apply (cacheRight_iff_movesLittle machine snap file reader).mp
    refine ⟨?_, bounded⟩
    rw [report_eq] at bounded ⊢
    simp only at bounded ⊢
    omega
  · intro moves
    exact ((cacheRight_iff_movesLittle machine snap file reader).mpr moves).bounded

end Evolution

/-- While the counters evolve through consistent states, the figure of either
reader is right exactly when page cache and shared memory move little enough
after `si_meminfo`; below `2 ^ 62` pages of memory that is also exactly when the
report shows no more cache than memory. -/
theorem cacheRam_right_iff {evolution : Nat → ProcEnvironment}
    (consistent : ∀ time, (cacheCounters (evolution time).toEnvironment).Consistent)
    (machine : Machine) (snap : ByteMemory) (file : SeqFile) (reader : SnapshotReader) :
    (CacheRight evolution reader (reader.report evolution machine snap file) ↔
        MovesLittle evolution reader) ∧
      ((∀ time, (evolution time).meminfo.totalram.toNat < 2 ^ 62) →
        ((reader.report evolution machine snap file).cacheRam.toNat ≤
            (reader.report evolution machine snap file).totalRam.toNat ↔
          MovesLittle evolution reader)) :=
  ⟨cacheRight_iff_movesLittle machine snap file reader,
    bounded_iff_movesLittle machine snap file reader consistent⟩

/-- Counters of 1000 pages of memory. -/
def countersOf (bufferram filePages shmem : UnsignedLong) : ProcEnvironment :=
  { Environment.quiet 7 with
    meminfo := ⟨1000, 0, 0, bufferram, 0, 0, 4096⟩
    nodePages := fun item =>
      match item with
      | .nrFilePages => filePages
      | .nrShmem => shmem
      | _ => 0
    cpus := []
    cpustat := fun _ _ => 0
    path := fun _ => .ok 0
    statfs := fun _ => .ok ⟨0, 0, 4096⟩ }

/-- The page cache shrinks and shared memory grows at every read, by less than
the slack of 200 pages in all. -/
def drifting (instant : Nat) (time : Nat) : ProcEnvironment :=
  if time < instant then countersOf 100 500 200
  else if time = instant then countersOf 90 450 210
  else countersOf 50 400 250

theorem drifting_consistent (instant time : Nat) :
    (cacheCounters (drifting instant time).toEnvironment).Consistent := by
  unfold drifting
  split
  · decide
  · split <;> decide

/-- The syscall reads 450 and 250 pages, the file 400 and 210, both after 100
pages of buffers. -/
theorem cacheRam_right_of_drifting_counters :
    CacheRight (drifting 2) .syscall ⟨1000, 100⟩ ∧
      CacheRight (drifting 1) (.procFile ⟨.rightFirst, .leftFirst, .leftFirst⟩) ⟨1000, 90⟩ := by
  have syscall := (cacheRam_right_iff (drifting_consistent 2) (.boot fun _ => 0) (fun _ => 0)
    ⟨[], 0⟩ .syscall).1.mpr ⟨by decide, by decide⟩
  have procFile := (cacheRam_right_iff (drifting_consistent 1) (.boot fun _ => 0) (fun _ => 0)
    ⟨[], 0⟩ (.procFile ⟨.rightFirst, .leftFirst, .leftFirst⟩)).1.mpr ⟨by decide, by decide⟩
  rw [report_eq] at syscall procFile
  exact ⟨syscall, procFile⟩

/-- The page cache shrinks to its shared memory right after the buffers have
been counted. -/
def shrinking (instant : Nat) (time : Nat) : ProcEnvironment :=
  if time < instant then countersOf 100 500 200 else countersOf 0 50 40

theorem shrinking_consistent (instant time : Nat) :
    (cacheCounters (shrinking instant time).toEnvironment).Consistent := by
  unfold shrinking
  split <;> decide

/-- Every state is consistent, and each reader reports `2 ^ 64 - 90` pages of
cache on a machine with 1000 pages. -/
theorem cacheRam_wraps_when_cache_shrinks :
    (∀ instant time, (cacheCounters (shrinking instant time).toEnvironment).Consistent) ∧
      SnapshotReader.syscall.report (shrinking 2) (.boot fun _ => 0) (fun _ => 0) ⟨[], 0⟩ =
        ⟨1000, -90⟩ ∧
      (SnapshotReader.procFile ⟨.leftFirst, .leftFirst, .leftFirst⟩).report (shrinking 1)
        (.boot fun _ => 0) (fun _ => 0) ⟨[], 0⟩ = ⟨1000, -90⟩ ∧
      (SnapshotReader.procFile ⟨.rightFirst, .leftFirst, .leftFirst⟩).report (shrinking 1)
        (.boot fun _ => 0) (fun _ => 0) ⟨[], 0⟩ = ⟨1000, -90⟩ ∧
      ¬ CacheRight (shrinking 2) .syscall ⟨1000, -90⟩ ∧
      ¬ CacheRight (shrinking 1) (.procFile ⟨.leftFirst, .leftFirst, .leftFirst⟩) ⟨1000, -90⟩ ∧
      ¬ CacheRight (shrinking 1) (.procFile ⟨.rightFirst, .leftFirst, .leftFirst⟩)
        ⟨1000, -90⟩ := by
  refine ⟨shrinking_consistent, ?_, ?_, ?_, ?_, ?_, ?_⟩
  · rw [report_eq]
    decide
  · rw [report_eq]
    decide
  · rw [report_eq]
    decide
  all_goals
    intro right
    exact absurd right.bounded (by decide)

end UsacSyscalls.Project1
