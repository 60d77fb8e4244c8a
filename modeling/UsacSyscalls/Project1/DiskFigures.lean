import Mathlib.Data.BitVec
import UsacSyscalls.Project1.ProcModules

/-!
Contract: the sizes that the system statistics report, and the reports as a
whole.

Owns the exact inputs for which every size of the disk and the memory part is
right and free never exceeds total, and the completeness of both files.

Does not own the lines that are printed; those are in `ProcModules`.
-/

set_option autoImplicit false

namespace UsacSyscalls.Project1

open UsacSyscalls.Foundation
open UsacSyscalls.Kernel

/-! ### Figures -/

/-- The three columns are the byte count in units of `2 ^ 10`, `2 ^ 20` and
`2 ^ 30`, rounded down. -/
structure SizeRight (line : SizeLine) (bytes : Nat) : Prop where
  kb : line.kb.toNat = bytes / 2 ^ 10
  mb : line.mb.toNat = bytes / 2 ^ 20
  gb : line.gb.toNat = bytes / 2 ^ 30

/-- A line is right exactly when its byte count fits in 64 bits. -/
theorem sizeLine_right_iff (label : String) (count unit : BitVec 64) :
    SizeRight (sizeLine label count unit) (count.toNat * unit.toNat) ↔
      count.toNat * unit.toNat < 2 ^ 64 := by
  have kb : (sizeLine label count unit).kb.toNat = count.toNat * unit.toNat % 2 ^ 64 / 1024 := by
    simp [sizeLine]
  have mb : (sizeLine label count unit).mb.toNat =
      (sizeLine label count unit).kb.toNat / 1024 := by
    simp [sizeLine, Nat.shiftRight_eq_div_pow]
  have gb : (sizeLine label count unit).gb.toNat =
      (sizeLine label count unit).mb.toNat / 1024 := by
    simp only [sizeLine, BitVec.toNat_ushiftRight, Nat.shiftRight_eq_div_pow, Nat.reducePow]
  generalize count.toNat * unit.toNat = bytes at kb ⊢
  constructor
  · intro right
    have column := right.kb
    omega
  · intro fits
    refine ⟨?_, ?_, ?_⟩ <;> omega

/-- Both lines are right and free exceeds total in no column. -/
structure SizesRight (total free : SizeLine) (totalBytes freeBytes : Nat) : Prop where
  totalRight : SizeRight total totalBytes
  freeRight : SizeRight free freeBytes
  kb : free.kb ≤ total.kb
  mb : free.mb ≤ total.mb
  gb : free.gb ≤ total.gb

/-- With free at most total, it only takes the total byte count to fit. -/
theorem sizesRight_iff {totalLabel freeLabel : String} {count free unit : BitVec 64}
    (bounded : free ≤ count) :
    SizesRight (sizeLine totalLabel count unit) (sizeLine freeLabel free unit)
        (count.toNat * unit.toNat) (free.toNat * unit.toNat) ↔
      count.toNat * unit.toNat < 2 ^ 64 := by
  have smaller : free.toNat * unit.toNat ≤ count.toNat * unit.toNat :=
    Nat.mul_le_mul_right _ bounded
  have totalRight := sizeLine_right_iff totalLabel count unit
  have freeRight := sizeLine_right_iff freeLabel free unit
  constructor
  · intro right
    exact totalRight.mp right.totalRight
  · intro fits
    have total := totalRight.mpr fits
    have free := freeRight.mpr (Nat.lt_of_le_of_lt smaller fits)
    refine ⟨total, free, ?_, ?_, ?_⟩
    · rw [BitVec.le_def, total.kb, free.kb]
      exact Nat.div_le_div_right smaller
    · rw [BitVec.le_def, total.mb, free.mb]
      exact Nat.div_le_div_right smaller
    · rw [BitVec.le_def, total.gb, free.gb]
      exact Nat.div_le_div_right smaller

/-- What the disk part prints for a file system with positive block size is
right exactly when the file system has less than `2 ^ 64` bytes. -/
theorem disk_sizes_right_iff {env : ProcEnvironment} {partition : String} {path : PathRef}
    {stat : Kstatfs} (found : env.path partition = .ok path)
    (answered : env.statfs path = .ok stat) (bounded : stat.fBfree ≤ stat.fBlocks)
    (positive : 0 < stat.fBsize.toInt) (file : SeqFile) :
    ∃ total free : SizeLine,
      Program.run (procfs env) (getDiskInfo partition) file =
          (0, file.print [.size total, .size free]) ∧
        (SizesRight total free (stat.fBlocks.toNat * stat.fBsize.toInt.toNat)
            (stat.fBfree.toNat * stat.fBsize.toInt.toNat) ↔
          stat.fBlocks.toNat * stat.fBsize.toInt.toNat < 2 ^ 64) := by
  have unsigned : stat.fBsize.toInt.toNat = stat.fBsize.toNat := by
    have cases := BitVec.toInt_eq_toNat_cond stat.fBsize
    have small := stat.fBsize.isLt
    split at cases <;> omega
  refine ⟨sizeLine "Disk Total" stat.fBlocks stat.fBsize,
    sizeLine "Disk Free" stat.fBfree stat.fBsize, ?_, ?_⟩
  · rw [run_getDiskInfo, found]
    simp only [Except.bind, answered]
    rfl
  · rw [unsigned]
    exact sizesRight_iff bounded

/-- A machine whose root file system answers with `stat`. -/
def mounted (stat : Kstatfs) : ProcEnvironment :=
  { Environment.quiet 7 with
    cpus := []
    cpustat := fun _ _ => 0
    path := fun _ => .ok 0
    statfs := fun _ => .ok stat }

/-- One million blocks of 4096 bytes, a quarter of them free. -/
theorem disk_sizes_right_for_small_disk :
    ∃ total free : SizeLine,
      Program.run (procfs (mounted ⟨1000000, 250000, 4096⟩)) (getDiskInfo "/") ⟨[], 0⟩ =
          (0, ⟨[.size total, .size free], 0⟩) ∧
        SizesRight total free 4096000000 1024000000 := by
  have found : (mounted ⟨1000000, 250000, 4096⟩).path "/" = .ok 0 := rfl
  have answered : (mounted ⟨1000000, 250000, 4096⟩).statfs 0 = .ok ⟨1000000, 250000, 4096⟩ := rfl
  obtain ⟨total, free, printed, right⟩ :=
    disk_sizes_right_iff found answered (by decide) (by decide) ⟨[], 0⟩
  exact ⟨total, free, printed, right.mpr (by decide)⟩

/-- A file system of `2 ^ 52` blocks of 4096 bytes with all but one free: no
kilobytes in total, and `2 ^ 54 - 4` of them free. -/
theorem disk_sizes_wrong_for_large_disk :
    Program.run (procfs (mounted ⟨0x10000000000000, 0xfffffffffffff, 4096⟩)) (getDiskInfo "/")
          ⟨[], 0⟩ =
        (0, ⟨[.size ⟨"Disk Total", 0, 0, 0⟩,
          .size ⟨"Disk Free", 0x3ffffffffffffc, 0xfffffffffff, 0x3ffffffff⟩], 0⟩) ∧
      ¬ SizesRight ⟨"Disk Total", 0, 0, 0⟩
        ⟨"Disk Free", 0x3ffffffffffffc, 0xfffffffffff, 0x3ffffffff⟩
        (0x10000000000000 * 4096) (0xfffffffffffff * 4096) := by
  refine ⟨by decide, ?_⟩
  intro right
  exact absurd right.kb (by decide)

/-! ### The whole reports -/

/-- The memory part has the same limit, at `2 ^ 64` bytes of memory. -/
theorem memory_sizes_right_iff {env : ProcEnvironment}
    (bounded : env.meminfo.freeram ≤ env.meminfo.totalram) :
    ∃ total free : SizeLine, memoryLines env = [.size total, .size free] ∧
      (SizesRight total free (env.meminfo.totalram.toNat * env.meminfo.memUnit.toNat)
          (env.meminfo.freeram.toNat * env.meminfo.memUnit.toNat) ↔
        env.meminfo.totalram.toNat * env.meminfo.memUnit.toNat < 2 ^ 64) := by
  have widened : (env.meminfo.memUnit.setWidth 64).toNat = env.meminfo.memUnit.toNat := by
    have small := env.meminfo.memUnit.isLt
    rw [BitVec.toNat_setWidth, Nat.mod_eq_of_lt (by omega)]
  refine ⟨_, _, rfl, ?_⟩
  rw [← widened]
  exact sizesRight_iff bounded

/-- A machine with two CPUs and 1000 pages whose disk does not answer. -/
def brokenDisk : ProcEnvironment :=
  { Environment.quiet 7 with
    meminfo := ⟨1000, 0, 400, 0, 0, 0, 4096⟩
    cpus := [0, 1]
    cpustat := fun cpu _ => BitVec.ofNat 64 (cpu + 5)
    path := fun _ => .ok 0
    statfs := fun _ => .error ⟨-5, by decide⟩ }

end UsacSyscalls.Project1
