import Mathlib.Algebra.Order.BigOperators.Group.List
import Mathlib.Algebra.Order.Ring.Nat
import UsacSyscalls.Project2.Agreement

/-!
Contract: the figures of the two memory reports against the pages in use.

Owns the exact condition under which the megabyte totals of `tamalloc` are the
totals of the pages it counted, the size of the shortfall otherwise, and the
value, bounds and monotonicity of the percentage that
`memory_allocation_statistics` reports, with the division it makes for it.

Does not own which processes are counted; that is `Agreement`.
-/

set_option autoImplicit false

namespace UsacSyscalls.Project2

open UsacSyscalls.Foundation
open UsacSyscalls.Kernel

/-! ### Totals in megabytes

A megabyte is 256 pages, and each process is rounded down to whole megabytes
before it is added. -/

/-- The pages of one kind over the processes that `tamalloc` counts. -/
def countedPages (env : Environment) (pages : MmStruct → UnsignedLong) : Nat :=
  ((env.processes.filterMap (counted env)).map fun mm => (pages mm).toNat).sum

/-- The pages above the last whole megabyte of each process, added up. -/
def leftoverPages (env : Environment) (pages : MmStruct → UnsignedLong) : Nat :=
  ((env.processes.filterMap (counted env)).map fun mm => (pages mm).toNat % 256).sum

theorem sum_eq_quotients_add_remainders (unit : Nat) (numbers : List Nat) :
    numbers.sum = unit * (numbers.map (· / unit)).sum + (numbers.map (· % unit)).sum := by
  induction numbers with
  | nil => rfl
  | cons number rest inductionHypothesis =>
      have divided := Nat.div_add_mod number unit
      simp only [List.map_cons, List.sum_cons, Nat.mul_add]
      omega

theorem pagesToMb_of_small {pages : UnsignedLong} (small : pages.toNat < 2 ^ 52) :
    (pagesToMb pages).toNat = pages.toNat / 256 := by
  have bytes : pages.toNat * 4096 / 2 ^ 20 = pages.toNat / 256 :=
    Nat.mul_div_mul_right pages.toNat 256 (by decide : 0 < 4096)
  have size : pageSize.toNat = 4096 := rfl
  unfold pagesToMb
  rw [BitVec.toNat_ushiftRight, Nat.shiftRight_eq_div_pow, BitVec.toNat_mul, size,
    Nat.mod_eq_of_lt (by omega), bytes]

/-- The total that `tamalloc` delivers and what rounding took from it make up
the counted pages. -/
theorem total_add_leftover (env : Environment) (pages : MmStruct → UnsignedLong)
    (small : countedPages env pages < 2 ^ 52) :
    ((env.processes.filterMap (counted env)).map fun mm => pagesToMb (pages mm)).sum.toNat * 256 +
        leftoverPages env pages = countedPages env pages := by
  unfold countedPages leftoverPages at *
  generalize env.processes.filterMap (counted env) = spaces at *
  have parts := sum_eq_quotients_add_remainders 256 (spaces.map fun mm => (pages mm).toNat)
  have eachSmall : ∀ mm ∈ spaces, (pages mm).toNat < 2 ^ 52 := by
    intro mm member
    have listed : (pages mm).toNat ∈ spaces.map fun mm => (pages mm).toNat :=
      List.mem_map.mpr ⟨mm, member, rfl⟩
    exact Nat.lt_of_le_of_lt (List.le_sum_of_mem listed) small
  have quotients : (spaces.map fun mm => (pagesToMb (pages mm)).toNat) =
      spaces.map fun mm => (pages mm).toNat / 256 :=
    List.map_congr_left fun mm member => pagesToMb_of_small (eachSmall mm member)
  rw [List.map_map, List.map_map] at parts
  rw [sum_eq_ofNat, List.map_map]
  simp only [Function.comp_def] at parts ⊢
  rw [quotients, BitVec.toNat_ofNat, Nat.mod_eq_of_lt (by omega)]
  omega

/-- The totals a caller of `tamalloc` reads are those of the counted pages, in
whole megabytes. -/
structure ReportsTotals (env : Environment) (user : ByteMemory) (info : Nat) : Prop where
  vm : (getField user info 8 64 : UnsignedLong).toNat =
    countedPages env MmStruct.totalVm * 4096 / 2 ^ 20
  rss : (getField user (info + 8) 8 64 : UnsignedLong).toNat =
    countedPages env MmStruct.rss * 4096 / 2 ^ 20

/-- A rounded total is exact when the leftovers do not make another megabyte. -/
theorem floor_eq_iff {total leftover pages : Nat} (parts : total * 256 + leftover = pages) :
    total = pages * 4096 / 2 ^ 20 ↔ leftover < 256 := by
  omega

/-- `tamalloc` reports the totals in megabytes exactly when the pages that each
counted process has above a whole megabyte add up to less than one megabyte. In
every case the reported total falls short by exactly these pages. -/
theorem tamalloc_totals_exact_iff (env : Environment) (machine : Machine) (info : Nat)
    (works : env.Copies info sizeofTamallocGlobalInfo)
    (vmSmall : countedPages env MmStruct.totalVm < 2 ^ 52)
    (rssSmall : countedPages env MmStruct.rss < 2 ^ 52) :
    let outcome := complete env (tamalloc info) machine
    outcome.1 = 0 ∧
      (ReportsTotals env outcome.2.user info ↔
        leftoverPages env MmStruct.totalVm < 256 ∧ leftoverPages env MmStruct.rss < 256) ∧
      (getField outcome.2.user info 8 64 : UnsignedLong).toNat * 256 +
        leftoverPages env MmStruct.totalVm = countedPages env MmStruct.totalVm ∧
      (getField outcome.2.user (info + 8) 8 64 : UnsignedLong).toNat * 256 +
        leftoverPages env MmStruct.rss = countedPages env MmStruct.rss := by
  intro outcome
  have delivered : outcome = (0, { machine with
      user := machine.user.store info (globalInfoBytes (totals env env.processes)) }) :=
    complete_tamalloc_of_copies machine works
  obtain ⟨vmMb, rssMb⟩ := globalInfo_sizes machine.user info (totals env env.processes)
  have vmParts := total_add_leftover env MmStruct.totalVm vmSmall
  have rssParts := total_add_leftover env MmStruct.rss rssSmall
  rw [delivered]
  refine ⟨rfl, ⟨?_, ?_⟩, ?_, ?_⟩
  · rintro ⟨vm, rss⟩
    rw [vmMb] at vm
    rw [rssMb] at rss
    exact ⟨(floor_eq_iff vmParts).mp vm, (floor_eq_iff rssParts).mp rss⟩
  · rintro ⟨vmLeft, rssLeft⟩
    constructor
    · rw [vmMb]
      exact (floor_eq_iff vmParts).mpr vmLeft
    · rw [rssMb]
      exact (floor_eq_iff rssParts).mpr rssLeft
  · rw [vmMb]
    exact vmParts
  · rw [rssMb]
    exact rssParts

/-- Two processes and a zombie, with the same pages for each process. -/
def twoWithPages (mm : MmStruct) : Environment := { twoAndZombie with mm := fun _ => mm }

theorem tamalloc_totals_exact_for_300_pages :
    let outcome := complete (twoWithPages ⟨300, 300⟩) (tamalloc 4096) (.boot fun _ => 0)
    leftoverPages (twoWithPages ⟨300, 300⟩) MmStruct.totalVm = 88 ∧
      ReportsTotals (twoWithPages ⟨300, 300⟩) outcome.2.user 4096 := by
  have exactly := tamalloc_totals_exact_iff (twoWithPages ⟨300, 300⟩) (.boot fun _ => 0) 4096
    ⟨by decide, rfl⟩ (by decide) (by decide)
  exact ⟨by decide, exactly.2.1.mpr ⟨by decide, by decide⟩⟩

/-- Two processes of half a megabyte each: the total of one megabyte is
reported as none. -/
theorem tamalloc_loses_two_halves :
    let outcome := complete (twoWithPages ⟨128, 128⟩) (tamalloc 4096) (.boot fun _ => 0)
    countedPages (twoWithPages ⟨128, 128⟩) MmStruct.totalVm = 256 ∧
      countedPages (twoWithPages ⟨128, 128⟩) MmStruct.rss = 256 ∧ outcome.1 = 0 ∧
      getField outcome.2.user 4096 8 64 = (0 : UnsignedLong) ∧
      ¬ ReportsTotals (twoWithPages ⟨128, 128⟩) outcome.2.user 4096 := by
  have pages : countedPages (twoWithPages ⟨128, 128⟩) MmStruct.totalVm = 256 := by decide
  have reported : getField (complete (twoWithPages ⟨128, 128⟩) (tamalloc 4096)
      (.boot fun _ => 0)).2.user 4096 8 64 = (0 : UnsignedLong) := by decide
  refine ⟨pages, by decide, by decide, reported, ?_⟩
  rintro ⟨vm, -⟩
  rw [reported, pages] at vm
  exact absurd vm (by decide)

/-! ### The percentage -/

/-- What the kernel promises of an address space on x86-64: the page count fits
the address space, and only mapped pages are resident. -/
structure Resident (mm : MmStruct) : Prop where
  bounded : mm.totalVm.toNat < 2 ^ 45
  within : mm.rss.toNat ≤ mm.totalVm.toNat

/-- The percentage that `memory_allocation_statistics` stores. -/
def percentOf (mm : MmStruct) : BitVec 32 :=
  percentage (pagesToKb mm.totalVm) (pagesToKb mm.rss)

/-- The divisor was tested just before. -/
theorem rssPercentOfVm_divides (vmKb rssKb : UnsignedLong) :
    Program.Within (fun operation => divideError operation = false)
      (rssPercentOfVm vmKb rssKb) := by
  unfold rssPercentOfVm
  by_cases mapped : vmKb > 0
  · have nonzero : vmKb ≠ 0 := by
      rintro rfl
      exact BitVec.lt_irrefl _ mapped
    rw [if_pos mapped]
    refine Program.within_bind (Program.within_perform ?_) fun _ => Program.within_pure _
    exact decide_eq_false nonzero
  · rw [if_neg mapped]
    exact Program.within_pure _

/-- Whatever the kernel answers, `memory_allocation_statistics` raises no divide
error: it performs one division, and only with a divisor above zero. -/
theorem memoryAllocationStatistics_divides (pid : PidT) (info : Nat) :
    Program.Within (fun operation => divideError operation = false)
      (memoryAllocationStatistics pid info) := by
  have other : ∀ {operation : Op}, divideError operation = false →
      Program.Within (fun operation => divideError operation = false)
        (Program.perform operation : Program Op Reply _) :=
    fun neutral => ⟨neutral, fun _ => trivial⟩
  unfold memoryAllocationStatistics
  refine Program.within_bind (other rfl) fun _ => Program.within_bind (other rfl) fun _ => ?_
  refine Program.within_bind (other rfl) fun _ => Program.within_bind (other rfl) fun task => ?_
  cases task with
  | none => exact Program.within_bind (other rfl) fun _ => Program.within_pure _
  | some task =>
      refine Program.within_bind (other rfl) fun mm => ?_
      cases mm with
      | none => exact Program.within_bind (other rfl) fun _ => Program.within_pure _
      | some mm =>
          refine Program.within_bind (other rfl) fun _ => ?_
          refine Program.within_bind (other rfl) fun _ => ?_
          refine Program.within_bind (rssPercentOfVm_divides _ _) fun _ => ?_
          refine Program.within_bind (other rfl) fun _ => ?_
          refine Program.within_bind (other rfl) fun _ => ?_
          refine Program.within_bind (other rfl) fun _ => ?_
          refine Program.within_bind (other rfl) fun _ => ?_
          split <;> exact Program.within_pure _

theorem pagesToKb_of_small {pages : UnsignedLong} (small : pages.toNat < 2 ^ 45) :
    (pagesToKb pages).toNat = 4 * pages.toNat := by
  have size : pageSize.toNat = 4096 := rfl
  unfold pagesToKb
  rw [BitVec.toNat_ushiftRight, Nat.shiftRight_eq_div_pow, BitVec.toNat_mul, size,
    Nat.mod_eq_of_lt (by omega)]
  omega

theorem pagesToKb_pos_iff {pages : UnsignedLong} (small : pages.toNat < 2 ^ 45) :
    pagesToKb pages > 0 ↔ 0 < pages.toNat := by
  rw [gt_iff_lt, BitVec.lt_def, pagesToKb_of_small small]
  simp

theorem percentage_le {rss vm : Nat} (within : rss ≤ vm) : 100 * rss / vm ≤ 100 := by
  apply Nat.div_le_of_le_mul
  rw [Nat.mul_comm vm]
  exact Nat.mul_le_mul_left 100 within

theorem percentOf_toNat {mm : MmStruct} (resident : Resident mm) :
    (percentOf mm).toNat = 100 * mm.rss.toNat / mm.totalVm.toNat := by
  have rssBounded : mm.rss.toNat < 2 ^ 45 := Nat.lt_of_le_of_lt resident.within resident.bounded
  have vmBounded := resident.bounded
  have atMost := percentage_le resident.within
  have hundred : (100 : UnsignedLong).toNat = 100 := rfl
  have cancelled : 4 * mm.rss.toNat * 100 / (4 * mm.totalVm.toNat) =
      100 * mm.rss.toNat / mm.totalVm.toNat := by
    rw [Nat.mul_assoc, Nat.mul_div_mul_left _ _ (by decide), Nat.mul_comm]
  unfold percentOf percentage
  rw [BitVec.toNat_setWidth, BitVec.toNat_udiv, BitVec.toNat_mul, pagesToKb_of_small vmBounded,
    pagesToKb_of_small rssBounded, hundred, Nat.mod_eq_of_lt (a := 4 * mm.rss.toNat * 100)
      (by omega), cancelled]
  exact Nat.mod_eq_of_lt (by omega)

theorem percentage_eq_hundred_iff {rss vm : Nat} (within : rss ≤ vm) :
    100 * rss / vm = 100 ↔ 0 < rss ∧ rss = vm := by
  constructor
  · intro hundred
    have mapped : 0 < vm := by
      apply Nat.pos_of_ne_zero
      rintro rfl
      rw [Nat.div_zero] at hundred
      contradiction
    have enough : 100 * vm ≤ 100 * rss := (Nat.le_div_iff_mul_le mapped).mp hundred.ge
    omega
  · rintro ⟨positive, rfl⟩
    exact Nat.mul_div_cancel 100 positive

/-- The figures that `memory_allocation_statistics` computes for an address
space, and how the percentage changes with either page count. -/
structure PercentageExact (mm : MmStruct) : Prop where
  vmKb : (pagesToKb mm.totalVm).toNat = 4 * mm.totalVm.toNat
  rssKb : (pagesToKb mm.rss).toNat = 4 * mm.rss.toNat
  vmBytes : mm.totalVm.toNat * pageSize.toNat < 2 ^ 64
  rssBytes : mm.rss.toNat * pageSize.toNat < 2 ^ 64
  hundredfold : (pagesToKb mm.rss).toNat * 100 < 2 ^ 64
  divides : pagesToKb mm.totalVm > 0 ↔ 0 < mm.totalVm.toNat
  percent : (percentOf mm).toNat = 100 * mm.rss.toNat / mm.totalVm.toNat
  unmapped : mm.totalVm.toNat = 0 → percentOf mm = 0
  atMost : (percentOf mm).toNat ≤ 100
  hundred : (percentOf mm).toNat = 100 ↔ 0 < mm.rss.toNat ∧ mm.rss.toNat = mm.totalVm.toNat
  monotone : ∀ other, Resident other → other.totalVm = mm.totalVm →
    mm.rss.toNat ≤ other.rss.toNat → (percentOf mm).toNat ≤ (percentOf other).toNat
  antitone : ∀ other, Resident other → other.rss = mm.rss →
    mm.totalVm.toNat ≤ other.totalVm.toNat → (percentOf other).toNat ≤ (percentOf mm).toNat

theorem percentageExact_of_resident {mm : MmStruct} (resident : Resident mm) :
    PercentageExact mm := by
  have vmBounded := resident.bounded
  have rssBounded : mm.rss.toNat < 2 ^ 45 := Nat.lt_of_le_of_lt resident.within vmBounded
  have size : pageSize.toNat = 4096 := rfl
  have percent := percentOf_toNat resident
  constructor
  case vmKb => exact pagesToKb_of_small vmBounded
  case rssKb => exact pagesToKb_of_small rssBounded
  case vmBytes =>
    rw [size]
    omega
  case rssBytes =>
    rw [size]
    omega
  case hundredfold =>
    rw [pagesToKb_of_small rssBounded]
    omega
  case divides => exact pagesToKb_pos_iff vmBounded
  case percent => exact percent
  case unmapped =>
    intro none
    apply BitVec.eq_of_toNat_eq
    rw [percent, none, Nat.div_zero]
    rfl
  case atMost =>
    rw [percent]
    exact percentage_le resident.within
  case hundred =>
    rw [percent]
    exact percentage_eq_hundred_iff resident.within
  case monotone =>
    intro other otherResident sameVm moreRss
    rw [percent, percentOf_toNat otherResident, sameVm]
    exact Nat.div_le_div_right (Nat.mul_le_mul_left 100 moreRss)
  case antitone =>
    intro other otherResident sameRss moreVm
    rw [percent, percentOf_toNat otherResident, sameRss]
    by_cases mapped : 0 < mm.totalVm.toNat
    · exact Nat.div_le_div_left moreVm mapped
    · have none : mm.rss.toNat = 0 := by
        have within := resident.within
        omega
      rw [none, Nat.mul_zero, Nat.zero_div]
      exact Nat.zero_le _

/-- A caller of `memory_allocation_statistics` reads the three figures of the
address space. -/
theorem figures_delivered {env : Environment} {pid : PidT} {task : TaskRef} {mm : MmRef}
    (found : env.lookup pid = some task) (held : env.taskMm task = some mm) {info : Nat}
    (works : env.Copies info sizeofTamallocProcInfo) (machine : Machine) :
    let outcome := complete env (memoryAllocationStatistics pid info) machine
    outcome.1 = 0 ∧
      getField outcome.2.user info 8 64 = pagesToKb (env.mm mm).totalVm ∧
      getField outcome.2.user (info + 8) 8 64 = pagesToKb (env.mm mm).rss ∧
      getField outcome.2.user (info + 16) 4 32 = percentOf (env.mm mm) := by
  intro outcome
  have delivered : outcome = (0, { machine with
      user := machine.user.store info
        (procInfoBytes (env.mm mm) (env.task task).oomScoreAdj) }) :=
    complete_memoryAllocationStatistics_of_copies machine found held works
  obtain ⟨vmKb, rssKb⟩ := procInfo_sizes machine.user info (env.mm mm)
    (env.task task).oomScoreAdj
  have layout : procInfoBytes (env.mm mm) (env.task task).oomScoreAdj =
      (leBytes 8 (pagesToKb (env.mm mm).totalVm).toNat ++
        leBytes 8 (pagesToKb (env.mm mm).rss).toNat) ++
        (leBytes 4 (percentOf (env.mm mm)).toNat ++
          leBytes 4 ((env.task task).oomScoreAdj.signExtend 32).toNat) := by
    unfold procInfoBytes percentOf
    rw [List.append_assoc]
  rw [delivered]
  refine ⟨rfl, vmKb, rssKb, ?_⟩
  exact getField_store_member machine.user info 4 (percentOf (env.mm mm)) _ _ layout rfl

/-- For every address space within the kernel's bounds the sizes and the
percentage are exact, nothing wraps, no call divides by zero, and the figures
are what a caller reads. -/
theorem percentage_exact (mm : MmStruct) (resident : Resident mm) :
    PercentageExact mm ∧
      (∀ (env : Environment) (machine : Machine) (pid : PidT) (info : Nat),
        completeOrFault env (memoryAllocationStatistics pid info) machine =
          some (complete env (memoryAllocationStatistics pid info) machine)) ∧
      ∀ (env : Environment) (machine : Machine) (pid : PidT) (info : Nat) (task : TaskRef)
        (held : MmRef), env.lookup pid = some task → env.taskMm task = some held →
        env.mm held = mm → env.Copies info sizeofTamallocProcInfo →
          let outcome := complete env (memoryAllocationStatistics pid info) machine
          outcome.1 = 0 ∧
            getField outcome.2.user info 8 64 = pagesToKb mm.totalVm ∧
            getField outcome.2.user (info + 8) 8 64 = pagesToKb mm.rss ∧
            getField outcome.2.user (info + 16) 4 32 = percentOf mm := by
  refine ⟨percentageExact_of_resident resident, ?_, ?_⟩
  · intro env machine pid info
    exact Program.attempt_of_within _ (memoryAllocationStatistics_divides pid info) machine
  · rintro env machine pid info task held found holds rfl works
    exact figures_delivered found holds works machine

/-- One page of three, and an address space without pages, where the call takes
the other branch. -/
theorem percentage_exact_for_third :
    PercentageExact ⟨3, 1⟩ ∧
      getField (complete { Environment.quiet 7 with mm := fun _ => ⟨3, 1⟩ }
        (memoryAllocationStatistics 7 4096) (.boot fun _ => 0)).2.user 4112 4 32 =
          (33 : BitVec 32) ∧
      (completeOrFault { Environment.quiet 7 with mm := fun _ => ⟨0, 0⟩ }
        (memoryAllocationStatistics 7 4096) (.boot fun _ => 0)).isSome := by
  have exactly := percentage_exact ⟨3, 1⟩ ⟨by decide, by decide⟩
  have delivered := exactly.2.2 { Environment.quiet 7 with mm := fun _ => ⟨3, 1⟩ }
    (.boot fun _ => 0) 7 4096 1 1 (by decide) (by decide) rfl ⟨by decide, rfl⟩
  have percent : percentOf ⟨3, 1⟩ = 33 := by decide
  refine ⟨exactly.1, delivered.2.2.2.trans percent, ?_⟩
  rw [exactly.2.1]
  rfl

end UsacSyscalls.Project2
