import Mathlib.Data.BitVec
import Mathlib.Order.Bounds.Basic
import Mathlib.Order.CompletePartialOrder
import Mathlib.Order.Interval.Set.Disjoint
import UsacSyscalls.Foundation.Program
import UsacSyscalls.Foundation.Transition
import UsacSyscalls.Kernel.Data

/-!
Contract: the memory that `tamalloc_stats` hands out.

Owns `tamalloc_stats` statement by statement, the rounding of its argument to
pages on 64 bits, the mappings of the calling process as `vm_mmap` extends
them, the test its callers make on the result, and the separation of all
regions handed out in any sequence of calls.

Does not own `vm_mmap`. Its answers are arbitrary here, and what is assumed of
them is a condition on the run.
-/

set_option autoImplicit false

namespace UsacSyscalls.Project2

open UsacSyscalls.Foundation
open UsacSyscalls.Kernel

/-! ### Constants and conversions -/

def protRead : UnsignedLong := 0x1
def protWrite : UnsignedLong := 0x2
def mapPrivate : UnsignedLong := 0x02
def mapAnonymous : UnsignedLong := 0x20
def mapNoreserve : UnsignedLong := 0x4000
def maxErrno : UnsignedLong := 4095

/-- An error number as a return value. -/
def failure (errno : Int) : UnsignedLong := BitVec.ofInt 64 (-errno)

/-- `IS_ERR_VALUE` -/
def IsErrValue (value : UnsignedLong) : Prop := value ≥ -maxErrno

instance (value : UnsignedLong) : Decidable (IsErrValue value) :=
  inferInstanceAs (Decidable (_ ≥ _))

/-- `PAGE_ALIGN` -/
def pageAlign (size : SizeT) : UnsignedLong := (size + (pageSize - 1)) &&& ~~~(pageSize - 1)

/-! ### `tamalloc_stats` -/

/-- The arguments of `vm_mmap`. -/
structure MmapRequest where
  file : Option Nat
  addr : UnsignedLong
  len : UnsignedLong
  prot : UnsignedLong
  flag : UnsignedLong
  offset : UnsignedLong
deriving DecidableEq, Repr

inductive MapOp where
  | vmMmap (request : MmapRequest)
  | printk (message : String)
deriving DecidableEq, Repr

@[reducible] def MapReply : MapOp → Type
  | .vmMmap _ => UnsignedLong
  | .printk _ => Unit

def vmMmap (request : MmapRequest) : Program MapOp MapReply UnsignedLong :=
  .perform (MapOp.vmMmap request)

def printk (message : String) : Program MapOp MapReply Unit := .perform (MapOp.printk message)

def anonymousMapping (alignedSize : UnsignedLong) : MmapRequest where
  file := none
  addr := 0
  len := alignedSize
  prot := protRead ||| protWrite
  flag := mapPrivate ||| mapAnonymous ||| mapNoreserve
  offset := 0

def mapError : String := "_202000173_tamalloc_stats: Error al mapear memoria.\n"

def tamallocStats (size : SizeT) : Program MapOp MapReply UnsignedLong :=
  if size = 0 then pure (failure einval)
  else
    let alignedSize := pageAlign size
    if alignedSize = 0 then pure (failure enomem)
    else do
      let addr ← vmMmap (anonymousMapping alignedSize)
      if IsErrValue addr then do
        printk mapError
        pure (failure enomem)
      else pure addr

/-- What the C library hands to the caller: an error value becomes `-1`. -/
def libcSyscall (result : UnsignedLong) : Int :=
  if IsErrValue result then -1 else result.toInt

/-! ### The calling process -/

structure Region where
  base : Nat
  length : Nat
deriving DecidableEq, Repr

def Region.addresses (region : Region) : Set Nat :=
  Set.Ico region.base (region.base + region.length)

/-- The mappings of the process, the calls of `vm_mmap` and the kernel log. -/
structure AddressSpace where
  regions : List Region
  requests : List MmapRequest
  log : List String
deriving DecidableEq, Repr

/-- One call, with what `vm_mmap` answers if it is called. -/
structure MapCall where
  size : SizeT
  answer : UnsignedLong
deriving DecidableEq, Repr

def answering (answer : UnsignedLong) : Program.Handler MapOp MapReply AddressSpace
  | .vmMmap request, space =>
      (answer,
        { space with
          regions := if IsErrValue answer then space.regions
            else ⟨answer.toNat, request.len.toNat⟩ :: space.regions
          requests := space.requests ++ [request] })
  | .printk message, space => ((), { space with log := space.log ++ [message] })

def mapStep (space : AddressSpace) (call : MapCall) : UnsignedLong × AddressSpace :=
  Program.run (answering call.answer) (tamallocStats call.size) space

/-- What is assumed of `vm_mmap`: for a length of one or more pages it answers
with an error value, or with the page-aligned base of a fresh region below
`2 ^ 56`. -/
def Answered (answer : UnsignedLong) (space : AddressSpace) : MapOp → Prop
  | .vmMmap request =>
      request.len ≠ 0 → 4096 ∣ request.len.toNat →
        IsErrValue answer ∨
          (4096 ∣ answer.toNat ∧ answer.toNat + request.len.toNat ≤ 2 ^ 56 ∧
            ∀ region ∈ space.regions,
              Disjoint (Region.addresses ⟨answer.toNat, request.len.toNat⟩) region.addresses)
  | .printk _ => True

/-- Every `vm_mmap` of the call is answered as assumed. -/
def AnsweredThroughout (space : AddressSpace) (call : MapCall) : Prop :=
  Program.Throughout (answering call.answer) (Answered call.answer) (tamallocStats call.size) space

/-! ### Rounding -/

theorem pageMask_getLsbD : ∀ i < 64, (~~~(pageSize - 1)).getLsbD i = decide (12 ≤ i) := by
  decide

theorem and_pageMask (value : UnsignedLong) :
    value &&& ~~~(pageSize - 1) = (value >>> 12) <<< 12 := by
  apply BitVec.eq_of_getLsbD_eq
  intro i bound
  rw [BitVec.getLsbD_and, pageMask_getLsbD i bound, BitVec.getLsbD_shiftLeft,
    BitVec.getLsbD_ushiftRight]
  by_cases low : i < 12
  · simp [low]
  · have back : 12 + (i - 12) = i := by omega
    simp [low, bound, back, Nat.le_of_not_lt low]

theorem toNat_pageAlign (size : SizeT) :
    (pageAlign size).toNat = (size.toNat + 4095) % 2 ^ 64 / 4096 * 4096 := by
  have small := (size + (pageSize - 1)).isLt
  have sum : (size + (pageSize - 1)).toNat = (size.toNat + 4095) % 2 ^ 64 := by
    simp [pageSize]
  unfold pageAlign
  rw [and_pageMask, BitVec.toNat_shiftLeft, BitVec.toNat_ushiftRight, Nat.shiftRight_eq_div_pow,
    Nat.shiftLeft_eq, sum]
  omega

/-- Some multiple of the page size that fits in 64 bits is large enough. -/
def Roundable (size : SizeT) : Prop :=
  ∃ multiple < 2 ^ 64, 4096 ∣ multiple ∧ size.toNat ≤ multiple

theorem roundable_iff (size : SizeT) : Roundable size ↔ size.toNat + 4095 < 2 ^ 64 := by
  constructor
  · rintro ⟨multiple, fits, ⟨pages, rfl⟩, covers⟩
    omega
  · intro fits
    refine ⟨(size.toNat + 4095) / 4096 * 4096, ?_, ⟨_, Nat.mul_comm _ _⟩, ?_⟩
    · omega
    · omega

/-- The wrapped sum rounds to zero exactly where no multiple fits. -/
theorem pageAlign_eq_zero_iff {size : SizeT} (nonzero : size ≠ 0) :
    pageAlign size = 0 ↔ ¬ Roundable size := by
  have positive : size.toNat ≠ 0 := by
    intro zero
    exact nonzero (BitVec.eq_of_toNat_eq zero)
  have small := size.isLt
  rw [roundable_iff, ← BitVec.toNat_inj, toNat_pageAlign]
  show _ = 0 ↔ _
  omega

theorem pageAlign_ne_zero {size : SizeT} (nonzero : size ≠ 0) (roundable : Roundable size) :
    pageAlign size ≠ 0 := by
  intro wrapped
  exact (pageAlign_eq_zero_iff nonzero).mp wrapped roundable

theorem pageAlign_isLeast {size : SizeT} (roundable : Roundable size) :
    IsLeast {multiple | 4096 ∣ multiple ∧ size.toNat ≤ multiple} (pageAlign size).toNat := by
  have fits := (roundable_iff size).mp roundable
  rw [toNat_pageAlign, Nat.mod_eq_of_lt fits]
  refine ⟨⟨⟨_, Nat.mul_comm _ _⟩, ?_⟩, ?_⟩
  · omega
  · rintro multiple ⟨⟨pages, rfl⟩, covers⟩
    omega

/-! ### One call -/

theorem mapStep_zero (space : AddressSpace) {call : MapCall} (zero : call.size = 0) :
    mapStep space call = (failure einval, space) := by
  simp only [mapStep, tamallocStats, zero, if_true, Program.run_pure]

theorem mapStep_unroundable (space : AddressSpace) {call : MapCall} (nonzero : call.size ≠ 0)
    (unroundable : ¬ Roundable call.size) : mapStep space call = (failure enomem, space) := by
  have wrapped := (pageAlign_eq_zero_iff nonzero).mpr unroundable
  simp only [mapStep, tamallocStats, nonzero, wrapped, if_true, if_false, Program.run_pure]

/-- The single `vm_mmap` of any other call, and what follows its answer. -/
theorem mapStep_roundable (space : AddressSpace) {call : MapCall} (nonzero : call.size ≠ 0)
    (roundable : Roundable call.size) :
    mapStep space call =
      if IsErrValue call.answer then
        (failure enomem,
          { space with
            requests := space.requests ++ [anonymousMapping (pageAlign call.size)]
            log := space.log ++ [mapError] })
      else
        (call.answer,
          { space with
            regions := ⟨call.answer.toNat, (pageAlign call.size).toNat⟩ :: space.regions
            requests := space.requests ++ [anonymousMapping (pageAlign call.size)] }) := by
  have aligned := pageAlign_ne_zero nonzero roundable
  unfold mapStep tamallocStats
  simp only [nonzero, aligned, if_false, Program.run_bind, vmMmap, Program.run_perform, answering]
  by_cases failed : IsErrValue call.answer
  · simp only [failed, if_true, Program.run_bind, printk, Program.run_perform, Program.run_pure,
      answering]
  · simp only [failed, if_false, Program.run_pure]
    rfl

/-- What the assumption on `vm_mmap` says about a call that maps. -/
theorem answeredThroughout_iff {space : AddressSpace} {call : MapCall} (nonzero : call.size ≠ 0)
    (roundable : Roundable call.size) :
    AnsweredThroughout space call ↔
      Answered call.answer space (.vmMmap (anonymousMapping (pageAlign call.size))) := by
  have aligned := pageAlign_ne_zero nonzero roundable
  unfold AnsweredThroughout tamallocStats
  simp only [nonzero, aligned, if_false, Program.throughout_bind, vmMmap,
    Program.throughout_perform, Program.run_perform, answering]
  apply and_iff_left
  by_cases failed : IsErrValue call.answer
  · simp [failed, printk, Answered]
  · simp [failed]

theorem answeredThroughout_of_failed {call : MapCall} (nonzero : call.size ≠ 0)
    (roundable : Roundable call.size) (failed : IsErrValue call.answer) (space : AddressSpace) :
    AnsweredThroughout space call := by
  apply (answeredThroughout_iff nonzero roundable).mpr
  intro _ _
  exact .inl failed

theorem answeredThroughout_of_free {space : AddressSpace} {call : MapCall}
    (nonzero : call.size ≠ 0) (roundable : Roundable call.size)
    (aligned : 4096 ∣ call.answer.toNat)
    (below : call.answer.toNat + (pageAlign call.size).toNat ≤ 2 ^ 56)
    (free : ∀ region ∈ space.regions, Disjoint
      (Region.addresses ⟨call.answer.toNat, (pageAlign call.size).toNat⟩) region.addresses) :
    AnsweredThroughout space call := by
  apply (answeredThroughout_iff nonzero roundable).mpr
  intro _ _
  exact .inr ⟨aligned, below, free⟩

theorem AnsweredThroughout.fresh {space : AddressSpace} {call : MapCall}
    (answered : AnsweredThroughout space call) (nonzero : call.size ≠ 0)
    (roundable : Roundable call.size) (mapped : ¬ IsErrValue call.answer) :
    call.answer.toNat + (pageAlign call.size).toNat ≤ 2 ^ 56 ∧
      ∀ region ∈ space.regions,
        Disjoint (Region.addresses ⟨call.answer.toNat, (pageAlign call.size).toNat⟩)
          region.addresses := by
  have aligned := pageAlign_ne_zero nonzero roundable
  have multiple := (pageAlign_isLeast roundable).1.1
  have answer := (answeredThroughout_iff nonzero roundable).mp answered
  rcases answer aligned multiple with failed | ⟨_, below, fresh⟩
  · exact absurd failed mapped
  · exact ⟨below, fresh⟩

/-- The laws of one call. The last two say that the sign of the result tells a
success from a failure, in the kernel and for the caller. -/
structure CallLaws (space : AddressSpace) (call : MapCall) : Prop where
  zero : call.size = 0 → mapStep space call = (failure einval, space)
  unroundable : call.size ≠ 0 → ¬ Roundable call.size →
    mapStep space call = (failure enomem, space)
  mapped : call.size ≠ 0 → Roundable call.size →
    ∃ alignedSize : UnsignedLong,
      IsLeast {multiple | 4096 ∣ multiple ∧ call.size.toNat ≤ multiple} alignedSize.toNat ∧
        (mapStep space call).2.requests = space.requests ++ [anonymousMapping alignedSize] ∧
        (mapStep space call).1 =
          if IsErrValue call.answer then failure enomem else call.answer
  sign : 0 ≤ (mapStep space call).1.toInt ↔ ¬ IsErrValue (mapStep space call).1
  caller : libcSyscall (mapStep space call).1 < 0 ↔ IsErrValue (mapStep space call).1

/-- What a call returns: one of its two errors, or a base below `2 ^ 56`. -/
theorem mapStep_result {space : AddressSpace} {call : MapCall}
    (answered : AnsweredThroughout space call) :
    (mapStep space call).1 = failure einval ∨ (mapStep space call).1 = failure enomem ∨
      (mapStep space call).1.toNat ≤ 2 ^ 56 := by
  by_cases zero : call.size = 0
  · rw [mapStep_zero space zero]
    exact .inl rfl
  · by_cases roundable : Roundable call.size
    · rw [mapStep_roundable space zero roundable]
      by_cases failed : IsErrValue call.answer
      · rw [if_pos failed]
        exact .inr (.inl rfl)
      · have below := (answered.fresh zero roundable failed).1
        rw [if_neg failed]
        exact .inr (.inr (Nat.le_of_add_right_le below))
    · rw [mapStep_unroundable space zero roundable]
      exact .inr (.inl rfl)

theorem sign_of_result {result : UnsignedLong}
    (cases : result = failure einval ∨ result = failure enomem ∨ result.toNat ≤ 2 ^ 56) :
    0 ≤ result.toInt ↔ ¬ IsErrValue result := by
  rcases cases with rfl | rfl | below
  · decide
  · decide
  · have positive : result.toInt = result.toNat := BitVec.toInt_eq_toNat_of_lt (by omega)
    have valid : ¬ IsErrValue result := by
      intro failed
      have above : (-maxErrno).toNat ≤ result.toNat := failed
      have start : (-maxErrno).toNat = 2 ^ 64 - 4095 := by decide
      omega
    rw [positive]
    exact iff_of_true (Int.natCast_nonneg _) valid

theorem callLaws {space : AddressSpace} {call : MapCall}
    (answered : AnsweredThroughout space call) : CallLaws space call := by
  have sign := sign_of_result (mapStep_result answered)
  refine ⟨mapStep_zero space, mapStep_unroundable space, ?_, sign, ?_⟩
  · intro nonzero roundable
    refine ⟨pageAlign call.size, pageAlign_isLeast roundable, ?_, ?_⟩
    · rw [mapStep_roundable space nonzero roundable]
      split <;> rfl
    · rw [mapStep_roundable space nonzero roundable]
      split <;> rfl
  · unfold libcSyscall
    by_cases failed : IsErrValue (mapStep space call).1
    · simp [failed]
    · have nonneg := sign.mpr failed
      rw [if_neg failed]
      exact iff_of_false (by omega) failed

/-! ### Sequences of calls -/

/-- The range that a call with its result hands to the caller. -/
def grant (returned : MapCall × UnsignedLong) : Option Region :=
  if IsErrValue returned.2 then none else some ⟨returned.2.toNat, returned.1.size.toNat⟩

/-- The ranges handed out in a run. -/
def granted (space : AddressSpace) (calls : List MapCall) : List Region :=
  (calls.zip (Transition.outputs mapStep space calls)).filterMap grant

theorem granted_cons (space : AddressSpace) (call : MapCall) (calls : List MapCall) :
    granted space (call :: calls) =
      (grant (call, (mapStep space call).1)).toList ++ granted (mapStep space call).2 calls := by
  unfold granted
  rw [Transition.outputs, List.zip_cons_cons, List.filterMap_cons]
  cases grant (call, (mapStep space call).1) with
  | none => rfl
  | some range => rfl

/-- Mappings are only added. -/
theorem mapStep_keeps_regions (space : AddressSpace) (call : MapCall) :
    space.regions ⊆ (mapStep space call).2.regions := by
  by_cases zero : call.size = 0
  · rw [mapStep_zero space zero]
    exact List.Subset.refl _
  · by_cases roundable : Roundable call.size
    · rw [mapStep_roundable space zero roundable]
      split
      · exact List.Subset.refl _
      · exact List.subset_cons_self _ _
    · rw [mapStep_unroundable space zero roundable]
      exact List.Subset.refl _

theorem final_keeps_regions (space : AddressSpace) (calls : List MapCall) :
    space.regions ⊆ (Transition.final mapStep space calls).regions := by
  induction calls generalizing space with
  | nil => exact List.Subset.refl _
  | cons call rest inductionHypothesis =>
      exact List.Subset.trans (mapStep_keeps_regions space call) (inductionHypothesis _)

/-- A range that is handed out lies in a region that was mapped for it, apart
from all earlier ones. -/
theorem grant_fresh {space : AddressSpace} {call : MapCall} {range : Region}
    (answered : AnsweredThroughout space call)
    (handed : grant (call, (mapStep space call).1) = some range) :
    ∃ region ∈ (mapStep space call).2.regions, range.addresses ⊆ region.addresses ∧
      ∀ earlier ∈ space.regions, Disjoint region.addresses earlier.addresses := by
  have errors : IsErrValue (failure einval) ∧ IsErrValue (failure enomem) := by decide
  have refused : grant (call, failure einval) = none ∧ grant (call, failure enomem) = none :=
    ⟨if_pos errors.1, if_pos errors.2⟩
  by_cases zero : call.size = 0
  · rw [mapStep_zero space zero, refused.1] at handed
    exact nomatch handed
  · by_cases roundable : Roundable call.size
    · rw [mapStep_roundable space zero roundable] at handed ⊢
      by_cases failed : IsErrValue call.answer
      · rw [if_pos failed, refused.2] at handed
        exact nomatch handed
      · rw [if_neg failed] at handed ⊢
        have same : range = ⟨call.answer.toNat, call.size.toNat⟩ := by
          simpa [grant, failed] using handed.symm
        subst same
        have covers := (pageAlign_isLeast roundable).1.2
        refine ⟨_, List.mem_cons_self, ?_, (answered.fresh zero roundable failed).2⟩
        exact Set.Ico_subset_Ico_right (Nat.add_le_add_left covers _)
    · rw [mapStep_unroundable space zero roundable, refused.2] at handed
      exact nomatch handed

/-- Ranges handed out in a run avoid what was mapped before it, lie in what is
mapped after it, and avoid each other. -/
structure Separated (space : AddressSpace) (calls : List MapCall) : Prop where
  earlier : ∀ range ∈ granted space calls, ∀ region ∈ space.regions,
    Disjoint range.addresses region.addresses
  inside : ∀ range ∈ granted space calls,
    ∃ region ∈ (Transition.final mapStep space calls).regions, range.addresses ⊆ region.addresses
  pairwise : (granted space calls).Pairwise fun range other =>
    Disjoint range.addresses other.addresses

theorem separated_of_answered {space : AddressSpace} {calls : List MapCall}
    (answered : Transition.Along mapStep AnsweredThroughout space calls) :
    Separated space calls := by
  induction calls generalizing space with
  | nil => exact ⟨(fun _ absent => nomatch absent), (fun _ absent => nomatch absent), .nil⟩
  | cons call rest inductionHypothesis =>
      have later := inductionHypothesis answered.2
      have keeps := mapStep_keeps_regions space call
      have laterEarlier : ∀ range ∈ granted (mapStep space call).2 rest,
          ∀ region ∈ space.regions, Disjoint range.addresses region.addresses := by
        intro range member region mapped
        exact later.earlier range member region (keeps mapped)
      cases handed : grant (call, (mapStep space call).1) with
      | none =>
          have same : granted space (call :: rest) = granted (mapStep space call).2 rest := by
            rw [granted_cons, handed]
            rfl
          refine ⟨?_, ?_, ?_⟩
          · rw [same]
            exact laterEarlier
          · rw [same]
            exact later.inside
          · rw [same]
            exact later.pairwise
      | some range =>
          obtain ⟨region, mapped, within, fresh⟩ := grant_fresh answered.1 handed
          have first : granted space (call :: rest) =
              range :: granted (mapStep space call).2 rest := by
            rw [granted_cons, handed]
            rfl
          refine ⟨?_, ?_, ?_⟩
          · rw [first, List.forall_mem_cons]
            refine ⟨?_, laterEarlier⟩
            intro old member
            exact (fresh old member).mono_left within
          · rw [first, List.forall_mem_cons]
            exact ⟨⟨region, final_keeps_regions _ rest mapped, within⟩, later.inside⟩
          · rw [first]
            apply List.pairwise_cons.mpr
            refine ⟨?_, later.pairwise⟩
            intro other member
            exact ((later.earlier other member region mapped).mono_right within).symm

/-- In every sequence of calls whose mappings are answered as assumed, each call
obeys its laws and all ranges handed out are separated. -/
theorem tamallocStats_grants_separated {space : AddressSpace} {calls : List MapCall}
    (answered : Transition.Along mapStep AnsweredThroughout space calls) :
    Transition.Along mapStep CallLaws space calls ∧ Separated space calls :=
  ⟨Transition.Along.imp mapStep answered fun _ _ => callLaws, separated_of_answered answered⟩

/-- Two mappings of a process that has none: 5000 bytes take two pages. -/
theorem two_grants_separated :
    granted ⟨[], [], []⟩ [⟨5000, 0x10000⟩, ⟨4096, 0x12000⟩] = [⟨0x10000, 5000⟩, ⟨0x12000, 4096⟩] ∧
      Transition.Along mapStep CallLaws ⟨[], [], []⟩ [⟨5000, 0x10000⟩, ⟨4096, 0x12000⟩] ∧
      Separated ⟨[], [], []⟩ [⟨5000, 0x10000⟩, ⟨4096, 0x12000⟩] := by
  refine ⟨by decide, ?_⟩
  apply tamallocStats_grants_separated
  have first : Roundable 5000 := ⟨8192, by decide⟩
  have second : Roundable 4096 := ⟨4096, by decide⟩
  refine ⟨answeredThroughout_of_free (by decide) first (by decide) (by decide) ?_,
    answeredThroughout_of_free (by decide) second (by decide) (by decide) ?_, trivial⟩
  · intro region absent
    exact nomatch absent
  · intro region member
    obtain rfl := List.mem_singleton.mp member
    exact Set.Ico_disjoint_Ico.mpr (by decide)

end UsacSyscalls.Project2
