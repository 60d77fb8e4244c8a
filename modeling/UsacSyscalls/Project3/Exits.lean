import UsacSyscalls.Project3.Walks

/-!
Contract: which exit the editing calls take and what a failed call leaves.

Owns the comparison that `add_memory_limit` makes between usage and limit
against the comparison of the two magnitudes, the state after a call that
returns an error, and what callers without the capability can do and see over
whole runs.

Does not own `get_memory_limits`, which checks no capability.
-/

set_option autoImplicit false

namespace UsacSyscalls.Project3

open UsacSyscalls.Foundation
open UsacSyscalls.Kernel

/-! ### Usage against limit -/

/-- The memory a task uses, in bytes. -/
def bytesInUse (env : Environment) (task : TaskRef) : Nat :=
  match (env.task task).mm with
  | none => 0
  | some mm => (env.mm mm).totalVm.toNat * 4096

theorem usage_eq_bytesInUse {env : Environment} {task : TaskRef}
    (small : bytesInUse env task < 2 ^ 63) : usage env task = bytesInUse env task := by
  unfold bytesInUse at small ⊢
  unfold usage
  cases held : (env.task task).mm with
  | none => rfl
  | some mm =>
      simp only [held] at small
      have pages : 2 ^ pageShift = 4096 := rfl
      have shifted : ((env.mm mm).totalVm <<< pageShift).toNat =
          (env.mm mm).totalVm.toNat * 4096 := by
        rw [BitVec.toNat_shiftLeft, Nat.shiftLeft_eq, pages, Nat.mod_eq_of_lt (by omega)]
      have signed : 2 * ((env.mm mm).totalVm <<< pageShift).toNat < 2 ^ 64 := by
        rw [shifted]
        omega
      simp only [BitVec.toInt_eq_toNat_of_lt signed, shifted]

/-- The cast of the limit to `long` keeps the comparison exactly for limits
below `2 ^ 63`; from there on every usage is above the limit. -/
theorem usage_above_limit_iff {env : Environment} {task : TaskRef} (memoryLimit : SizeT)
    (small : bytesInUse env task < 2 ^ 63) :
    usage env task > memoryLimit.toInt ↔
      bytesInUse env task > memoryLimit.toNat ∨ 2 ^ 63 ≤ memoryLimit.toNat := by
  have bound := memoryLimit.isLt
  rw [usage_eq_bytesInUse small, BitVec.toInt_eq_toNat_cond]
  split <;> omega

/-- The exits of `add_memory_limit` after the task was found, with usage and
limit compared as magnitudes. -/
structure AdmitsByMagnitude (env : Environment) (machine : Machine) (processPid : PidT)
    (memoryLimit : SizeT) (task : TaskRef) : Prop where
  above : (complete env (addMemoryLimit processPid memoryLimit) machine).1 = -100 ↔
    bytesInUse env task > memoryLimit.toNat
  listed : ¬ bytesInUse env task > memoryLimit.toNat →
    Listed (machine.heads .shared) processPid →
      complete env (addMemoryLimit processPid memoryLimit) machine = (-101, machine)
  exhausted : ¬ bytesInUse env task > memoryLimit.toNat →
    ¬ Listed (machine.heads .shared) processPid → env.kmalloc = false →
      complete env (addMemoryLimit processPid memoryLimit) machine = (-enomem, machine)
  added : ¬ bytesInUse env task > memoryLimit.toNat →
    ¬ Listed (machine.heads .shared) processPid → env.kmalloc = true →
      complete env (addMemoryLimit processPid memoryLimit) machine =
        (0, machine.setHead .shared (⟨processPid, memoryLimit⟩ :: machine.heads .shared))

section Magnitude

variable {env : Environment} {processPid : PidT} {memoryLimit : SizeT} {task : TaskRef}
  (privileged : env.capable = true) (positive : 0 < processPid.toInt)
  (limited : 1 ≤ memoryLimit.toNat) (found : env.lookup processPid = some task)

include privileged positive limited found

theorem admission_of_found :
    admission env processPid memoryLimit =
      if usage env task > memoryLimit.toInt then .error (-100) else .ok task := by
  have valid : ¬ (processPid.toInt ≤ 0 ∨ memoryLimit ≤ 0) := by
    rw [BitVec.le_def]
    exact not_or.mpr ⟨Int.not_le.mpr positive, Nat.not_le.mpr limited⟩
  have granted : ¬ env.capable = false := by simp [privileged]
  unfold admission
  rw [if_neg valid, if_neg granted, found]

theorem complete_of_above (machine : Machine) (above : usage env task > memoryLimit.toInt) :
    complete env (addMemoryLimit processPid memoryLimit) machine = (-100, machine) := by
  rw [complete_addMemoryLimit, admission_of_found privileged positive limited found,
    if_pos above]

theorem complete_of_not_above (machine : Machine)
    (fits : ¬ usage env task > memoryLimit.toInt) :
    complete env (addMemoryLimit processPid memoryLimit) machine =
      if Listed (machine.heads .shared) processPid then (-101, machine)
      else if env.kmalloc then
        (0, machine.setHead .shared (⟨processPid, memoryLimit⟩ :: machine.heads .shared))
      else (-enomem, machine) := by
  rw [complete_addMemoryLimit, admission_of_found privileged positive limited found,
    if_neg fits]

end Magnitude

/-- A privileged `add_memory_limit` on a task that uses less than `2 ^ 63` bytes
admits by magnitude exactly for limits below `2 ^ 63`. -/
theorem admitsByMagnitude_iff (env : Environment) (machine : Machine) (processPid : PidT)
    (memoryLimit : SizeT) (task : TaskRef) (privileged : env.capable = true)
    (positive : 0 < processPid.toInt) (limited : 1 ≤ memoryLimit.toNat)
    (found : env.lookup processPid = some task) (small : bytesInUse env task < 2 ^ 63) :
    AdmitsByMagnitude env machine processPid memoryLimit task ↔
      memoryLimit.toNat < 2 ^ 63 := by
  have comparison := usage_above_limit_iff memoryLimit small
  have rejects := complete_of_above privileged positive limited found machine
  have accepts := complete_of_not_above privileged positive limited found machine
  constructor
  · intro admits
    by_contra large
    have refused := rejects (comparison.mpr (Or.inr (Nat.not_lt.mp large)))
    have above := admits.above.mp (by rw [refused])
    omega
  · intro signed
    have exact : usage env task > memoryLimit.toInt ↔
        bytesInUse env task > memoryLimit.toNat := by
      rw [comparison]
      omega
    rw [exact] at rejects accepts
    constructor
    case above =>
      constructor
      · intro refused
        by_contra fits
        rw [accepts fits] at refused
        split at refused
        · exact absurd refused (show (-101 : Int) ≠ -100 by decide)
        · split at refused
          · exact absurd refused (show (0 : Int) ≠ -100 by decide)
          · exact absurd refused (show -enomem ≠ -100 by decide)
      · intro above
        rw [rejects above]
    case listed =>
      intro fits listed
      rw [accepts fits, if_pos listed]
    case exhausted =>
      intro fits unlisted exhausted
      rw [accepts fits, if_neg unlisted, if_neg (by simp [exhausted])]
    case added =>
      intro fits unlisted allocated
      rw [accepts fits, if_neg unlisted, if_pos allocated]

theorem admitsByMagnitude_for_two_pages :
    (Environment.quiet 7).lookup 7 = some 1 ∧ bytesInUse (.quiet 7) 1 = 4096 ∧
      AdmitsByMagnitude (.quiet 7) (.boot fun _ => 0) 7 8192 1 :=
  ⟨by decide, by decide,
    (admitsByMagnitude_iff (.quiet 7) (.boot fun _ => 0) 7 8192 1 rfl (by decide) (by decide)
      (by decide) (by decide)).mpr (by decide)⟩

/-- A limit of `2 ^ 63` bytes is refused to a process that uses one page. -/
theorem addMemoryLimit_refuses_huge_limit :
    (complete (.quiet 7) (addMemoryLimit 7 0x8000000000000000) (.boot fun _ => 0)).1 = -100 ∧
      bytesInUse (.quiet 7) 1 = 4096 ∧ (0x8000000000000000 : SizeT).toNat = 2 ^ 63 := by
  decide

/-! ### Failed and unprivileged edits -/

/-- The arguments of a call that can edit a list. -/
inductive Edit where
  | add (processPid : PidT) (memoryLimit : SizeT)
  | update (processPid : PidT) (memoryLimit : SizeT)
  | remove (processPid : PidT)
deriving DecidableEq, Repr

def Edit.call (env : Environment) : Edit → Call
  | .add processPid memoryLimit => .add env processPid memoryLimit
  | .update processPid memoryLimit => .update env processPid memoryLimit
  | .remove processPid => .remove env processPid

/-- A failed edit leaves the machine as it was, whichever exit it took. -/
theorem failed_edit_unchanged (edit : Edit) (env : Environment) (machine : Machine)
    (failed : ((edit.call env).step machine).1.code ≠ 0) :
    ((edit.call env).step machine).2 = machine := by
  cases edit with
  | add processPid memoryLimit =>
      simp only [Edit.call, Call.step, complete_addMemoryLimit] at failed ⊢
      cases admitted : admission env processPid memoryLimit with
      | error code => rfl
      | ok task =>
          by_cases listed : Listed (machine.heads .shared) processPid
          · simp only [if_pos listed]
            rfl
          · by_cases allocated : env.kmalloc = true
            · simp only [admitted, if_neg listed, if_pos allocated] at failed
              exact absurd rfl failed
            · simp only [if_neg listed, if_neg allocated]
              rfl
  | update processPid memoryLimit =>
      simp only [Edit.call, Call.step, complete_updateMemoryLimit] at failed ⊢
      by_cases invalid : processPid.toInt ≤ 0 ∨ memoryLimit ≤ 0
      · rw [if_pos invalid]
        rfl
      · by_cases unprivileged : env.capable = false
        · rw [if_neg invalid, if_pos unprivileged]
          rfl
        · rw [if_neg invalid, if_neg unprivileged] at failed ⊢
          rw [updateWalk_eq_editFirst] at failed ⊢
          exact setHead_self machine (editFirst_unchanged _ failed).symm
  | remove processPid =>
      simp only [Edit.call, Call.step, complete_removeMemoryLimit] at failed ⊢
      by_cases invalid : processPid.toInt ≤ 0
      · rw [if_pos invalid]
        rfl
      · by_cases unprivileged : env.capable = false
        · rw [if_neg invalid, if_pos unprivileged]
          rfl
        · rw [if_neg invalid, if_neg unprivileged] at failed ⊢
          rw [removeWalk_eq_editFirst] at failed ⊢
          exact setHead_self machine (editFirst_unchanged _ failed).symm

/-- What an edit without the capability returns. -/
def refusal : Edit → Int
  | .add processPid memoryLimit =>
      if processPid.toInt ≤ 0 ∨ memoryLimit ≤ 0 then -einval else -eperm
  | .update processPid memoryLimit =>
      if processPid.toInt ≤ 0 ∨ memoryLimit ≤ 0 then -einval else -eperm
  | .remove processPid => if processPid.toInt ≤ 0 then -einval else -eperm

theorem unprivileged_edit_step (edit : Edit) {env : Environment} (machine : Machine)
    (unprivileged : env.capable = false) :
    (edit.call env).step machine = (⟨refusal edit, []⟩, machine) := by
  cases edit with
  | add processPid memoryLimit =>
      have refused : admission env processPid memoryLimit =
          .error (refusal (.add processPid memoryLimit)) := by
        simp only [admission, refusal, if_pos unprivileged]
        split <;> rfl
      simp only [Edit.call, Call.step, complete_addMemoryLimit, refused]
      rfl
  | update processPid memoryLimit =>
      simp only [Edit.call, Call.step, complete_updateMemoryLimit, refusal, if_pos unprivileged]
      split <;> rfl
  | remove processPid =>
      simp only [Edit.call, Call.step, complete_removeMemoryLimit, refusal, if_pos unprivileged]
      split <;> rfl

/-- The arguments of a call, if it is an edit by a caller without the
capability. -/
def unprivilegedEdit : Call → Option Edit
  | .add env processPid memoryLimit =>
      if env.capable then none else some (.add processPid memoryLimit)
  | .update env processPid memoryLimit =>
      if env.capable then none else some (.update processPid memoryLimit)
  | .remove env processPid => if env.capable then none else some (.remove processPid)
  | .get _ _ _ _ => none

theorem unprivileged_of_some {env : Environment} {arguments edit : Edit}
    (unprivileged : (if env.capable then none else some arguments) = some edit) :
    env.capable = false ∧ arguments = edit := by
  by_cases privileged : env.capable = true
  · rw [if_pos privileged] at unprivileged
    contradiction
  · rw [if_neg privileged] at unprivileged
    exact ⟨Bool.eq_false_of_not_eq_true privileged, Option.some.inj unprivileged⟩

theorem eq_call_of_unprivilegedEdit {call : Call} {edit : Edit}
    (unprivileged : unprivilegedEdit call = some edit) :
    ∃ env : Environment, env.capable = false ∧ call = edit.call env := by
  cases call with
  | add env processPid memoryLimit =>
      obtain ⟨incapable, rfl⟩ := unprivileged_of_some unprivileged
      exact ⟨env, incapable, rfl⟩
  | update env processPid memoryLimit =>
      obtain ⟨incapable, rfl⟩ := unprivileged_of_some unprivileged
      exact ⟨env, incapable, rfl⟩
  | remove env processPid =>
      obtain ⟨incapable, rfl⟩ := unprivileged_of_some unprivileged
      exact ⟨env, incapable, rfl⟩
  | get env buffer maxEntries returned => contradiction

/-- What the callers without the capability see of a run through their edits. -/
def unprivilegedView (machine : Machine) (calls : List Call) : List Observation :=
  ((calls.zip (Transition.outputs Call.step machine calls)).filter
    fun event => (unprivilegedEdit event.1).isSome).map Prod.snd

theorem unprivilegedView_eq (machine : Machine) (calls : List Call) :
    unprivilegedView machine calls =
      (calls.filterMap unprivilegedEdit).map fun edit => ⟨refusal edit, []⟩ := by
  induction calls generalizing machine with
  | nil => rfl
  | cons call rest inductionHypothesis =>
      have tail := inductionHypothesis (call.step machine).2
      unfold unprivilegedView at tail ⊢
      simp only [Transition.outputs, List.zip_cons_cons]
      cases edits : unprivilegedEdit call with
      | none =>
          rw [List.filter_cons_of_neg (by simp [edits]), List.filterMap_cons_none edits]
          exact tail
      | some edit =>
          obtain ⟨env, unprivileged, rfl⟩ := eq_call_of_unprivilegedEdit edits
          rw [List.filter_cons_of_pos (by simp [edits]), List.filterMap_cons_some edits,
            List.map_cons, List.map_cons, tail, unprivileged_edit_step edit machine unprivileged]

/-- Failed edits leave every list as it was. Edits without the capability
return a code that only their arguments determine; over a run they can be
deleted without changing where it ends, and what their callers see does not
depend on the state or on the other calls. -/
theorem failed_and_unprivileged_edits :
    (∀ (edit : Edit) (env : Environment) (machine : Machine),
      ((edit.call env).step machine).1.code ≠ 0 →
        ((edit.call env).step machine).2.heads = machine.heads) ∧
    (∀ (edit : Edit) (first second : Environment) (left right : Machine),
      first.capable = false → second.capable = false →
        ((edit.call first).step left).1 = ((edit.call second).step right).1) ∧
    (∀ (machine : Machine) (calls : List Call),
      afterCalls machine (calls.filter fun call => (unprivilegedEdit call).isNone) =
        afterCalls machine calls) ∧
    (∀ (left right : Machine) (first second : List Call),
      first.filterMap unprivilegedEdit = second.filterMap unprivilegedEdit →
        unprivilegedView left first = unprivilegedView right second) := by
  refine ⟨?_, ?_, ?_, ?_⟩
  · intro edit env machine failed
    rw [failed_edit_unchanged edit env machine failed]
  · intro edit first second left right firstUnprivileged secondUnprivileged
    rw [unprivileged_edit_step edit left firstUnprivileged,
      unprivileged_edit_step edit right secondUnprivileged]
  · intro machine calls
    apply Transition.final_filter Call.step
    intro state call dropped
    obtain ⟨edit, edits⟩ : ∃ edit, unprivilegedEdit call = some edit := by
      cases edits : unprivilegedEdit call with
      | none => simp [edits] at dropped
      | some edit => exact ⟨edit, rfl⟩
    obtain ⟨env, unprivileged, rfl⟩ := eq_call_of_unprivilegedEdit edits
    rw [unprivileged_edit_step edit state unprivileged]
  · intro left right first second same
    rw [unprivilegedView_eq, unprivilegedView_eq, same]

theorem duplicate_add_unchanged :
    let machine := afterCalls (.boot fun _ => 0) [.add (.quiet 7) 7 8192]
    let again := ((Edit.add 7 16384).call (.quiet 7)).step machine
    again.1.code = -101 ∧ again.2.heads = machine.heads :=
  ⟨by decide, failed_and_unprivileged_edits.1 (.add 7 16384) (.quiet 7)
    (afterCalls (.boot fun _ => 0) [.add (.quiet 7) 7 8192]) (by decide)⟩

end UsacSyscalls.Project3
