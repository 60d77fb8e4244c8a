import UsacSyscalls.Project3.Exits
import UsacSyscalls.Project3.Refinement

/-!
Contract: calls about different pids.

Owns the effect of one edit on the one list it reaches, the fact that this
effect concerns only the entries with the pid of the edit, and the result that
two edits of different pids can be exchanged: same return codes, the same
entries in some order, and the same pairs for a later `get_memory_limits`.

Does not own edits that overlap in time; those are in `Interleaving`.
-/

set_option autoImplicit false

namespace UsacSyscalls.Project3

open UsacSyscalls.Foundation
open UsacSyscalls.Foundation.KeyedList
open UsacSyscalls.Kernel

/-! ### One edit as an edit of one list -/

def Edit.pid : Edit → PidT
  | .add processPid _ => processPid
  | .update processPid _ => processPid
  | .remove processPid => processPid

def Edit.head : Edit → ListHead
  | .add _ _ => memoryLimitedProcesses .addMemoryLimit
  | .update _ _ => memoryLimitedProcesses .updateMemoryLimit
  | .remove _ => memoryLimitedProcesses .removeMemoryLimit

/-- The return code and the list left behind. -/
def Edit.apply (env : Environment) :
    Edit → List MemoryLimitationEntry → Int × List MemoryLimitationEntry
  | .add processPid memoryLimit, entries =>
      match admission env processPid memoryLimit with
      | .error code => (code, entries)
      | .ok _ =>
          if Listed entries processPid then (-101, entries)
          else if env.kmalloc then (0, ⟨processPid, memoryLimit⟩ :: entries)
          else (-enomem, entries)
  | .update processPid memoryLimit, entries =>
      if processPid.toInt ≤ 0 ∨ memoryLimit ≤ 0 then (-einval, entries)
      else if env.capable = false then (-eperm, entries)
      else updateWalk processPid memoryLimit entries
  | .remove processPid, entries =>
      if processPid.toInt ≤ 0 then (-einval, entries)
      else if env.capable = false then (-eperm, entries)
      else removeWalk processPid entries

theorem step_edit (edit : Edit) (env : Environment) (machine : Machine) :
    (edit.call env).step machine =
      (⟨(edit.apply env (machine.heads edit.head)).1, []⟩,
        machine.setHead edit.head (edit.apply env (machine.heads edit.head)).2) := by
  have unchanged : ∀ head, machine.setHead head (machine.heads head) = machine :=
    fun head => setHead_self machine rfl
  cases edit with
  | add processPid memoryLimit =>
      simp only [Edit.call, Call.step, complete_addMemoryLimit, Edit.apply, Edit.head,
        memoryLimitedProcesses, observe]
      cases admission env processPid memoryLimit with
      | error code => simp only [unchanged]
      | ok task =>
          by_cases listed : Listed (machine.heads .shared) processPid
          · simp only [listed, if_true, unchanged]
          · by_cases allocated : env.kmalloc = true
            · simp only [listed, if_false, allocated, if_true]
            · simp only [listed, if_false, allocated, unchanged, Bool.false_eq_true]
  | update processPid memoryLimit =>
      simp only [Edit.call, Call.step, complete_updateMemoryLimit, Edit.apply, Edit.head,
        memoryLimitedProcesses, observe]
      by_cases invalid : processPid.toInt ≤ 0 ∨ memoryLimit ≤ 0
      · simp only [if_pos invalid, unchanged]
      · by_cases unprivileged : env.capable = false
        · simp only [if_neg invalid, if_pos unprivileged, unchanged]
        · simp only [if_neg invalid, if_neg unprivileged]
  | remove processPid =>
      simp only [Edit.call, Call.step, complete_removeMemoryLimit, Edit.apply, Edit.head,
        memoryLimitedProcesses, observe]
      by_cases invalid : processPid.toInt ≤ 0
      · simp only [if_pos invalid, unchanged]
      · by_cases unprivileged : env.capable = false
        · simp only [if_neg invalid, if_pos unprivileged, unchanged]
        · simp only [if_neg invalid, if_neg unprivileged]

/-! ### Locality -/

/-- The insertion of `add_memory_limit` sees and changes only its own pid. -/
theorem insert_local (processPid : PidT) (memoryLimit : SizeT) (allocated : Bool) :
    LocalEdit MemoryLimitationEntry.pid processPid fun entries =>
      if Listed entries processPid then ((-101 : Int), entries)
      else if allocated then (0, ⟨processPid, memoryLimit⟩ :: entries)
      else (-enomem, entries) where
  output := by
    intro left right same
    simp only [listed_iff_part, same]
    split
    · rfl
    · split <;> rfl
  inside := by
    intro left right same
    have front : ∀ entries : List MemoryLimitationEntry,
        part MemoryLimitationEntry.pid processPid (⟨processPid, memoryLimit⟩ :: entries) =
          ⟨processPid, memoryLimit⟩ :: part MemoryLimitationEntry.pid processPid entries :=
      fun entries => part_cons_self _ rfl entries
    simp only [listed_iff_part, same]
    split
    · exact same
    · split
      · rw [front, front, same]
      · exact same
  outside := by
    intro entries other different
    split
    · rfl
    · split
      · exact part_cons_of_ne _ different.symm _
      · rfl

theorem Edit.apply_local (edit : Edit) (env : Environment) :
    LocalEdit MemoryLimitationEntry.pid edit.pid (edit.apply env) := by
  cases edit with
  | add processPid memoryLimit =>
      cases admitted : admission env processPid memoryLimit with
      | error code =>
          have refused : (Edit.add processPid memoryLimit).apply env =
              fun entries => (code, entries) := by
            funext entries
            simp only [Edit.apply, admitted]
          rw [refused]
          exact LocalEdit.unchanged _ processPid code
      | ok task =>
          have inserts : (Edit.add processPid memoryLimit).apply env = fun entries =>
              if Listed entries processPid then (-101, entries)
              else if env.kmalloc then (0, ⟨processPid, memoryLimit⟩ :: entries)
              else (-enomem, entries) := by
            funext entries
            simp only [Edit.apply, admitted]
          rw [inserts]
          exact insert_local processPid memoryLimit env.kmalloc
  | update processPid memoryLimit =>
      exact LocalEdit.ite _ _ (LocalEdit.unchanged _ processPid _)
        (LocalEdit.ite _ _ (LocalEdit.unchanged _ processPid _)
          (updateWalk_local processPid memoryLimit))
  | remove processPid =>
      exact LocalEdit.ite _ _ (LocalEdit.unchanged _ processPid _)
        (LocalEdit.ite _ _ (LocalEdit.unchanged _ processPid _) (removeWalk_local processPid))

/-! ### Exchange -/

theorem setHead_heads_self (machine : Machine) (head : ListHead)
    (entries : List MemoryLimitationEntry) : (machine.setHead head entries).heads head = entries :=
  Function.update_self ..

theorem setHead_heads_of_ne (machine : Machine) {head other : ListHead} (different : other ≠ head)
    (entries : List MemoryLimitationEntry) :
    (machine.setHead head entries).heads other = machine.heads other :=
  Function.update_of_ne different ..

section Exchange

variable {first second : Edit} (different : first.pid ≠ second.pid)
  (firstEnv secondEnv : Environment) (machine : Machine)

include different

theorem code_after :
    ((second.call secondEnv).step ((first.call firstEnv).step machine).2).1.code =
      ((second.call secondEnv).step machine).1.code := by
  simp only [step_edit]
  by_cases sameHead : second.head = first.head
  · rw [sameHead, setHead_heads_self]
    exact (first.apply_local firstEnv).output_after (second.apply_local secondEnv) different _
  · rw [setHead_heads_of_ne machine sameHead]

theorem heads_after (head : ListHead) :
    (((second.call secondEnv).step ((first.call firstEnv).step machine).2).2.heads head).Perm
      (((first.call firstEnv).step ((second.call secondEnv).step machine).2).2.heads head) := by
  simp only [step_edit]
  by_cases sameHead : second.head = first.head
  · by_cases edited : head = first.head
    · rw [sameHead, edited]
      simp only [setHead_heads_self]
      exact (first.apply_local firstEnv).perm_after (second.apply_local secondEnv) different _
    · rw [sameHead]
      simp only [setHead_heads_of_ne _ edited, List.Perm.refl]
  · have otherHead : first.head ≠ second.head := fun same => sameHead same.symm
    by_cases byFirst : head = first.head
    · rw [byFirst]
      simp only [setHead_heads_self, setHead_heads_of_ne _ otherHead, List.Perm.refl]
    · rw [setHead_heads_of_ne _ byFirst]
      by_cases bySecond : head = second.head
      · rw [bySecond]
        simp only [setHead_heads_self, setHead_heads_of_ne _ sameHead, List.Perm.refl]
      · simp only [setHead_heads_of_ne _ byFirst, setHead_heads_of_ne _ bySecond, List.Perm.refl]

end Exchange

section Get

variable {env : Environment} {buffer returned : Nat} {maxEntries : SizeT}

/-- A copy that fails, of a record or of the count, is all the caller sees. -/
theorem get_observation_faulted {machine : Machine} (accepted : Accepted buffer maxEntries returned)
    (fails : ¬ ((∀ index < (delivered machine maxEntries).length,
      env.Copies (recordAddress buffer index) sizeofMemoryLimitation) ∧ env.Copies returned 8)) :
    ((Call.get env buffer maxEntries returned).step machine).1 = ⟨-efault, []⟩ := by
  have code : (complete env (getMemoryLimits buffer maxEntries returned) machine).1 = -efault := by
    rcases copies_or_first_failing env buffer (delivered machine maxEntries).length with
      copies | ⟨failing, below, first, stops⟩
    · have countFails : ¬ env.Copies returned
          (leBytes 8 (delivered machine maxEntries).length).length := by
        rw [leBytes_length]
        exact fun count => fails ⟨copies, count⟩
      rw [getMemoryLimits_copied env machine accepted copies]
      have nonempty : 0 < (leBytes 8 (delivered machine maxEntries).length).length := by
        rw [leBytes_length]
        decide
      exact if_neg (mt (Environment.copyToUser_left_eq_zero nonempty _).mp countFails)
    · rw [getMemoryLimits_faulted env machine accepted (List.getElem?_eq_getElem below) first stops]
  simp only [Call.step, code]
  rfl

/-- With room for all entries the order of the list only shows in the order of
the delivered pairs. -/
theorem get_of_perm {left right : Machine} (leftInvariant : RegistryInvariant left)
    (rightInvariant : RegistryInvariant right)
    (perm : (left.heads .shared).Perm (right.heads .shared))
    (room : (left.heads .shared).length ≤ maxEntries.toNat)
    (apart : recordAddress buffer (left.heads .shared).length ≤ returned ∨
      returned + 8 ≤ buffer) :
    ((Call.get env buffer maxEntries returned).step left).1.code =
        ((Call.get env buffer maxEntries returned).step right).1.code ∧
      ((Call.get env buffer maxEntries returned).step left).1.delivered.Perm
        ((Call.get env buffer maxEntries returned).step right).1.delivered := by
  have leftAll : delivered left maxEntries = left.heads .shared := List.take_of_length_le room
  have rightAll : delivered right maxEntries = right.heads .shared :=
    List.take_of_length_le (perm.length_eq ▸ room)
  have sameLength : (delivered right maxEntries).length = (delivered left maxEntries).length := by
    rw [leftAll, rightAll, perm.length_eq]
  by_cases accepted : Accepted buffer maxEntries returned
  · by_cases works : (∀ index < (delivered left maxEntries).length,
        env.Copies (recordAddress buffer index) sizeofMemoryLimitation) ∧ env.Copies returned 8
    · have leftWork : PointersWork env left buffer maxEntries returned :=
        ⟨works.1, works.2, by rwa [leftAll]⟩
      have rightWork : PointersWork env right buffer maxEntries returned := by
        refine ⟨?_, works.2, ?_⟩
        · rw [sameLength]
          exact works.1
        · rwa [sameLength, leftAll]
      rw [get_observation leftInvariant accepted leftWork,
        get_observation rightInvariant accepted rightWork, sameLength, leftAll, rightAll]
      exact ⟨rfl, perm.map _⟩
    · have rightFails := works
      rw [← sameLength] at rightFails
      rw [get_observation_faulted accepted works, get_observation_faulted accepted rightFails]
      exact ⟨rfl, List.Perm.refl _⟩
  · simp only [Call.step, getMemoryLimits_refused _ _ accepted]
    exact ⟨trivial, List.Perm.refl _⟩

end Get

/-- From every reachable machine, two edits of different pids return the same
codes in both orders and leave the same entries in every list, and a later
`get_memory_limits` with room for all of them, whose count does not land on its
records, returns the same code and delivers the same pairs. -/
theorem edits_of_different_pids_commute (user : ByteMemory) (calls : List Call)
    (first second : Edit) (firstEnv secondEnv : Environment)
    (different : first.pid ≠ second.pid) :
    let machine := afterCalls (.boot user) calls
    let firstAlone := (first.call firstEnv).step machine
    let secondAlone := (second.call secondEnv).step machine
    let secondAfterFirst := (second.call secondEnv).step firstAlone.2
    let firstAfterSecond := (first.call firstEnv).step secondAlone.2
    firstAfterSecond.1.code = firstAlone.1.code ∧
      secondAfterFirst.1.code = secondAlone.1.code ∧
      (∀ head, (secondAfterFirst.2.heads head).Perm (firstAfterSecond.2.heads head)) ∧
      ∀ env buffer maxEntries returned,
        (secondAfterFirst.2.heads .shared).length ≤ maxEntries.toNat →
        (recordAddress buffer (secondAfterFirst.2.heads .shared).length ≤ returned ∨
          returned + 8 ≤ buffer) →
        let getAfterSecond := (Call.get env buffer maxEntries returned).step secondAfterFirst.2
        let getAfterFirst := (Call.get env buffer maxEntries returned).step firstAfterSecond.2
        getAfterSecond.1.code = getAfterFirst.1.code ∧
          getAfterSecond.1.delivered.Perm getAfterFirst.1.delivered := by
  intro machine firstAlone secondAlone secondAfterFirst firstAfterSecond
  have invariant : RegistryInvariant machine := reachable_invariant user calls
  have secondLast : RegistryInvariant secondAfterFirst.2 :=
    step_invariant (step_invariant invariant _) _
  have firstLast : RegistryInvariant firstAfterSecond.2 :=
    step_invariant (step_invariant invariant _) _
  have heads := heads_after different firstEnv secondEnv machine
  refine ⟨code_after different.symm secondEnv firstEnv machine,
    code_after different firstEnv secondEnv machine, heads, ?_⟩
  intro env buffer maxEntries returned room apart
  exact get_of_perm secondLast firstLast (heads .shared) room apart

/-- Two successful adds leave their entries in opposite orders. -/
theorem adds_of_different_pids_commute :
    let machine := afterCalls (.boot fun _ => 0) []
    let sevenThenEight := (Call.add (.quiet 8) 8 4096).step
      ((Call.add (.quiet 7) 7 8192).step machine).2
    let eightThenSeven := (Call.add (.quiet 7) 7 8192).step
      ((Call.add (.quiet 8) 8 4096).step machine).2
    sevenThenEight.2.heads .shared = [⟨8, 4096⟩, ⟨7, 8192⟩] ∧
      eightThenSeven.2.heads .shared = [⟨7, 8192⟩, ⟨8, 4096⟩] ∧
      (sevenThenEight.2.heads .shared).Perm (eightThenSeven.2.heads .shared) ∧
      ((Call.get (.quiet 7) 4096 2 8192).step sevenThenEight.2).1.delivered.Perm
        ((Call.get (.quiet 7) 4096 2 8192).step eightThenSeven.2).1.delivered := by
  have commute := edits_of_different_pids_commute (fun _ => 0) [] (.add 7 8192) (.add 8 4096)
    (.quiet 7) (.quiet 8) (by decide)
  have delivers := commute.2.2.2 (.quiet 7) 4096 2 8192 (by decide) (by decide)
  exact ⟨by decide, by decide, commute.2.2.1 .shared, delivers.2⟩

end UsacSyscalls.Project3
