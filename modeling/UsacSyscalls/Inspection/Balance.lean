import UsacSyscalls.Kernel.References
import UsacSyscalls.Foundation.Transition
import UsacSyscalls.Project1.Syscalls
import UsacSyscalls.Project2.Syscalls
import UsacSyscalls.Project3.MemoryLimits

/-!
Contract: the syscalls that inspect processes give back what they take.

Owns the four calls that look at other processes, the proof that each keeps to
the rules for references along every path through it, and the balance of the
kernel's counters over every sequence of complete calls.

Does not own the lock discipline or the interleaving of these calls with exits.
-/

set_option autoImplicit false

namespace UsacSyscalls.Inspection

open UsacSyscalls.Foundation
open UsacSyscalls.Foundation.Monitor
open UsacSyscalls.Kernel

inductive InspectingCall where
  | getIoThrottle (pid : PidT) (userStats : Nat)
  | memoryAllocationStatistics (pid : PidT) (info : Nat)
  | tamalloc (info : Nat)
  | addMemoryLimit (processPid : PidT) (memoryLimit : SizeT)
deriving DecidableEq, Repr

def InspectingCall.body : InspectingCall → Syscall Int
  | .getIoThrottle pid userStats => Project1.getIoThrottle pid userStats
  | .memoryAllocationStatistics pid info => Project2.memoryAllocationStatistics pid info
  | .tamalloc info => Project2.tamalloc info
  | .addMemoryLimit processPid memoryLimit => Project3.addMemoryLimit processPid memoryLimit

/-- The program keeps to the rules and ends with the holdings it started with. -/
def Balanced {α : Type} (program : Syscall α) (holdings : Holdings) : Prop :=
  references.Ensures program (fun _ after => after = holdings) holdings

theorem Balanced.bind {α β : Type} {program : Syscall α} {next : α → Syscall β}
    {post : β → Holdings → Prop} {holdings : Holdings} (balanced : Balanced program holdings)
    (rest : ∀ value, references.Ensures (next value) post holdings) :
    references.Ensures (program >>= next) post holdings := by
  apply ensures_bind.mpr
  apply Ensures.mono balanced
  intro value after same
  rw [same]
  exact rest value

theorem balanced_pure {α : Type} (value : α) (holdings : Holdings) :
    Balanced (pure value) holdings :=
  rfl

theorem balanced_copyOut (destination : Nat) (bytes : List Byte) (holdings : Holdings) :
    Balanced (copyOut destination bytes) holdings := by
  apply ensures_bind.mpr
  apply ensures_neutral ⟨rfl, fun _ _ => rfl⟩ fun _ => rfl
  intro left
  by_cases copied : left = 0
  · simp [copied]
  · simp [copied]

/-- After `rcu_read_lock` there is a section to leave. -/
theorem inside_section : 0 < ((0 : Counters) + one .rcuReadSide) .rcuReadSide := by
  rw [zero_add]
  exact one_self_pos .rcuReadSide

theorem balanced_getIoStatsForPid (pid : PidT) (stats : ByteMemory) :
    Balanced (Project1.getIoStatsForPid pid stats) .nothing := by
  unfold Project1.getIoStatsForPid
  apply ensures_bind.mpr
  apply ensures_rcuReadLock
  apply ensures_bind.mpr
  apply ensures_neutral ⟨rfl, fun _ _ => rfl⟩ fun _ => rfl
  intro found
  apply ensures_bind.mpr
  apply ensures_neutral ⟨rfl, fun _ _ => rfl⟩ fun _ => rfl
  intro task
  cases task with
  | none =>
      apply ensures_bind.mpr
      apply ensures_rcuReadUnlock inside_section
      simp [Holdings.nothing]
  | some task =>
      apply ensures_bind.mpr
      apply ensures_neutral ⟨rfl, fun _ _ => rfl⟩ fun _ => rfl
      intro accounting
      apply ensures_bind.mpr
      apply ensures_rcuReadUnlock inside_section
      simp [Holdings.nothing]

theorem balanced_getIoThrottle (pid : PidT) (userStats : Nat) :
    Balanced (Project1.getIoThrottle pid userStats) .nothing := by
  unfold Project1.getIoThrottle
  apply ensures_bind.mpr
  apply ensures_neutral ⟨rfl, fun _ _ => rfl⟩ fun _ => rfl
  intro uninitialised
  apply (balanced_getIoStatsForPid pid uninitialised).bind
  intro result
  by_cases failed : result.1 < 0
  · simp only [failed, if_true]
    exact balanced_pure _ _
  · simp only [failed, if_false]
    exact balanced_copyOut _ _ _

theorem balanced_rssPercentOfVm (vmKb rssKb : UnsignedLong) (holdings : Holdings) :
    Balanced (Project2.rssPercentOfVm vmKb rssKb) holdings := by
  unfold Project2.rssPercentOfVm
  by_cases mapped : vmKb > 0
  · rw [if_pos mapped]
    apply ensures_bind.mpr
    apply ensures_neutral ⟨rfl, fun _ _ => rfl⟩ fun _ => rfl
    intro quotient
    exact balanced_pure _ _
  · rw [if_neg mapped]
    exact balanced_pure _ _

/-- Both figures are read between `get_task_mm` and `mmput`. -/
theorem balanced_memoryAllocationStatistics (pid : PidT) (info : Nat) :
    Balanced (Project2.memoryAllocationStatistics pid info) .nothing := by
  unfold Project2.memoryAllocationStatistics
  apply ensures_bind.mpr
  apply ensures_neutral ⟨rfl, fun _ _ => rfl⟩ fun _ => rfl
  intro uninitialised
  apply ensures_bind.mpr
  apply ensures_rcuReadLock
  apply ensures_bind.mpr
  apply ensures_neutral ⟨rfl, fun _ _ => rfl⟩ fun _ => rfl
  intro found
  apply ensures_bind.mpr
  apply ensures_neutral ⟨rfl, fun _ _ => rfl⟩ fun _ => rfl
  intro task
  cases task with
  | none =>
      apply ensures_bind.mpr
      apply ensures_rcuReadUnlock inside_section
      simp [Holdings.nothing]
  | some task =>
      apply ensures_bind.mpr
      apply ensures_getTaskMm
      · apply ensures_bind.mpr
        apply ensures_rcuReadUnlock inside_section
        simp [Holdings.nothing]
      · intro mm
        have taken : 0 < ((0 : Counters) + one .rcuReadSide + one (.mmUsers mm)) (.mmUsers mm) := by
          simp
        apply ensures_bind.mpr
        apply ensures_totalVm (.inl taken)
        intro vm
        apply ensures_bind.mpr
        apply ensures_getMmRss (.inl taken)
        intro rss
        apply (balanced_rssPercentOfVm _ _ _).bind
        intro percent
        apply ensures_bind.mpr
        apply ensures_neutral ⟨rfl, fun _ _ => rfl⟩ fun _ => rfl
        intro adjustment
        apply ensures_bind.mpr
        apply ensures_mmput taken
        rw [add_sub_cancel_right]
        apply ensures_bind.mpr
        apply ensures_rcuReadUnlock inside_section
        rw [add_sub_cancel_right]
        exact balanced_copyOut _ _ _

/-- Each round of the loop ends with the holdings it started with, whichever of
its three ways it takes. -/
theorem balanced_aggregate (processes : List TaskRef) (kinfo : Project2.TamallocGlobalInfo)
    {held : Counters} (nonneg : ∀ resource, 0 ≤ held resource) :
    Balanced (Project2.aggregate processes kinfo) ⟨held, none⟩ := by
  induction processes generalizing kinfo with
  | nil => exact balanced_pure _ _
  | cons task rest inductionHypothesis =>
      unfold Project2.aggregate
      apply ensures_bind.mpr
      apply ensures_neutral ⟨rfl, fun _ _ => rfl⟩ fun _ => rfl
      intro exitState
      by_cases zombie : exitState = exitZombie
      · rw [if_pos zombie]
        exact inductionHypothesis kinfo
      · rw [if_neg zombie]
        apply ensures_bind.mpr
        apply ensures_getTaskMm
        · exact inductionHypothesis kinfo
        · intro mm
          have taken : 0 < (held + one (.mmUsers mm)) (.mmUsers mm) := by
            have start := nonneg (.mmUsers mm)
            rw [Pi.add_apply, one_self]
            omega
          apply ensures_bind.mpr
          apply ensures_totalVm (.inl taken)
          intro vm
          apply ensures_bind.mpr
          apply ensures_getMmRss (.inl taken)
          intro rss
          apply ensures_bind.mpr
          apply ensures_mmput taken
          rw [add_sub_cancel_right]
          exact inductionHypothesis _

theorem balanced_tamalloc (info : Nat) : Balanced (Project2.tamalloc info) .nothing := by
  have nonneg : ∀ resource, 0 ≤ ((0 : Counters) + one .rcuReadSide) resource := by
    intro resource
    rw [zero_add]
    exact (one_bounds _ resource).1
  unfold Project2.tamalloc
  apply ensures_bind.mpr
  apply ensures_rcuReadLock
  apply ensures_bind.mpr
  apply ensures_neutral ⟨rfl, fun _ _ => rfl⟩ fun _ => rfl
  intro processes
  apply (balanced_aggregate processes ⟨0, 0⟩ nonneg).bind
  intro kinfo
  apply ensures_bind.mpr
  apply ensures_rcuReadUnlock inside_section
  rw [add_sub_cancel_right]
  exact balanced_copyOut _ _ _

/-! ### `add_memory_limit` -/

/-- One reference to the task that is being limited. -/
def referring (task : TaskRef) : Holdings := ⟨one (.taskReferences task), none⟩

/-- A part that fails gives the reference back, and one that succeeds leaves it
to the next part. -/
def PassesOn {α : Type} (task : α → TaskRef) : Except Int α → Holdings → Prop
  | .error _, after => after = .nothing
  | .ok value, after => after = referring (task value)

theorem balanced_getProcessMemoryUsage (task : TaskRef) (held : Counters) :
    Balanced (Project3.getProcessMemoryUsage (some task)) ⟨held, none⟩ := by
  unfold Project3.getProcessMemoryUsage
  apply ensures_bind.mpr
  apply ensures_taskMm
  intro tested _
  cases tested with
  | none => exact balanced_pure _ _
  | some mm =>
      apply ensures_bind.mpr
      apply ensures_taskMm
      intro loaded still
      have same : loaded = some mm := still mm rfl
      subst same
      apply ensures_bind.mpr
      apply ensures_totalVm (.inr ⟨task, rfl⟩)
      intro pages
      exact balanced_pure _ _

/-- Every failing exit of `add_memory_limit` after the lookup. -/
theorem ensures_putTaskStruct_error {α : Type} (taskOf : α → TaskRef) (task : TaskRef)
    (code : Int) :
    references.Ensures (do putTaskStruct task; pure (.error code)) (PassesOn taskOf)
      (referring task) := by
  apply ensures_bind.mpr
  apply ensures_putTaskStruct (one_self_pos _)
  rw [sub_self]
  rfl

theorem ensures_addAdmission (processPid : PidT) (memoryLimit : SizeT) :
    references.Ensures (Project3.addAdmission processPid memoryLimit) (PassesOn id) .nothing := by
  unfold Project3.addAdmission
  by_cases invalid : processPid.toInt ≤ 0 ∨ memoryLimit ≤ 0
  · rw [if_pos invalid]
    rfl
  · rw [if_neg invalid]
    apply ensures_bind.mpr
    apply ensures_neutral ⟨rfl, fun _ _ => rfl⟩ fun _ => rfl
    intro permitted
    cases permitted with
    | false => rfl
    | true =>
        apply ensures_bind.mpr
        apply ensures_neutral ⟨rfl, fun _ _ => rfl⟩ fun _ => rfl
        intro pid
        apply ensures_bind.mpr
        apply ensures_getPidTask
        · rfl
        · intro task
          rw [zero_add]
          apply (balanced_getProcessMemoryUsage task (one (.taskReferences task))).bind
          intro currentUsage
          by_cases above : currentUsage > memoryLimit.toInt
          · rw [if_pos above]
            exact ensures_putTaskStruct_error id task _
          · rw [if_neg above]
            rfl

theorem ensures_addDuplicateWalk (processPid : PidT) (task : TaskRef) :
    references.Ensures (Project3.addDuplicateWalk processPid task) (PassesOn fun _ => task)
      (referring task) := by
  unfold Project3.addDuplicateWalk
  apply ensures_bind.mpr
  apply ensures_neutral ⟨rfl, fun _ _ => rfl⟩ fun _ => rfl
  intro entries
  by_cases listed : entries.any (fun entry => entry.pid == processPid) = true
  · rw [if_pos listed]
    exact ensures_putTaskStruct_error _ task _
  · rw [if_neg listed]
    rfl

theorem ensures_addAllocation (task : TaskRef) :
    references.Ensures (Project3.addAllocation task) (PassesOn fun _ => task)
      (referring task) := by
  unfold Project3.addAllocation
  apply ensures_bind.mpr
  apply ensures_neutral ⟨rfl, fun _ _ => rfl⟩ fun _ => rfl
  intro allocated
  cases allocated with
  | false => exact ensures_putTaskStruct_error _ task _
  | true => rfl

theorem ensures_addLink (processPid : PidT) (memoryLimit : SizeT) (task : TaskRef) :
    references.Ensures (Project3.addLink processPid memoryLimit task)
      (fun _ after => after = .nothing) (referring task) := by
  unfold Project3.addLink
  apply ensures_bind.mpr
  apply ensures_neutral ⟨rfl, fun _ _ => rfl⟩ fun _ => rfl
  intro _
  apply ensures_bind.mpr
  apply ensures_putTaskStruct (one_self_pos _)
  rw [sub_self]
  rfl

/-- The parts of `add_memory_limit` are joined by testing for an error. -/
theorem ensures_bind_part {α : Type} {part : Syscall (Except Int α)} {taskOf : α → TaskRef}
    {next : Except Int α → Syscall Int} {holdings : Holdings}
    (ensures : references.Ensures part (PassesOn taskOf) holdings)
    (failed : ∀ code, next (.error code) = pure code)
    (rest : ∀ value, references.Ensures (next (.ok value)) (fun _ after => after = .nothing)
      (referring (taskOf value))) :
    references.Ensures (part >>= next) (fun _ after => after = .nothing) holdings := by
  apply ensures_bind.mpr
  apply Ensures.mono ensures
  intro result after passed
  cases result with
  | error code =>
      rw [failed]
      exact passed
  | ok value =>
      rw [show after = referring (taskOf value) from passed]
      exact rest value

theorem balanced_addMemoryLimit (processPid : PidT) (memoryLimit : SizeT) :
    Balanced (Project3.addMemoryLimit processPid memoryLimit) .nothing := by
  unfold Project3.addMemoryLimit
  apply ensures_bind_part (ensures_addAdmission processPid memoryLimit) fun _ => rfl
  intro task
  apply ensures_bind_part (ensures_addDuplicateWalk processPid task) fun _ => rfl
  intro _
  apply ensures_bind_part (ensures_addAllocation task) fun _ => rfl
  intro _
  exact ensures_addLink processPid memoryLimit task

theorem balanced_body (call : InspectingCall) : Balanced call.body .nothing := by
  cases call with
  | getIoThrottle pid userStats => exact balanced_getIoThrottle pid userStats
  | memoryAllocationStatistics pid info => exact balanced_memoryAllocationStatistics pid info
  | tamalloc info => exact balanced_tamalloc info
  | addMemoryLimit processPid memoryLimit => exact balanced_addMemoryLimit processPid memoryLimit

/-! ### Sequences of complete calls -/

/-- The counters are ahead of their value at the start by what the caller
holds, and no task changes its address space during the call. -/
structure Accounted (env : Environment) (start : Counters) (holdings : Holdings)
    (state : Machine × Counters) : Prop where
  counters_eq : state.2 = start + holdings.held
  nonneg : ∀ resource, 0 ≤ holdings.held resource
  observes : Observes env holdings.observed

theorem Accounted.step {env : Environment} {start : Counters} {holdings : Holdings}
    {state : Machine × Counters} {operation : Op} (accounted : Accounted env start holdings state)
    (allowed : references.allowed holdings operation) :
    start ≤ state.2 ∧
      references.expected holdings operation (counting env operation state).1 ∧
      Accounted env start (references.next holdings operation (counting env operation state).1)
        (counting env operation state).2 := by
  obtain ⟨still, observes⟩ := accounted.observes.step operation state.1
  refine ⟨?_, still, ?_, next_held_nonneg accounted.nonneg allowed _, observes⟩
  · intro resource
    rw [accounted.counters_eq]
    exact le_add_of_nonneg_right (accounted.nonneg resource)
  · show state.2 + _ = start + (holdings.held + _)
    rw [accounted.counters_eq, add_assoc]
    rfl

/-- One complete call on the machine and the counters. -/
def callStep (state : Machine × Counters) (event : Environment × InspectingCall) :
    Int × Machine × Counters :=
  Program.run (counting event.1) event.2.body state

/-- In every sequence of complete calls, whatever the processes, the registry
and the results: no counter drops below its value at the start of a call while
the call runs, every counter is back at that value when it returns, and the
call itself goes as it does without counters. -/
theorem calls_balance_counters (state : Machine × Counters)
    (events : List (Environment × InspectingCall)) :
    Transition.Along callStep
      (fun before event =>
        Program.Throughout (counting event.1) (fun during _ => before.2 ≤ during.2)
            event.2.body before ∧
          (callStep before event).2.2 = before.2 ∧
          ((callStep before event).1, (callStep before event).2.1) =
            complete event.1 event.2.body before.1)
      state events := by
  apply Transition.along_of_forall
  intro before event
  have start : Accounted event.1 before.2 .nothing before :=
    ⟨(add_zero _).symm, fun _ => le_refl 0, fun _ _ absent => nomatch absent⟩
  obtain ⟨throughout, after, accounted, balanced⟩ :=
    (balanced_body event.2).run (fun _ _ _ accounted allowed => accounted.step allowed) start
  refine ⟨throughout, ?_, run_counting event.1 event.2.body before⟩
  have returned := accounted.counters_eq
  rw [balanced] at returned
  rw [callStep, returned]
  exact add_zero _

end UsacSyscalls.Inspection
