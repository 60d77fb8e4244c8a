import Mathlib.Algebra.BigOperators.Group.Finset.Piecewise
import Mathlib.Algebra.Order.BigOperators.Group.Finset
import Mathlib.Data.Fintype.Basic
import UsacSyscalls.Inspection.Balance

/-!
Contract: address spaces stay alive while they are read.

Owns any number of callers that run the inspecting calls one operation at a
time, interleaved with processes that exit, the invariant that ties what the
callers hold to the users of each address space, and the safety of every read
in runs in which no task exits between the test of its `mm` and the read of
`total_vm` by `add_memory_limit`. The two races that are left out are exhibited.

Does not own what an uninterrupted call does; a task that was found stays
valid here, and no process takes a new address space.
-/

set_option autoImplicit false

namespace UsacSyscalls.Inspection

open UsacSyscalls.Foundation
open UsacSyscalls.Foundation.Monitor
open UsacSyscalls.Kernel

/-! ### The system -/

/-- What is left of the current call of a caller, and its bookkeeping. -/
structure Caller where
  residual : Syscall Int
  holdings : Holdings

/-- The task whose `mm` the call has found non-null and whose `total_vm` it has
not read yet. -/
def Caller.awaited (state : Caller) : Option TaskRef := state.holdings.observed.map Prod.fst

/-- The pointer through which the next operation reads an address space. -/
def nextRead : Syscall Int → Option (Option MmRef)
  | .pure _ => none
  | .request operation _ => reads operation

/-- `mm` is the address space of each task, and `freed` marks those whose last
user is gone. -/
structure System (ι : Type) where
  machine : Machine
  tasks : Finset TaskRef
  mm : TaskRef → Option MmRef
  counters : Counters
  freed : MmRef → Bool
  callers : ι → Caller

inductive Event (ι : Type) where
  | enter (caller : ι) (call : InspectingCall)
  | run (caller : ι) (env : Environment)
  | exit (task : TaskRef)

namespace System

variable {ι : Type}

/-- The environment of one operation, in which every task has the address space
it has in the system. -/
def environment (system : System ι) (env : Environment) : Environment :=
  { env with task := fun task => { env.task task with mm := system.mm task } }

/-- An address space is freed when its users drop to zero. -/
def recount (system : System ι) (counters : Counters) : System ι :=
  { system with
    counters := counters
    freed := fun mm => system.freed mm ||
      (decide (0 < system.counters (.mmUsers mm)) && decide (counters (.mmUsers mm) ≤ 0)) }

/-! ### The invariant -/

/-- The users of an address space that its tasks account for. -/
def attached (system : System ι) : Resource → Int
  | .mmUsers mm => (system.tasks.filter fun task => system.mm task = some mm).card
  | _ => 0

/-- What all callers hold together. -/
def heldByAll [Fintype ι] (system : System ι) (resource : Resource) : Int :=
  ∑ caller, (system.callers caller).holdings.held resource

/-- A caller whose rest of the call keeps to the rules, with what it observed
still true. -/
structure CallerSound (mm : TaskRef → Option MmRef) (state : Caller) : Prop where
  nonneg : ∀ resource, 0 ≤ state.holdings.held resource
  observes : ∀ task observed, state.holdings.observed = some (task, observed) →
    mm task = some observed
  ensures : references.Ensures state.residual (fun _ after => after = .nothing) state.holdings

structure Sound [Fintype ι] (system : System ι) : Prop where
  listed : ∀ task mm, system.mm task = some mm → task ∈ system.tasks
  accounted : ∀ resource,
    system.attached resource + system.heldByAll resource ≤ system.counters resource
  freed : ∀ mm, system.freed mm = true → system.counters (.mmUsers mm) ≤ 0
  callers : ∀ caller, CallerSound system.mm (system.callers caller)

theorem attached_nonneg (system : System ι) (resource : Resource) :
    0 ≤ system.attached resource := by
  cases resource with
  | mmUsers mm => exact Int.natCast_nonneg _
  | _ => exact le_refl 0

/-- Freed address spaces stay without users while only living ones get new
users. -/
theorem freed_recount {system : System ι} {counters : Counters}
    (freed : ∀ mm, system.freed mm = true → system.counters (.mmUsers mm) ≤ 0)
    (living : ∀ mm, system.counters (.mmUsers mm) < counters (.mmUsers mm) →
      0 < system.counters (.mmUsers mm)) (mm : MmRef)
    (marked : (system.recount counters).freed mm = true) : counters (.mmUsers mm) ≤ 0 := by
  have cases := (Bool.or_eq_true _ _).mp marked
  rcases cases with before | now
  · have users := freed mm before
    have onlyLiving := living mm
    omega
  · simp only [Bool.and_eq_true, decide_eq_true_eq] at now
    exact now.2

/-- Whoever reads an address space next reads one that is there. -/
def ReadsAlive (system : System ι) : Prop :=
  ∀ caller pointer, nextRead (system.callers caller).residual = some pointer →
    ∃ mm, pointer = some mm ∧ system.freed mm = false

/-- No call is running, every task is a user of its address space, and no
address space with users has been freed. -/
structure Fresh (system : System ι) : Prop where
  listed : ∀ task mm, system.mm task = some mm → task ∈ system.tasks
  accounted : ∀ resource, system.attached resource ≤ system.counters resource
  freed : ∀ mm, system.freed mm = true → system.counters (.mmUsers mm) ≤ 0
  idle : ∀ caller, ∃ code, system.callers caller = ⟨.pure code, .nothing⟩

section Counting

variable [Fintype ι] {system : System ι}

theorem Sound.heldByAll_nonneg (sound : system.Sound) (resource : Resource) :
    0 ≤ system.heldByAll resource :=
  Finset.sum_nonneg fun caller _ => (sound.callers caller).nonneg resource

theorem Sound.held_le (sound : system.Sound) (caller : ι) (resource : Resource) :
    (system.callers caller).holdings.held resource ≤ system.heldByAll resource :=
  Finset.single_le_sum (f := fun caller => (system.callers caller).holdings.held resource)
    (fun caller _ => (sound.callers caller).nonneg resource) (Finset.mem_univ caller)

/-- A task that has an address space keeps it alive. -/
theorem Sound.counters_pos_of_attached (sound : system.Sound) {task : TaskRef} {mm : MmRef}
    (has : system.mm task = some mm) : 0 < system.counters (.mmUsers mm) := by
  have member : task ∈ system.tasks.filter fun task => system.mm task = some mm := by
    simp [sound.listed task mm has, has]
  have positive : 0 < system.attached (.mmUsers mm) :=
    Int.natCast_pos.mpr (Finset.card_pos.mpr ⟨task, member⟩)
  have accounted := sound.accounted (.mmUsers mm)
  have others := sound.heldByAll_nonneg (.mmUsers mm)
  omega

/-- A user that is held keeps the address space alive. -/
theorem Sound.counters_pos_of_held (sound : system.Sound) {caller : ι} {mm : MmRef}
    (holds : 0 < (system.callers caller).holdings.held (.mmUsers mm)) :
    0 < system.counters (.mmUsers mm) := by
  have accounted := sound.accounted (.mmUsers mm)
  have tasks := system.attached_nonneg (.mmUsers mm)
  have others := sound.held_le caller (.mmUsers mm)
  omega

theorem Fresh.sound (fresh : system.Fresh) : system.Sound := by
  have nothing : ∀ caller, (system.callers caller).holdings = .nothing := by
    intro caller
    obtain ⟨code, idle⟩ := fresh.idle caller
    rw [idle]
  refine ⟨fresh.listed, ?_, fresh.freed, ?_⟩
  · intro resource
    have none : system.heldByAll resource = 0 := by
      apply Finset.sum_eq_zero
      intro caller _
      rw [nothing]
      rfl
    rw [none, add_zero]
    exact fresh.accounted resource
  · intro caller
    obtain ⟨code, idle⟩ := fresh.idle caller
    rw [idle]
    exact ⟨fun _ => le_refl 0, (fun _ _ absent => nomatch absent), rfl⟩

theorem Sound.readsAlive (sound : system.Sound) : system.ReadsAlive := by
  intro caller pointer reading
  have current := sound.callers caller
  have ensures := current.ensures
  cases residual : (system.callers caller).residual with
  | pure code =>
      rw [residual] at reading
      exact nomatch reading
  | request operation next =>
      rw [residual] at ensures reading
      obtain ⟨mm, present, kept⟩ := ensures.1.2 pointer reading
      have users : 0 < system.counters (.mmUsers mm) := by
        rcases kept with holds | ⟨task, observed⟩
        · exact sound.counters_pos_of_held holds
        · exact sound.counters_pos_of_attached (current.observes task mm observed)
      refine ⟨mm, present, ?_⟩
      by_contra freed
      have gone := sound.freed mm (Bool.eq_true_of_not_eq_false freed)
      omega

end Counting

/-! ### Steps -/

/-- A process that exits gives up its address space and its user of it. -/
def exited (system : System ι) (task : TaskRef) (mm : MmRef) : System ι :=
  { system.recount (system.counters - one (.mmUsers mm)) with
    mm := Function.update system.mm task none }

/-- The task is no longer among those that have the address space. -/
theorem attached_exited [Fintype ι] {system : System ι} {task : TaskRef} {mm : MmRef}
    (sound : system.Sound) (has : system.mm task = some mm) (resource : Resource) :
    (system.exited task mm).attached resource =
      system.attached resource - one (.mmUsers mm) resource := by
  cases resource with
  | rcuReadSide => simp [attached]
  | taskReferences other => simp [attached]
  | mmUsers other =>
      have left : (system.tasks.filter fun candidate =>
          (system.exited task mm).mm candidate = some other) =
            (system.tasks.filter fun candidate => system.mm candidate = some other).erase task := by
        ext candidate
        simp only [Finset.mem_filter, Finset.mem_erase]
        by_cases same : candidate = task
        · subst same
          simp [exited]
        · simp [exited, same]
      show ((system.tasks.filter fun candidate =>
        (system.exited task mm).mm candidate = some other).card : Int) = _
      rw [left]
      by_cases same : other = mm
      · subst same
        have member : task ∈ system.tasks.filter fun candidate =>
            system.mm candidate = some other := by
          simp [sound.listed task other has, has]
        have positive := Finset.card_pos.mpr ⟨task, member⟩
        rw [Finset.card_erase_of_mem member, one_self]
        simp only [attached]
        omega
      · have absent : task ∉ system.tasks.filter fun candidate =>
            system.mm candidate = some other := by
          simp [has, Ne.symm same]
        have different : Resource.mmUsers other ≠ .mmUsers mm := by simpa using same
        rw [Finset.erase_eq_of_notMem absent, one_of_ne different, sub_zero]
        rfl

variable [DecidableEq ι]

def setCaller (system : System ι) (caller : ι) (state : Caller) : System ι :=
  { system with callers := Function.update system.callers caller state }

/-- The next operation of a running call. -/
def performed (system : System ι) (caller : ι) (env : Environment) (operation : Op)
    (next : Reply operation → Syscall Int) : System ι :=
  let answer := kernel (system.environment env) operation system.machine
  let held := references.next (system.callers caller).holdings operation answer.1
  { system.recount (system.counters + change operation answer.1) with
    machine := answer.2 }.setCaller caller ⟨next answer.1, held⟩

/-- A caller enters a call when it has returned from the last one. -/
def step (system : System ι) : Event ι → Unit × System ι
  | .enter caller call =>
      match (system.callers caller).residual with
      | .pure _ => ((), system.setCaller caller ⟨call.body, (system.callers caller).holdings⟩)
      | .request _ _ => ((), system)
  | .run caller env =>
      match (system.callers caller).residual with
      | .pure _ => ((), system)
      | .request operation next => ((), system.performed caller env operation next)
  | .exit task =>
      match system.mm task with
      | none => ((), system)
      | some mm => ((), system.exited task mm)

section Preservation

variable [Fintype ι] {system : System ι}

theorem heldByAll_setCaller (caller : ι) (state : Caller) (resource : Resource) :
    (system.setCaller caller state).heldByAll resource =
      system.heldByAll resource - (system.callers caller).holdings.held resource +
        state.holdings.held resource := by
  have updated : (fun other => ((system.setCaller caller state).callers other).holdings.held
      resource) =
        Function.update (fun other => (system.callers other).holdings.held resource) caller
          (state.holdings.held resource) := by
    funext other
    exact Function.apply_update (fun _ (state : Caller) => state.holdings.held resource)
      system.callers caller state other
  have split := Finset.sum_eq_add_sum_sdiff_singleton_of_mem (Finset.mem_univ caller)
    fun other => (system.callers other).holdings.held resource
  unfold heldByAll
  rw [updated, Finset.sum_update_of_mem (Finset.mem_univ caller), split]
  omega

theorem Sound.callers_update (sound : system.Sound) {caller : ι} {state : Caller}
    (new : CallerSound system.mm state) (other : ι) :
    CallerSound system.mm (Function.update system.callers caller state other) := by
  by_cases same : other = caller
  · subst same
    rw [Function.update_self]
    exact new
  · rw [Function.update_of_ne same]
    exact sound.callers other

/-- A caller returns with nothing held, so it may enter its next call. -/
theorem Sound.enter (sound : system.Sound) (caller : ι) (call : InspectingCall) :
    (system.step (.enter caller call)).2.Sound := by
  have current := sound.callers caller
  simp only [step]
  split
  · rename_i code returned
    have nothing : (system.callers caller).holdings = .nothing := by
      have ensures := current.ensures
      rw [returned] at ensures
      exact ensures
    refine ⟨sound.listed, ?_, sound.freed, ?_⟩
    · intro resource
      rw [heldByAll_setCaller, sub_add_cancel]
      exact sound.accounted resource
    · apply sound.callers_update
      refine ⟨current.nonneg, current.observes, ?_⟩
      rw [nothing]
      exact balanced_body call
  · exact sound

/-- One operation of a caller moves the counters and what the caller holds by
the same amounts. -/
theorem Sound.performed (sound : system.Sound) {caller : ι} (env : Environment) {operation : Op}
    {next : Reply operation → Syscall Int}
    (running : (system.callers caller).residual = .request operation next) :
    (system.performed caller env operation next).Sound := by
  have current := sound.callers caller
  have ensures := current.ensures
  rw [running] at ensures
  obtain ⟨allowed, rest⟩ := ensures
  have observes : Observes (system.environment env) (system.callers caller).holdings.observed :=
    current.observes
  obtain ⟨still, observesNext⟩ := observes.step operation system.machine
  refine ⟨sound.listed, ?_, ?_, ?_⟩
  · intro resource
    have accounted := sound.accounted resource
    unfold System.performed
    rw [heldByAll_setCaller]
    show system.attached resource + (system.heldByAll resource -
        (system.callers caller).holdings.held resource +
          ((system.callers caller).holdings.held resource + change operation _ resource)) ≤
      system.counters resource + change operation _ resource
    omega
  · apply freed_recount sound.freed
    intro mm more
    have taken : 0 < change operation
        (kernel (system.environment env) operation system.machine).1 (.mmUsers mm) :=
      pos_of_lt_add_right more
    obtain ⟨task, has⟩ := exists_task_of_change_pos taken
    exact sound.counters_pos_of_attached has
  · apply sound.callers_update
    exact ⟨next_held_nonneg current.nonneg allowed _, observesNext, rest _ still⟩

theorem Sound.run (sound : system.Sound) (caller : ι) (env : Environment) :
    (system.step (.run caller env)).2.Sound := by
  simp only [step]
  split
  · exact sound
  · rename_i operation next running
    exact sound.performed env running

/-- An exit keeps the invariant unless some call counts on the address space of
the task. -/
theorem Sound.exit (sound : system.Sound) {task : TaskRef}
    (spared : ∀ caller, (system.callers caller).awaited ≠ some task) :
    (system.step (.exit task)).2.Sound := by
  simp only [step]
  split
  · exact sound
  · rename_i mm has
    refine ⟨?_, ?_, ?_, ?_⟩
    · intro other kept still
      by_cases same : other = task
      · subst same
        simp [exited] at still
      · simp only [exited, Function.update_of_ne same] at still
        exact sound.listed other kept still
    · intro resource
      have accounted := sound.accounted resource
      rw [attached_exited sound has]
      show system.attached resource - one (.mmUsers mm) resource + system.heldByAll resource ≤
        system.counters resource - one (.mmUsers mm) resource
      omega
    · apply freed_recount sound.freed
      intro other more
      have bounds := one_bounds (.mmUsers mm) (.mmUsers other)
      change system.counters (.mmUsers other) <
        system.counters (.mmUsers other) - one (.mmUsers mm) (.mmUsers other) at more
      omega
    · intro caller
      have current := sound.callers caller
      refine ⟨current.nonneg, ?_, current.ensures⟩
      intro other kept (observed : (system.callers caller).holdings.observed = some (other, kept))
      have different : other ≠ task := by
        intro same
        apply spared caller
        simp [Caller.awaited, observed, same]
      show Function.update system.mm task none other = some kept
      rw [Function.update_of_ne different]
      exact current.observes other kept observed

end Preservation

/-! ### Runs -/

/-- An exit spares the task if no call awaits the read of its address space. -/
def Spares (system : System ι) : Event ι → Prop
  | .exit task => ∀ caller, (system.callers caller).awaited ≠ some task
  | _ => True

variable [Fintype ι] {system : System ι}

theorem Sound.step (sound : system.Sound) {event : Event ι} (spares : system.Spares event) :
    (system.step event).2.Sound := by
  cases event with
  | enter caller call => exact sound.enter caller call
  | run caller env => exact sound.run caller env
  | exit task => exact sound.exit spares

/-- In every state of every run in which no task exits while a call awaits the
read of its address space, every read is of an address space that is there. -/
theorem reads_alive_along_runs {events : List (Event ι)} (fresh : system.Fresh)
    (spares : Transition.Along step Spares system events) :
    (Transition.final step system events).ReadsAlive := by
  apply Sound.readsAlive
  exact Transition.invariant_final step Spares Sound
    (fun _ _ sound spared => sound.step spared) fresh.sound spares

end System

/-! ### One process and one caller -/

/-- One process with one address space, and one caller. -/
def lone : System Unit where
  machine := .boot fun _ => 0
  tasks := {1}
  mm := fun task => if task = 1 then some 1 else none
  counters := one (.mmUsers 1)
  freed := fun _ => false
  callers := fun _ => ⟨.pure 0, .nothing⟩

theorem lone_fresh : lone.Fresh := by
  refine ⟨?_, ?_, ?_, fun _ => ⟨0, rfl⟩⟩
  · intro task mm has
    by_cases same : task = 1
    · simp [lone, same]
    · simp [lone, same] at has
  · intro resource
    cases resource with
    | rcuReadSide => exact le_refl 0
    | taskReferences task => exact le_refl 0
    | mmUsers mm =>
        by_cases same : mm = 1
        · subst same
          exact le_refl 1
        · have unused : lone.attached (.mmUsers mm) = 0 := by
            simp [lone, System.attached, Finset.filter_singleton, Ne.symm same]
          rw [unused]
          exact (one_bounds (.mmUsers 1) (.mmUsers mm)).1
  · intro mm freed
    exact nomatch freed

/-- The first operations of a call of the only caller. -/
def opening (call : InspectingCall) (operations : Nat) : List (Event Unit) :=
  .enter () call :: List.replicate operations (.run () (.quiet 7))

/-- A report on the process has taken its user of the address space when the
process exits, and reads it safely. -/
theorem report_reads_alive_after_exit :
    nextRead ((Transition.final System.step lone
        (opening (.memoryAllocationStatistics 7 0) 5 ++ [.exit 1])).callers ()).residual =
      some (some 1) ∧
    (Transition.final System.step lone
      (opening (.memoryAllocationStatistics 7 0) 5 ++ [.exit 1])).ReadsAlive := by
  refine ⟨by decide, ?_⟩
  apply System.reads_alive_along_runs lone_fresh
  refine ⟨trivial, trivial, trivial, trivial, trivial, trivial, ?_, trivial⟩
  intro caller
  cases caller
  decide

/-- A limit for the process has tested its `mm`. If the process exits before the
second load, `total_vm` is read through a null pointer. If it exits after the
second load, `total_vm` is read from an address space that has been freed. -/
theorem limit_reads_dead_after_exit :
    ¬ (Transition.final System.step lone
        (opening (.addMemoryLimit 7 8192) 4 ++ [.exit 1, .run () (.quiet 7)])).ReadsAlive ∧
    ¬ (Transition.final System.step lone
        (opening (.addMemoryLimit 7 8192) 5 ++ [.exit 1])).ReadsAlive := by
  refine ⟨?_, ?_⟩
  · intro alive
    obtain ⟨mm, present, _⟩ := alive () none (by decide)
    exact nomatch present
  · intro alive
    obtain ⟨mm, present, kept⟩ := alive () (some 1) (by decide)
    cases present
    exact absurd kept (by decide)

end UsacSyscalls.Inspection
