import Mathlib.Algebra.Group.Pi.Basic
import Mathlib.Algebra.Order.Group.Unbundled.Int
import UsacSyscalls.Foundation.Monitor
import UsacSyscalls.Kernel.Operations

/-!
Contract: the counted resources of the kernel and the rules for using them.

Owns the counters for read-side nesting, users of an address space and
references to a task, how each operation moves them, the handler that keeps
them next to the machine, and the bookkeeping of one caller: what it holds, and
the address space it has tested to be non-null and not yet read. The rules say
which operations that bookkeeping permits.

Does not own the syscalls that are checked against the rules.
-/

set_option autoImplicit false

namespace UsacSyscalls.Kernel

open UsacSyscalls.Foundation

/-! ### Counters -/

inductive Resource where
  | rcuReadSide
  | mmUsers (mm : MmRef)
  | taskReferences (task : TaskRef)
deriving DecidableEq, Repr

abbrev Counters := Resource → Int

/-- One count of a resource. -/
def one (resource : Resource) : Counters := Pi.single resource 1

@[simp] theorem one_self (resource : Resource) : one resource resource = 1 :=
  Pi.single_eq_same resource 1

theorem one_self_pos (resource : Resource) : 0 < one resource resource := by simp

@[simp] theorem one_of_ne {resource other : Resource} (different : other ≠ resource) :
    one resource other = 0 :=
  Pi.single_eq_of_ne different 1

theorem one_bounds (resource other : Resource) :
    0 ≤ one resource other ∧ one resource other ≤ 1 := by
  by_cases same : other = resource
  · subst same
    simp
  · simp [same]

/-- How far an operation that got `reply` moves each counter. A failed
`get_task_mm` or `get_pid_task` takes nothing. -/
def change : (operation : Op) → Reply operation → Counters
  | .rcuReadLock, _ => one .rcuReadSide
  | .rcuReadUnlock, _ => -one .rcuReadSide
  | .getTaskMm _, some mm => one (.mmUsers mm)
  | .mmput mm, _ => -one (.mmUsers mm)
  | .getPidTask _, some task => one (.taskReferences task)
  | .putTaskStruct task, _ => -one (.taskReferences task)
  | _, _ => 0

/-- An operation moves at most one counter, and by one. -/
theorem change_cases (operation : Op) (reply : Reply operation) :
    change operation reply = 0 ∨
      ∃ resource, change operation reply = one resource ∨
        change operation reply = -one resource := by
  unfold change
  split
  · exact .inr ⟨.rcuReadSide, .inl rfl⟩
  · exact .inr ⟨.rcuReadSide, .inr rfl⟩
  · exact .inr ⟨.mmUsers _, .inl rfl⟩
  · exact .inr ⟨.mmUsers _, .inr rfl⟩
  · exact .inr ⟨.taskReferences _, .inl rfl⟩
  · exact .inr ⟨.taskReferences _, .inr rfl⟩
  · exact .inl rfl

theorem neg_one_le_change (operation : Op) (reply : Reply operation) (resource : Resource) :
    -1 ≤ change operation reply resource := by
  rcases change_cases operation reply with unmoved | ⟨moved, up | down⟩
  · simp [unmoved]
  · have bounds := one_bounds moved resource
    rw [up]
    omega
  · have bounds := one_bounds moved resource
    rw [down, Pi.neg_apply]
    omega

/-- The kernel with its counters next to the machine. -/
def counting (env : Environment) : Program.Handler Op Reply (Machine × Counters) :=
  fun operation state =>
    ((kernel env operation state.1).1,
      (kernel env operation state.1).2,
      state.2 + change operation (kernel env operation state.1).1)

/-- Counting does not change what a call does. -/
theorem run_counting {α : Type} (env : Environment) (call : Syscall α)
    (state : Machine × Counters) :
    ((Program.run (counting env) call state).1, (Program.run (counting env) call state).2.1) =
      complete env call state.1 := by
  induction call generalizing state with
  | pure value => rfl
  | request operation next inductionHypothesis => exact inductionHypothesis _ _

/-! ### The bookkeeping of one caller -/

/-- The pointer an operation reads an address space through. -/
def reads : Op → Option (Option MmRef)
  | .totalVm mm => some mm
  | .getMmRss mm => some mm
  | _ => none

/-- `observed` is the task whose `mm` was last loaded and found non-null, with
the address space it named, until `total_vm` has been read. -/
structure Holdings where
  held : Counters
  observed : Option (TaskRef × MmRef)

def Holdings.nothing : Holdings := ⟨0, none⟩

def observe : (operation : Op) → Reply operation → Option (TaskRef × MmRef) →
    Option (TaskRef × MmRef)
  | .taskMm task, mm, _ => mm.map fun mm => (task, mm)
  | .totalVm _, _, _ => none
  | _, _, observed => observed

/-- What the caller may count on: a task keeps the address space it was
observed to have. -/
def StillObserved (holdings : Holdings) : (operation : Op) → Reply operation → Prop
  | .taskMm task, reply => ∀ mm, holdings.observed = some (task, mm) → reply = some mm
  | _, _ => True

/-- Only what is held is released, and an address space is only read while one
of its users is held or a task was observed to have it. -/
def references : Monitor Op Reply Holdings where
  allowed holdings operation :=
    (∀ reply resource, change operation reply resource < 0 → 0 < holdings.held resource) ∧
      ∀ pointer, reads operation = some pointer →
        ∃ mm, pointer = some mm ∧
          (0 < holdings.held (.mmUsers mm) ∨ ∃ task, holdings.observed = some (task, mm))
  expected := StillObserved
  next holdings operation reply :=
    ⟨holdings.held + change operation reply, observe operation reply holdings.observed⟩

/-- Under the rules nobody ends up owing a count. -/
theorem next_held_nonneg {holdings : Holdings} {operation : Op}
    (nonneg : ∀ resource, 0 ≤ holdings.held resource)
    (allowed : references.allowed holdings operation) (reply : Reply operation)
    (resource : Resource) : 0 ≤ (references.next holdings operation reply).held resource := by
  have before := nonneg resource
  have atLeast := neg_one_le_change operation reply resource
  show 0 ≤ holdings.held resource + change operation reply resource
  by_cases negative : change operation reply resource < 0
  · have available := allowed.1 reply resource negative
    omega
  · omega

/-- The task has the address space it was observed to have. -/
def Observes (env : Environment) (observed : Option (TaskRef × MmRef)) : Prop :=
  ∀ task mm, observed = some (task, mm) → (env.task task).mm = some mm

/-- An environment that agrees with what was observed answers as expected and
agrees with what is observed next. -/
theorem Observes.step {env : Environment} {holdings : Holdings}
    (observes : Observes env holdings.observed) (operation : Op) (machine : Machine) :
    StillObserved holdings operation (kernel env operation machine).1 ∧
      Observes env (observe operation (kernel env operation machine).1 holdings.observed) := by
  cases operation with
  | taskMm task =>
      refine ⟨observes task, ?_⟩
      intro other mm loaded
      obtain ⟨found, present, same⟩ := Option.map_eq_some_iff.mp loaded
      cases same
      exact present
  | totalVm pointer => exact ⟨trivial, fun _ _ absent => nomatch absent⟩
  | _ => exact ⟨trivial, observes⟩

/-- A new user of an address space is taken from a task that has it. -/
theorem exists_task_of_change_pos {env : Environment} {operation : Op} {machine : Machine}
    {mm : MmRef}
    (taken : 0 < change operation (kernel env operation machine).1 (.mmUsers mm)) :
    ∃ task, (env.task task).mm = some mm := by
  cases operation with
  | getTaskMm task =>
      change 0 < change (.getTaskMm task) (env.taskMm task) (.mmUsers mm) at taken
      cases reply : env.taskMm task with
      | none => simp [change, reply] at taken
      | some found =>
          have same : mm = found := by
            by_contra different
            simp [change, reply, different] at taken
          subst same
          unfold Environment.taskMm at reply
          split at reply
          · exact nomatch reply
          · exact ⟨task, reply⟩
  | getPidTask pid =>
      change 0 < change (.getPidTask pid) (pid.bind env.lookup) (.mmUsers mm) at taken
      cases reply : pid.bind env.lookup <;> simp [change, reply] at taken
  | mmput other =>
      have bounds := one_bounds (.mmUsers other) (.mmUsers mm)
      change 0 < -one (.mmUsers other) (.mmUsers mm) at taken
      omega
  | _ => simp [change] at taken

/-! ### Rules -/

section Rules

/-- An operation that neither reads nor observes an address space. -/
structure Op.Unread (operation : Op) : Prop where
  reads_eq : reads operation = none
  observe_eq : ∀ reply observed, observe operation reply observed = observed

variable {operation : Op} {holdings : Holdings} {held : Counters}
variable {observed : Option (TaskRef × MmRef)}

theorem ensures_unread {post : Reply operation → Holdings → Prop} (unread : operation.Unread)
    (releasable : ∀ reply resource, change operation reply resource < 0 → 0 < held resource)
    (rest : ∀ reply, post reply ⟨held + change operation reply, observed⟩) :
    references.Ensures (.perform operation) post ⟨held, observed⟩ := by
  refine Monitor.ensures_perform.mpr ⟨⟨releasable, ?_⟩, ?_⟩
  · intro pointer readThrough
    simp [unread.reads_eq] at readThrough
  · intro reply _
    have next : references.next ⟨held, observed⟩ operation reply =
        ⟨held + change operation reply, observed⟩ := by
      simp [references, unread.observe_eq]
    rw [next]
    exact rest reply

theorem ensures_neutral {post : Reply operation → Holdings → Prop} (unread : operation.Unread)
    (unmoved : ∀ reply, change operation reply = 0) (rest : ∀ reply, post reply holdings) :
    references.Ensures (.perform operation) post holdings := by
  apply ensures_unread unread
  · intro reply resource negative
    simp [unmoved] at negative
  · intro reply
    rw [unmoved, add_zero]
    exact rest reply

/-- Releasing `resource` needs a count of it and gives that count back. -/
theorem ensures_release {resource : Resource} {post : Reply operation → Holdings → Prop}
    (unread : operation.Unread) (releases : ∀ reply, change operation reply = -one resource)
    (available : 0 < held resource)
    (rest : ∀ reply, post reply ⟨held - one resource, observed⟩) :
    references.Ensures (.perform operation) post ⟨held, observed⟩ := by
  apply ensures_unread unread
  · intro reply other negative
    rw [releases, Pi.neg_apply] at negative
    by_cases same : other = resource
    · exact same ▸ available
    · simp [same] at negative
  · intro reply
    rw [releases, ← sub_eq_add_neg]
    exact rest reply

theorem ensures_acquire {post : Reply operation → Holdings → Prop} (unread : operation.Unread)
    (acquires : ∀ reply resource, 0 ≤ change operation reply resource)
    (rest : ∀ reply, post reply ⟨held + change operation reply, observed⟩) :
    references.Ensures (.perform operation) post ⟨held, observed⟩ := by
  apply ensures_unread unread _ rest
  intro reply resource negative
  exact absurd negative (not_lt.mpr (acquires reply resource))

theorem ensures_rcuReadLock {post : Unit → Holdings → Prop}
    (rest : post () ⟨held + one .rcuReadSide, observed⟩) :
    references.Ensures rcuReadLock post ⟨held, observed⟩ :=
  ensures_acquire ⟨rfl, fun _ _ => rfl⟩ (fun _ resource => (one_bounds _ resource).1) fun _ => rest

theorem ensures_rcuReadUnlock {post : Unit → Holdings → Prop} (available : 0 < held .rcuReadSide)
    (rest : post () ⟨held - one .rcuReadSide, observed⟩) :
    references.Ensures rcuReadUnlock post ⟨held, observed⟩ :=
  ensures_release ⟨rfl, fun _ _ => rfl⟩ (fun _ => rfl) available fun _ => rest

theorem ensures_getTaskMm {task : TaskRef} {post : Option MmRef → Holdings → Prop}
    (failed : post none ⟨held, observed⟩)
    (taken : ∀ mm, post (some mm) ⟨held + one (.mmUsers mm), observed⟩) :
    references.Ensures (getTaskMm task) post ⟨held, observed⟩ := by
  apply ensures_acquire ⟨rfl, fun _ _ => rfl⟩
  · intro reply resource
    cases reply with
    | none => exact le_refl 0
    | some mm => exact (one_bounds _ resource).1
  · intro reply
    cases reply with
    | none => simpa [change] using failed
    | some mm => exact taken mm

theorem ensures_mmput {mm : MmRef} {post : Unit → Holdings → Prop}
    (available : 0 < held (.mmUsers mm)) (rest : post () ⟨held - one (.mmUsers mm), observed⟩) :
    references.Ensures (mmput mm) post ⟨held, observed⟩ :=
  ensures_release ⟨rfl, fun _ _ => rfl⟩ (fun _ => rfl) available fun _ => rest

theorem ensures_getPidTask {pid : Option StructPid} {post : Option TaskRef → Holdings → Prop}
    (failed : post none ⟨held, observed⟩)
    (taken : ∀ task, post (some task) ⟨held + one (.taskReferences task), observed⟩) :
    references.Ensures (getPidTask pid) post ⟨held, observed⟩ := by
  apply ensures_acquire ⟨rfl, fun _ _ => rfl⟩
  · intro reply resource
    cases reply with
    | none => exact le_refl 0
    | some task => exact (one_bounds _ resource).1
  · intro reply
    cases reply with
    | none => simpa [change] using failed
    | some task => exact taken task

theorem ensures_putTaskStruct {task : TaskRef} {post : Unit → Holdings → Prop}
    (available : 0 < held (.taskReferences task))
    (rest : post () ⟨held - one (.taskReferences task), observed⟩) :
    references.Ensures (putTaskStruct task) post ⟨held, observed⟩ :=
  ensures_release ⟨rfl, fun _ _ => rfl⟩ (fun _ => rfl) available fun _ => rest

/-- A load of `task->mm`, with what an earlier load of it promises. -/
theorem ensures_taskMm {task : TaskRef} {post : Option MmRef → Holdings → Prop}
    (rest : ∀ mm, (∀ earlier, observed = some (task, earlier) → mm = some earlier) →
      post mm ⟨held, mm.map fun mm => (task, mm)⟩) :
    references.Ensures (taskMm task) post ⟨held, observed⟩ := by
  refine Monitor.ensures_perform.mpr ⟨⟨?_, ?_⟩, ?_⟩
  · intro reply resource negative
    exact absurd negative (lt_irrefl 0)
  · intro pointer readThrough
    simp [reads] at readThrough
  · intro mm still
    simpa [references, change, observe] using rest mm still

section Reads

variable {mm : MmRef} {post : UnsignedLong → Holdings → Prop}
  (kept : 0 < held (.mmUsers mm) ∨ ∃ task, observed = some (task, mm))

include kept

theorem allowed_read (sourceReads : reads operation = some (some mm))
    (unmoved : ∀ reply, change operation reply = 0) :
    references.allowed ⟨held, observed⟩ operation := by
  refine ⟨?_, ?_⟩
  · intro reply resource negative
    simp [unmoved] at negative
  · intro pointer readThrough
    exact ⟨mm, Option.some.inj (readThrough.symm.trans sourceReads), kept⟩

theorem ensures_totalVm (rest : ∀ pages, post pages ⟨held, none⟩) :
    references.Ensures (totalVm (some mm)) post ⟨held, observed⟩ := by
  refine Monitor.ensures_perform.mpr ⟨allowed_read kept rfl fun _ => rfl, ?_⟩
  intro pages _
  simpa [references, change, observe] using rest pages

theorem ensures_getMmRss (rest : ∀ pages, post pages ⟨held, observed⟩) :
    references.Ensures (getMmRss (some mm)) post ⟨held, observed⟩ := by
  refine Monitor.ensures_perform.mpr ⟨allowed_read kept rfl fun _ => rfl, ?_⟩
  intro pages _
  simpa [references, change, observe] using rest pages

end Reads

end Rules

end UsacSyscalls.Kernel
