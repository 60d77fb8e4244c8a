import Mathlib.Logic.Basic

/-!
Contract: programs over typed operations and their sequential meaning.

Owns the free program type, its monad structure, the interpreter `run` that
answers every operation through a handler on a state, the frame rule for
programs that only perform operations of a given kind, runs that a faulting
operation ends, conditions on every operation of a run together with the state
it is performed in, and rules that give such a condition and the outcome of a
run at once.

Does not own any concrete operation set, state or schedule.
-/

set_option autoImplicit false

namespace UsacSyscalls.Foundation

/-- A program either returns or performs one operation and continues with the
reply. `Reply` gives every operation its own reply type. -/
inductive Program (Op : Type) (Reply : Op → Type) (α : Type) where
  | pure (value : α)
  | request (operation : Op) (next : Reply operation → Program Op Reply α)

namespace Program

variable {Op : Type} {Reply : Op → Type} {α β σ : Type}

def bind (program : Program Op Reply α) (next : α → Program Op Reply β) :
    Program Op Reply β :=
  match program with
  | .pure value => next value
  | .request operation rest => .request operation fun reply => (rest reply).bind next

instance : Monad (Program Op Reply) where
  pure := Program.pure
  bind := Program.bind

/-- Perform one operation and return its reply. -/
def perform (operation : Op) : Program Op Reply (Reply operation) :=
  .request operation .pure

/-! ### Sequential meaning -/

/-- What each operation answers, and what it does to the state. -/
abbrev Handler (Op : Type) (Reply : Op → Type) (σ : Type) :=
  (operation : Op) → σ → Reply operation × σ

/-- Run a program to completion with nothing else touching the state. -/
def run (handler : Handler Op Reply σ) : Program Op Reply α → σ → α × σ
  | .pure value, state => (value, state)
  | .request operation next, state =>
      run handler (next (handler operation state).1) (handler operation state).2

variable (handler : Handler Op Reply σ)

@[simp] theorem run_pure (value : α) (state : σ) :
    run handler (Pure.pure value : Program Op Reply α) state = (value, state) :=
  rfl

@[simp] theorem run_perform (operation : Op) (state : σ) :
    run handler (perform operation) state = handler operation state :=
  rfl

@[simp] theorem run_bind (program : Program Op Reply α) (next : α → Program Op Reply β)
    (state : σ) :
    run handler (program >>= next) state =
      run handler (next (run handler program state).1) (run handler program state).2 := by
  change run handler (program.bind next) state = _
  induction program generalizing state with
  | pure value => rfl
  | request operation rest inductionHypothesis =>
      simp only [bind, run]
      exact inductionHypothesis _ _

/-! ### Frame rule -/

/-- Whatever the replies are, the program only performs operations of `kind`. -/
def Within (kind : Op → Prop) : Program Op Reply α → Prop
  | .pure _ => True
  | .request operation next => kind operation ∧ ∀ reply, Within kind (next reply)

variable {kind : Op → Prop}

theorem within_pure (value : α) : Within kind (Pure.pure value : Program Op Reply α) :=
  trivial

theorem within_perform {operation : Op} (member : kind operation) :
    Within kind (perform operation : Program Op Reply _) :=
  ⟨member, fun _ => trivial⟩

theorem within_bind {head : Program Op Reply α} {tail : α → Program Op Reply β}
    (headWithin : Within kind head) (tailWithin : ∀ value, Within kind (tail value)) :
    Within kind (head >>= tail) := by
  change Within kind (head.bind tail)
  induction head with
  | pure value => exact tailWithin value
  | request operation rest inductionHypothesis =>
      refine ⟨headWithin.1, fun reply => ?_⟩
      exact inductionHypothesis reply (headWithin.2 reply)

/-- A view of the state that no operation of `kind` changes is unchanged by a
whole run within `kind`. -/
theorem run_frame {φ : Type} (view : σ → φ)
    (kept : ∀ operation, kind operation → ∀ state,
      view (handler operation state).2 = view state)
    {program : Program Op Reply α} (within : Within kind program) (state : σ) :
    view (run handler program state).2 = view state := by
  induction program generalizing state with
  | pure value => rfl
  | request operation next inductionHypothesis =>
      simp only [run]
      rw [inductionHypothesis _ (within.2 _), kept operation within.1]

/-- A run in which the first operation that `faults` ends everything, without a
result. -/
def attempt (faults : Op → Bool) : Program Op Reply α → σ → Option (α × σ)
  | .pure value, state => some (value, state)
  | .request operation next, state =>
      if faults operation then none
      else attempt faults (next (handler operation state).1) (handler operation state).2

/-- A program that performs no faulting operation, whatever the replies are, runs
to its end. -/
theorem attempt_of_within {faults : Op → Bool} {program : Program Op Reply α}
    (within : Within (fun operation => faults operation = false) program) (state : σ) :
    attempt handler faults program state = some (run handler program state) := by
  induction program generalizing state with
  | pure value => rfl
  | request operation next inductionHypothesis =>
      unfold attempt
      rw [within.1, if_neg Bool.false_ne_true]
      exact inductionHypothesis _ (within.2 _) _

/-- Surroundings that change: the operation at each time is answered by the
handler of that time. -/
def evolving (handlers : Nat → Handler Op Reply σ) : Handler Op Reply (σ × Nat) :=
  fun operation state =>
    ((handlers state.2 operation state.1).1,
      (handlers state.2 operation state.1).2,
      state.2 + 1)

/-! ### Conditions along a run -/

/-- Every operation of the run is performed in a state in which it meets the
condition. -/
def Throughout (condition : σ → Op → Prop) : Program Op Reply α → σ → Prop
  | .pure _, _ => True
  | .request operation next, state =>
      condition state operation ∧
        Throughout condition (next (handler operation state).1) (handler operation state).2

variable {condition : σ → Op → Prop}

@[simp] theorem throughout_pure (value : α) (state : σ) :
    Throughout handler condition (Pure.pure value : Program Op Reply α) state :=
  trivial

@[simp] theorem throughout_perform (operation : Op) (state : σ) :
    Throughout handler condition (perform operation : Program Op Reply _) state ↔
      condition state operation := by
  simp [perform, Throughout]

@[simp] theorem throughout_bind (program : Program Op Reply α) (next : α → Program Op Reply β)
    (state : σ) :
    Throughout handler condition (program >>= next) state ↔
      Throughout handler condition program state ∧
        Throughout handler condition (next (run handler program state).1)
          (run handler program state).2 := by
  change Throughout handler condition (program.bind next) state ↔ _
  induction program generalizing state with
  | pure value => simp [bind, Throughout, run]
  | request operation rest inductionHypothesis =>
      simp only [bind, Throughout, run, inductionHypothesis, and_assoc]

/-- The run meets the condition throughout and ends in `outcome`. -/
structure Runs (condition : σ → Op → Prop) (program : Program Op Reply α) (state : σ)
    (outcome : α × σ) : Prop where
  throughout : Throughout handler condition program state
  outcome_eq : run handler program state = outcome

variable {handler} {state after : σ}

theorem Runs.pure (value : α) :
    Runs handler condition (Pure.pure value : Program Op Reply α) state (value, state) :=
  ⟨trivial, rfl⟩

theorem Runs.perform {operation : Op} (met : condition state operation) :
    Runs handler condition (perform operation : Program Op Reply _) state
      (handler operation state) :=
  ⟨⟨met, trivial⟩, rfl⟩

theorem Runs.bind {program : Program Op Reply α} {next : α → Program Op Reply β} {value : α}
    {outcome : β × σ} (first : Runs handler condition program state (value, after))
    (second : Runs handler condition (next value) after outcome) :
    Runs handler condition (program >>= next) state outcome := by
  constructor
  · rw [throughout_bind, first.outcome_eq]
    exact ⟨first.throughout, second.throughout⟩
  · rw [run_bind, first.outcome_eq]
    exact second.outcome_eq

end Program

end UsacSyscalls.Foundation
