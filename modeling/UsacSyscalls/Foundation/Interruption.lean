import UsacSyscalls.Foundation.Program

/-!
Contract: programs that something stops from outside.

Owns the program cut off after a number of operations, the program that takes
over from there, how long a run lasts at least, and the rules that carry a
relation along a run and a condition on its operations over to the part that
was run.

Does not own what stops a program, nor any operation.
-/

set_option autoImplicit false

namespace UsacSyscalls.Foundation.Program

variable {Op : Type} {Reply : Op → Type} {α β σ : Type}

/-- The program up to `steps` operations; `none` if it was not done by then. -/
def cut : Nat → Program Op Reply α → Program Op Reply (Option α)
  | _, .pure value => .pure (some value)
  | 0, .request _ _ => .pure none
  | steps + 1, .request operation next =>
      .request operation fun reply => cut steps (next reply)

/-- After `steps` operations of `program`, `takeover` runs in its place. -/
def interrupted (steps : Nat) (program takeover : Program Op Reply α) : Program Op Reply α :=
  cut steps program >>= fun done => done.elim takeover Pure.pure

variable (handler : Handler Op Reply σ)

/-- The run performs at least this many operations. -/
def Lasts : Nat → Program Op Reply α → σ → Prop
  | 0, _, _ => True
  | _ + 1, .pure _, _ => False
  | steps + 1, .request operation next, state =>
      Lasts steps (next (handler operation state).1) (handler operation state).2

variable {handler}

theorem Lasts.fewer {steps : Nat} {program : Program Op Reply α} {state : σ}
    (lasts : Lasts handler (steps + 1) program state) : Lasts handler steps program state := by
  induction program generalizing steps state with
  | pure value => exact absurd lasts id
  | request operation next inductionHypothesis =>
      cases steps with
      | zero => trivial
      | succ steps => exact inductionHypothesis _ lasts

theorem Lasts.of_le {steps total : Nat} {program : Program Op Reply α} {state : σ}
    (lasts : Lasts handler total program state) (fewer : steps ≤ total) :
    Lasts handler steps program state := by
  induction fewer with
  | refl => exact lasts
  | step _ inductionHypothesis => exact inductionHypothesis lasts.fewer

/-- A run lasts at least as long as what follows its first part. -/
theorem Lasts.bind {steps : Nat} {program : Program Op Reply α}
    {next : α → Program Op Reply β} {state after : σ} {value : α}
    (first : run handler program state = (value, after))
    (lasts : Lasts handler steps (next value) after) :
    Lasts handler steps (program >>= next) state := by
  change Lasts handler steps (program.bind next) state
  induction program generalizing steps state with
  | pure value =>
      cases first
      exact lasts
  | request operation rest inductionHypothesis =>
      cases steps with
      | zero => trivial
      | succ steps => exact (inductionHypothesis _ first lasts).fewer

theorem Lasts.perform_bind {steps : Nat} {operation : Op}
    {next : Reply operation → Program Op Reply β} {state : σ}
    (lasts : Lasts handler steps (next (handler operation state).1)
      (handler operation state).2) :
    Lasts handler (steps + 1) (perform operation >>= next) state :=
  lasts

/-! ### The part that was run -/

theorem run_cut_of_lasts {steps : Nat} {program : Program Op Reply α} {state : σ}
    (lasts : Lasts handler (steps + 1) program state) :
    (run handler (cut steps program) state).1 = none := by
  induction program generalizing steps state with
  | pure value => exact absurd lasts id
  | request operation next inductionHypothesis =>
      cases steps with
      | zero => rfl
      | succ steps => exact inductionHypothesis _ lasts

theorem throughout_cut {condition : σ → Op → Prop} {program : Program Op Reply α} {state : σ}
    (steps : Nat) (throughout : Throughout handler condition program state) :
    Throughout handler condition (cut steps program) state := by
  induction program generalizing steps state with
  | pure value =>
      unfold cut
      trivial
  | request operation next inductionHypothesis =>
      cases steps with
      | zero => trivial
      | succ steps =>
          exact ⟨throughout.1, inductionHypothesis _ steps throughout.2⟩

section Related

variable {relation : σ → σ → Prop} (refl : ∀ state, relation state state)
  (trans : ∀ {first second third : σ}, relation first second → relation second third →
    relation first third)
  (step : ∀ operation state, relation state (handler operation state).2)

include refl trans step

theorem run_related (program : Program Op Reply α) (state : σ) :
    relation state (run handler program state).2 := by
  induction program generalizing state with
  | pure value => exact refl state
  | request operation next inductionHypothesis =>
      exact trans (step operation state) (inductionHypothesis _ _)

/-- What relates a state to every later one relates the state of the cut to the
end of the whole run. -/
theorem run_cut_related (steps : Nat) (program : Program Op Reply α) (state : σ) :
    relation (run handler (cut steps program) state).2 (run handler program state).2 := by
  induction program generalizing steps state with
  | pure value =>
      unfold cut
      exact refl state
  | request operation next inductionHypothesis =>
      cases steps with
      | zero => exact run_related refl trans step (.request operation next) state
      | succ steps => exact inductionHypothesis _ steps _

end Related

/-- An interruption before the program is done hands over to `takeover`. -/
theorem Runs.interrupted {condition : σ → Op → Prop} {steps : Nat}
    {program takeover : Program Op Reply α} {state : σ} {outcome : α × σ}
    (throughout : Throughout handler condition program state)
    (lasts : Lasts handler (steps + 1) program state)
    (takes : Runs handler condition takeover (run handler (cut steps program) state).2 outcome) :
    Runs handler condition (interrupted steps program takeover) state outcome := by
  have stopped : Runs handler condition (cut steps program) state
      (none, (run handler (cut steps program) state).2) := by
    constructor
    · exact throughout_cut steps throughout
    · rw [← run_cut_of_lasts lasts]
  exact stopped.bind takes

end UsacSyscalls.Foundation.Program
