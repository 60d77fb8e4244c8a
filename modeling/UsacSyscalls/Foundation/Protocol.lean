import Mathlib.Data.List.Infix
import Mathlib.Logic.Function.Basic
import UsacSyscalls.Foundation.Program
import UsacSyscalls.Foundation.Transition

/-!
Contract: programs that share a state, run one operation at a time in any order.

Owns protocols, which say for each operation when a caller may perform it and
what it may conclude from the reply, the judgment that a program keeps to a
protocol, pools of callers with a shared state and a memory each, and the rule
that carries an invariant over the callers' knowledge through every schedule,
together with the past of the schedule. Owns also the bound on the operations a
program can still perform, and its consequence for schedules.

Does not own a concrete protocol. Unlike a monitor, a protocol lets a caller
learn more from an operation than its reply says.
-/

set_option autoImplicit false

namespace UsacSyscalls.Foundation

/-! ### Protocols -/

/-- `γ` is what a caller knows. -/
structure Protocol (Op : Type) (Reply : Op → Type) (γ : Type) where
  allowed : γ → Op → Prop
  learns : γ → (operation : Op) → Reply operation → γ → Prop

namespace Protocol

variable {Op : Type} {Reply : Op → Type} {α β γ : Type} (protocol : Protocol Op Reply γ)

/-- With the given knowledge the program only performs allowed operations,
whatever it learns from them, and ends in `post`. -/
def Keeps : Program Op Reply α → (α → γ → Prop) → γ → Prop
  | .pure value, post, known => post value known
  | .request operation next, post, known =>
      protocol.allowed known operation ∧
        ∀ reply after, protocol.learns known operation reply after →
          Keeps (next reply) post after

variable {protocol} {known : γ}

theorem keeps_pure {value : α} {post : α → γ → Prop} (holds : post value known) :
    protocol.Keeps (Pure.pure value) post known :=
  holds

theorem keeps_perform {operation : Op} {post : Reply operation → γ → Prop}
    (allowed : protocol.allowed known operation)
    (holds : ∀ reply after, protocol.learns known operation reply after → post reply after) :
    protocol.Keeps (.perform operation) post known :=
  ⟨allowed, holds⟩

theorem keeps_bind {program : Program Op Reply α} {next : α → Program Op Reply β}
    {post : β → γ → Prop}
    (keeps : protocol.Keeps program (fun value after => protocol.Keeps (next value) post after)
      known) :
    protocol.Keeps (program >>= next) post known := by
  change protocol.Keeps (program.bind next) post known
  induction program generalizing known with
  | pure value => exact keeps
  | request operation rest inductionHypothesis =>
      refine ⟨keeps.1, ?_⟩
      intro reply after learned
      exact inductionHypothesis reply (keeps.2 reply after learned)

theorem Keeps.mono {program : Program Op Reply α} {post weaker : α → γ → Prop}
    (keeps : protocol.Keeps program post known)
    (implies : ∀ value after, post value after → weaker value after) :
    protocol.Keeps program weaker known := by
  induction program generalizing known with
  | pure value => exact implies value known keeps
  | request operation next inductionHypothesis =>
      refine ⟨keeps.1, ?_⟩
      intro reply after learned
      exact inductionHypothesis reply (keeps.2 reply after learned)

end Protocol

/-! ### Pools -/

/-- `residual` is what is left of each caller's program. -/
structure Pool (ι : Type) (Op : Type) (Reply : Op → Type) (α σ μ : Type) where
  shared : σ
  memory : ι → μ
  residual : ι → Program Op Reply α

namespace Pool

variable {ι Op : Type} {Reply : Op → Type} {α σ μ γ : Type} [DecidableEq ι]

/-- One caller performs its next operation. A caller that has returned does
nothing. -/
def step (handler : ι → Program.Handler Op Reply (σ × μ)) (pool : Pool ι Op Reply α σ μ)
    (caller : ι) : Unit × Pool ι Op Reply α σ μ :=
  match pool.residual caller with
  | .pure _ => ((), pool)
  | .request operation next =>
      let answer := handler caller operation (pool.shared, pool.memory caller)
      ((), {
        shared := answer.2.1
        memory := Function.update pool.memory caller answer.2.2
        residual := Function.update pool.residual caller (next answer.1) })

variable {handler : ι → Program.Handler Op Reply (σ × μ)} {start pool : Pool ι Op Reply α σ μ}
  {caller : ι}

theorem step_pure {value : α} (returned : pool.residual caller = .pure value) :
    (step handler pool caller).2 = pool := by
  simp only [step, returned]

theorem step_request {operation : Op} {next : Reply operation → Program Op Reply α}
    (pending : pool.residual caller = .request operation next) :
    (step handler pool caller).2 = {
      shared := (handler caller operation (pool.shared, pool.memory caller)).2.1
      memory := Function.update pool.memory caller
        (handler caller operation (pool.shared, pool.memory caller)).2.2
      residual := Function.update pool.residual caller
        (next (handler caller operation (pool.shared, pool.memory caller)).1) } := by
  simp only [step, pending]

/-- Where a schedule leads. -/
abbrev after (handler : ι → Program.Handler Op Reply (σ × μ)) (start : Pool ι Op Reply α σ μ)
    (schedule : List ι) : Pool ι Op Reply α σ μ :=
  Transition.final (step handler) start schedule

/-- Every caller goes on keeping to its protocol. -/
def Disciplined (protocol : ι → Protocol Op Reply γ) (post : ι → α → γ → Prop)
    (pool : Pool ι Op Reply α σ μ) (known : ι → γ) : Prop :=
  ∀ caller, (protocol caller).Keeps (pool.residual caller) (post caller) (known caller)

/-- What one operation has to do to the invariant `holds`, which speaks about
the schedule up to now and the callers' knowledge. `condition` is asked of the
steps of the schedule. -/
structure Guarded (handler : ι → Program.Handler Op Reply (σ × μ))
    (start : Pool ι Op Reply α σ μ) (protocol : ι → Protocol Op Reply γ)
    (post : ι → α → γ → Prop) (condition : Pool ι Op Reply α σ μ → ι → Prop)
    (holds : List ι → (ι → γ) → Prop) : Prop where
  idles : ∀ {past known caller value}, holds past known →
    Disciplined protocol post (after handler start past) known →
    (after handler start past).residual caller = .pure value → holds (past ++ [caller]) known
  acts : ∀ {past known caller operation next}, holds past known →
    Disciplined protocol post (after handler start past) known →
    (after handler start past).residual caller = .request operation next →
    condition (after handler start past) caller →
    ∃ learned, (protocol caller).learns (known caller) operation
        (handler caller operation
          ((after handler start past).shared, (after handler start past).memory caller)).1
        learned ∧
      holds (past ++ [caller]) (Function.update known caller learned)

/-- Every schedule whose steps meet the condition keeps the invariant and the
discipline. -/
theorem Guarded.sound {protocol : ι → Protocol Op Reply γ} {post : ι → α → γ → Prop}
    {condition : Pool ι Op Reply α σ μ → ι → Prop} {holds : List ι → (ι → γ) → Prop}
    (guarded : Guarded handler start protocol post condition holds) {known : ι → γ}
    (initially : holds [] known) (disciplined : Disciplined protocol post start known)
    {schedule : List ι} (along : Transition.Along (step handler) condition start schedule) :
    ∃ known, holds schedule known ∧
      Disciplined protocol post (after handler start schedule) known := by
  -- the induction is on the schedule from its end, so that `holds` sees the past
  induction schedule using List.reverseRecOn with
  | nil => exact ⟨known, initially, disciplined⟩
  | append_singleton past caller inductionHypothesis =>
      obtain ⟨alongPast, met⟩ := Transition.along_append_singleton.mp along
      obtain ⟨known, held, kept⟩ := inductionHypothesis alongPast
      have last : after handler start (past ++ [caller]) =
          (step handler (after handler start past) caller).2 :=
        Transition.final_append_singleton ..
      rw [last]
      cases pending : (after handler start past).residual caller with
      | pure value =>
          rw [step_pure pending]
          exact ⟨known, guarded.idles held kept pending, kept⟩
      | request operation next =>
          have here := kept caller
          rw [pending] at here
          obtain ⟨learned, learns, holdsNow⟩ := guarded.acts held kept pending met
          refine ⟨_, holdsNow, ?_⟩
          rw [step_request pending]
          intro other
          by_cases same : other = caller
          · subst same
            simp only [Function.update_self]
            exact here.2 _ _ learns
          · simp only [Function.update_of_ne same]
            exact kept other

end Pool

/-! ### Bounded programs -/

namespace Program

variable {Op : Type} {Reply : Op → Type} {α β : Type}

/-- Whatever the replies are, the program performs at most `bound` operations. -/
def AtMost : Nat → Program Op Reply α → Prop
  | _, .pure _ => True
  | 0, .request _ _ => False
  | bound + 1, .request _ next => ∀ reply, AtMost bound (next reply)

theorem atMost_pure (bound : Nat) (value : α) :
    AtMost bound (Pure.pure value : Program Op Reply α) := by
  cases bound <;> trivial

theorem atMost_perform (operation : Op) :
    AtMost 1 (perform operation : Program Op Reply (Reply operation)) :=
  fun _ => trivial

theorem AtMost.mono {program : Program Op Reply α} {bound larger : Nat}
    (bounded : AtMost bound program) (le : bound ≤ larger) : AtMost larger program := by
  induction program generalizing bound larger with
  | pure value => exact atMost_pure larger value
  | request operation next inductionHypothesis =>
      cases bound with
      | zero => exact bounded.elim
      | succ bound =>
          obtain ⟨larger, rfl⟩ := Nat.exists_eq_add_of_lt le
          intro reply
          exact inductionHypothesis reply (bounded reply) (by omega)

theorem atMost_bind {program : Program Op Reply α} {next : α → Program Op Reply β}
    {first total : Nat} (second : Nat) (bounded : AtMost first program)
    (boundedNext : ∀ value, AtMost second (next value)) (within : first + second ≤ total) :
    AtMost total (program >>= next) := by
  refine AtMost.mono ?_ within
  change AtMost (first + second) (program.bind next)
  clear within
  induction program generalizing first with
  | pure value => exact (boundedNext value).mono (Nat.le_add_left _ _)
  | request operation rest inductionHypothesis =>
      cases first with
      | zero => exact bounded.elim
      | succ first =>
          rw [Nat.add_right_comm]
          intro reply
          exact inductionHypothesis reply (bounded reply)

end Program

namespace Pool

variable {ι Op : Type} {Reply : Op → Type} {α σ μ : Type} [DecidableEq ι]
  {handler : ι → Program.Handler Op Reply (σ × μ)} {start : Pool ι Op Reply α σ μ} {caller : ι}

/-- Every turn of a caller uses up one of its operations. -/
theorem atMost_after {bound : Nat} (bounded : Program.AtMost bound (start.residual caller))
    (schedule : List ι) :
    Program.AtMost (bound - schedule.count caller)
      ((after handler start schedule).residual caller) := by
  induction schedule using List.reverseRecOn with
  | nil => exact bounded
  | append_singleton past taken inductionHypothesis =>
      have last : after handler start (past ++ [taken]) =
          (step handler (after handler start past) taken).2 :=
        Transition.final_append_singleton ..
      rw [last, List.count_append, List.count_singleton]
      cases pending : (after handler start past).residual taken with
      | pure value =>
          rw [step_pure pending]
          by_cases same : taken = caller
          · subst same
            rw [pending]
            exact Program.atMost_pure _ value
          · simpa [same] using inductionHypothesis
      | request operation next =>
          rw [step_request pending]
          by_cases same : taken = caller
          · subst same
            rw [pending] at inductionHypothesis
            simp only [Function.update_self, beq_self_eq_true, if_true]
            generalize left : bound - past.count taken = remaining at inductionHypothesis
            cases remaining with
            | zero => exact inductionHypothesis.elim
            | succ remaining =>
                have fewer : bound - (past.count taken + 1) = remaining := by omega
                rw [fewer]
                exact inductionHypothesis _
          · simpa [same, Function.update_of_ne (Ne.symm same)] using inductionHypothesis

/-- A caller that got as many turns as its program has operations has
returned. -/
theorem returned_of_count {bound : Nat} (bounded : Program.AtMost bound (start.residual caller))
    {schedule : List ι} (turns : bound ≤ schedule.count caller) :
    ∃ value, (after handler start schedule).residual caller = .pure value := by
  have left : Program.AtMost (bound - schedule.count caller)
      ((after handler start schedule).residual caller) :=
    atMost_after bounded schedule
  rw [Nat.sub_eq_zero_of_le turns] at left
  cases residual : (after handler start schedule).residual caller with
  | pure value => exact ⟨value, rfl⟩
  | request operation next =>
      rw [residual] at left
      exact left.elim

end Pool

end UsacSyscalls.Foundation
