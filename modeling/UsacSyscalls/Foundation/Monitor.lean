import UsacSyscalls.Foundation.Program

/-!
Contract: programs checked against a bookkeeping state.

Owns monitors, which say for each operation when a program may perform it, what
reply it may count on and how the bookkeeping goes on, the judgment that a
program keeps to a monitor and ends in a postcondition, its rules for the
program constructors, and its soundness for uninterrupted runs under any
handler that is related to the bookkeeping.

Does not own a concrete bookkeeping state. Interleaved runs are left to the
users of the judgment, who take a program apart one request at a time.
-/

set_option autoImplicit false

namespace UsacSyscalls.Foundation

/-- The bookkeeping `γ` of one caller. -/
structure Monitor (Op : Type) (Reply : Op → Type) (γ : Type) where
  allowed : γ → Op → Prop
  expected : γ → (operation : Op) → Reply operation → Prop
  next : γ → (operation : Op) → Reply operation → γ

namespace Monitor

variable {Op : Type} {Reply : Op → Type} {α β γ σ : Type} (monitor : Monitor Op Reply γ)

/-- From the given bookkeeping the program only performs allowed operations, as
long as the replies are the expected ones, and ends in `post`. -/
def Ensures : Program Op Reply α → (α → γ → Prop) → γ → Prop
  | .pure value, post, ghost => post value ghost
  | .request operation next, post, ghost =>
      monitor.allowed ghost operation ∧
        ∀ reply, monitor.expected ghost operation reply →
          Ensures (next reply) post (monitor.next ghost operation reply)

variable {monitor}

@[simp] theorem ensures_pure {value : α} {post : α → γ → Prop} {ghost : γ} :
    monitor.Ensures (Pure.pure value) post ghost ↔ post value ghost :=
  Iff.rfl

theorem ensures_perform {operation : Op} {post : Reply operation → γ → Prop} {ghost : γ} :
    monitor.Ensures (.perform operation) post ghost ↔
      monitor.allowed ghost operation ∧
        ∀ reply, monitor.expected ghost operation reply →
          post reply (monitor.next ghost operation reply) :=
  Iff.rfl

theorem ensures_bind {program : Program Op Reply α} {next : α → Program Op Reply β}
    {post : β → γ → Prop} {ghost : γ} :
    monitor.Ensures (program >>= next) post ghost ↔
      monitor.Ensures program (fun value after => monitor.Ensures (next value) post after)
        ghost := by
  change monitor.Ensures (program.bind next) post ghost ↔ _
  induction program generalizing ghost with
  | pure value => rfl
  | request operation rest inductionHypothesis =>
      simp only [Program.bind, Ensures, inductionHypothesis]

theorem Ensures.mono {program : Program Op Reply α} {post weaker : α → γ → Prop} {ghost : γ}
    (ensures : monitor.Ensures program post ghost)
    (implies : ∀ value after, post value after → weaker value after) :
    monitor.Ensures program weaker ghost := by
  induction program generalizing ghost with
  | pure value => exact implies value ghost ensures
  | request operation next inductionHypothesis =>
      refine ⟨ensures.1, ?_⟩
      intro reply expected
      exact inductionHypothesis reply (ensures.2 reply expected)

/-- Soundness for uninterrupted runs: where the handler answers as expected and
keeps the state related to the bookkeeping, the condition holds throughout the
run and the postcondition at its end. -/
theorem Ensures.run {handler : Program.Handler Op Reply σ} {related : γ → σ → Prop}
    {condition : σ → Op → Prop}
    (keeps : ∀ ghost state operation, related ghost state → monitor.allowed ghost operation →
      condition state operation ∧ monitor.expected ghost operation (handler operation state).1 ∧
        related (monitor.next ghost operation (handler operation state).1)
          (handler operation state).2)
    {program : Program Op Reply α} {post : α → γ → Prop} {ghost : γ} {state : σ}
    (ensures : monitor.Ensures program post ghost) (start : related ghost state) :
    Program.Throughout handler condition program state ∧
      ∃ after, related after (Program.run handler program state).2 ∧
        post (Program.run handler program state).1 after := by
  induction program generalizing ghost state with
  | pure value => exact ⟨trivial, ghost, start, ensures⟩
  | request operation next inductionHypothesis =>
      obtain ⟨met, expected, stillRelated⟩ := keeps ghost state operation start ensures.1
      obtain ⟨rest, final⟩ := inductionHypothesis _ (ensures.2 _ expected) stillRelated
      exact ⟨⟨met, rest⟩, final⟩

end Monitor

end UsacSyscalls.Foundation
