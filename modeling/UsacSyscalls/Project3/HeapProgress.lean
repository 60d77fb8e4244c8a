import UsacSyscalls.Project3.HeapInterleaving

/-!
Contract: calls on the linked list return, whatever other callers do.

Owns a bound on the operations of each call, and its consequence for interleaved
calls: a caller that gets that many turns has its return code, and its loop has
ended at the head of the list.

Does not own fairness of schedules.
-/

set_option autoImplicit false

namespace UsacSyscalls.Project3

open UsacSyscalls.Foundation
open UsacSyscalls.Foundation.Program
open UsacSyscalls.Kernel

/-! ### Operations of a call -/

theorem atMost_onHeap {α : Type} {call : Syscall α} {bound : Nat} (bounded : AtMost bound call) :
    AtMost bound (onHeap call) := by
  induction call generalizing bound with
  | pure value => exact atMost_pure bound value
  | request operation rest inductionHypothesis =>
      cases bound with
      | zero => exact bounded.elim
      | succ bound => exact fun reply => inductionHypothesis reply (bounded reply)

section Loops

variable {σ ρ : Type} {head : Link} {body : Link → σ → HeapCall (Except ρ σ)} {bound : Nat}

theorem atMost_forEach (bounded : ∀ position carried, AtMost bound (body position carried))
    (fuel : Nat) (position : Link) (carried : σ) :
    AtMost (fuel * (bound + 1)) (listForEachEntry head body fuel position carried) := by
  induction fuel generalizing position carried with
  | zero => exact atMost_pure _ _
  | succ fuel inductionHypothesis =>
      unfold listForEachEntry
      split
      · exact atMost_pure _ _
      · apply atMost_bind (1 + fuel * (bound + 1)) (bounded _ _)
        · intro result
          cases result with
          | error exit => exact atMost_pure _ _
          | ok kept =>
              exact atMost_bind _ (atMost_perform _) (fun _ => inductionHypothesis _ _) le_rfl
        · rw [Nat.succ_mul]
          omega

theorem atMost_forEachSafe (bounded : ∀ position carried, AtMost bound (body position carried))
    (fuel : Nat) (position following : Link) (carried : σ) :
    AtMost (fuel * (bound + 1))
      (listForEachEntrySafe head body fuel position following carried) := by
  induction fuel generalizing position following carried with
  | zero => exact atMost_pure _ _
  | succ fuel inductionHypothesis =>
      unfold listForEachEntrySafe
      split
      · exact atMost_pure _ _
      · apply atMost_bind (1 + fuel * (bound + 1)) (bounded _ _)
        · intro result
          cases result with
          | error exit => exact atMost_pure _ _
          | ok kept =>
              exact atMost_bind _ (atMost_perform _) (fun _ => inductionHypothesis _ _ _) le_rfl
        · rw [Nat.succ_mul]
          omega

theorem atMost_atPid {action : Link → HeapCall ρ} (processPid : PidT)
    (bounded : ∀ position, AtMost bound (action position)) (position : Link) (carried : Unit) :
    AtMost (1 + bound) (atPid processPid action position carried) := by
  apply atMost_bind bound (atMost_perform _) _ le_rfl
  intro pid
  split
  · exact atMost_bind 0 (bounded position) (fun _ => atMost_pure _ _) le_rfl
  · exact atMost_pure _ _

end Loops

theorem atMost_addAdmission (processPid : PidT) (memoryLimit : SizeT) :
    AtMost 7 (addAdmission processPid memoryLimit) := by
  have usage : ∀ task, AtMost 3 (getProcessMemoryUsage (some task)) := by
    intro task
    apply atMost_bind 2 (atMost_perform _) _ le_rfl
    intro mm
    cases mm with
    | none => exact atMost_pure _ _
    | some mm =>
        apply atMost_bind 1 (atMost_perform _) _ le_rfl
        intro again
        exact atMost_bind 0 (atMost_perform _) (fun _ => atMost_pure _ _) le_rfl
  unfold addAdmission
  split
  · exact atMost_pure _ _
  · apply atMost_bind 6 (atMost_perform _) _ le_rfl
    intro privileged
    split
    · exact atMost_pure _ _
    · apply atMost_bind 5 (atMost_perform _) _ le_rfl
      intro pid
      apply atMost_bind 4 (atMost_perform _) _ le_rfl
      intro found
      cases found with
      | none => exact atMost_pure _ _
      | some task =>
          apply atMost_bind 1 (usage task) _ le_rfl
          intro currentUsage
          split
          · exact atMost_bind 0 (atMost_perform _) (fun _ => atMost_pure _ _) le_rfl
          · exact atMost_pure _ _

theorem atMost_putTaskStruct (task : TaskRef) : AtMost 1 (onHeap (putTaskStruct task)) :=
  atMost_onHeap (atMost_perform _)

theorem atMost_listAddLinks (new head : Link) : AtMost 5 (listAddLinks new head) := by
  apply atMost_bind 4 (atMost_perform _) _ le_rfl
  intro first
  apply atMost_bind 3 (atMost_perform _) _ le_rfl
  intro _
  apply atMost_bind 2 (atMost_perform _) _ le_rfl
  intro _
  exact atMost_bind 1 (atMost_perform _) (fun _ => atMost_perform _) le_rfl

theorem atMost_deleteEntry (entry : Link) : AtMost 7 (deleteEntry entry) := by
  have unlinks : AtMost 6 (listDel entry) := by
    apply atMost_bind 5 (atMost_perform _) _ le_rfl
    intro before
    apply atMost_bind 4 (atMost_perform _) _ le_rfl
    intro behind
    apply atMost_bind 3 (atMost_perform _) _ le_rfl
    intro _
    apply atMost_bind 2 (atMost_perform _) _ le_rfl
    intro _
    exact atMost_bind 1 (atMost_perform _) (fun _ => atMost_perform _) le_rfl
  apply atMost_bind 1 unlinks _ le_rfl
  intro _
  exact atMost_bind 0 (atMost_perform _) (fun _ => atMost_pure _ _) le_rfl

theorem atMost_addEntry (processPid : PidT) (memoryLimit : SizeT) (task : TaskRef) :
    AtMost 9 (addEntry processPid memoryLimit task) := by
  apply atMost_bind 8 (atMost_perform _) _ le_rfl
  intro entry
  cases entry with
  | none => exact atMost_bind 0 (atMost_putTaskStruct task) (fun _ => atMost_pure _ _) (by omega)
  | some entry =>
      apply atMost_bind 7 (atMost_perform _) _ le_rfl
      intro _
      apply atMost_bind 6 (atMost_perform _) _ le_rfl
      intro _
      apply atMost_bind 1 (atMost_listAddLinks entry _) _ le_rfl
      intro _
      exact atMost_bind 0 (atMost_putTaskStruct task) (fun _ => atMost_pure _ _) le_rfl

theorem atMost_copyEntry (buffer : Nat) (maxEntries : SizeT) (position : Link)
    (carried : SizeT × ByteMemory) : AtMost 3 (copyEntry buffer maxEntries position carried) := by
  unfold copyEntry
  split
  · exact atMost_pure _ _
  · apply atMost_bind 2 (atMost_perform _) _ le_rfl
    intro pid
    apply atMost_bind 1 (atMost_perform _) _ le_rfl
    intro memoryLimit
    apply atMost_bind 0 (atMost_onHeap (atMost_perform _)) _ le_rfl
    intro left
    split
    · exact atMost_pure _ _
    · exact atMost_pure _ _

/-- No call performs more operations than this, whatever they answer. -/
def operationBound (fuel : Nat) : Nat := 17 + 9 * fuel

theorem atMost_add (fuel : Nat) (processPid : PidT) (memoryLimit : SizeT) :
    AtMost (operationBound fuel) (addMemoryLimitOnHeap fuel processPid memoryLimit) := by
  have rejects : ∀ task position, AtMost 1 (rejectDuplicate task position) := by
    intro task position
    exact atMost_bind 0 (atMost_putTaskStruct task) (fun _ => atMost_pure _ _) le_rfl
  apply atMost_bind (1 + (fuel * 3 + 9)) (atMost_onHeap (atMost_addAdmission _ _))
  · intro admitted
    cases admitted with
    | error code => exact atMost_pure _ _
    | ok task =>
        apply atMost_bind (fuel * 3 + 9) (atMost_perform _) _ le_rfl
        intro first
        apply atMost_bind 9 (atMost_forEach (atMost_atPid processPid (rejects task)) fuel _ _) _
          le_rfl
        intro result
        match result with
        | none => exact atMost_pure _ _
        | some (.error code) => exact atMost_pure _ _
        | some (.ok _) =>
            exact atMost_bind 0 (atMost_addEntry _ _ _) (fun _ => atMost_pure _ _) le_rfl
  · unfold operationBound
    omega

theorem atMost_update (fuel : Nat) (processPid : PidT) (memoryLimit : SizeT) :
    AtMost (operationBound fuel) (updateMemoryLimitOnHeap fuel processPid memoryLimit) := by
  have replaces : ∀ position, AtMost 1 (replaceLimit memoryLimit position) := by
    intro position
    exact atMost_bind 0 (atMost_perform _) (fun _ => atMost_pure _ _) le_rfl
  unfold updateMemoryLimitOnHeap
  split
  · exact atMost_pure _ _
  · apply atMost_bind (1 + fuel * 3) (atMost_onHeap (atMost_perform _))
    · intro privileged
      split
      · exact atMost_pure _ _
      · apply atMost_bind (fuel * 3) (atMost_perform _) _ le_rfl
        intro first
        apply atMost_bind 0 (atMost_forEach (atMost_atPid processPid replaces) fuel _ _) _ le_rfl
        intro result
        match result with
        | none => exact atMost_pure _ _
        | some (.error code) => exact atMost_pure _ _
        | some (.ok _) => exact atMost_pure _ _
    · unfold operationBound
      omega

theorem atMost_remove (fuel : Nat) (processPid : PidT) :
    AtMost (operationBound fuel) (removeMemoryLimitOnHeap fuel processPid) := by
  unfold removeMemoryLimitOnHeap
  split
  · exact atMost_pure _ _
  · apply atMost_bind (1 + (1 + fuel * 9)) (atMost_onHeap (atMost_perform _))
    · intro privileged
      split
      · exact atMost_pure _ _
      · apply atMost_bind (1 + fuel * 9) (atMost_perform _) _ le_rfl
        intro first
        apply atMost_bind (fuel * 9) (atMost_perform _) _ le_rfl
        intro following
        apply atMost_bind 0
          (atMost_forEachSafe (atMost_atPid processPid atMost_deleteEntry) fuel _ _ _) _ le_rfl
        intro result
        match result with
        | none => exact atMost_pure _ _
        | some (.error code) => exact atMost_pure _ _
        | some (.ok _) => exact atMost_pure _ _
    · unfold operationBound
      omega

theorem atMost_get (fuel buffer : Nat) (maxEntries : SizeT) (returned : Nat) :
    AtMost (operationBound fuel) (getMemoryLimitsOnHeap fuel buffer maxEntries returned) := by
  have reports : ∀ count, AtMost 1 (reportCount returned count) := by
    intro count
    apply atMost_bind 0 (atMost_perform _) _ le_rfl
    intro left
    split
    · exact atMost_pure _ _
    · exact atMost_pure _ _
  unfold getMemoryLimitsOnHeap
  split
  · exact atMost_pure _ _
  · split
    · exact atMost_pure _ _
    · apply atMost_bind (1 + (fuel * 4 + 1)) (atMost_onHeap (atMost_perform _))
      · intro tmp
        apply atMost_bind (fuel * 4 + 1) (atMost_perform _) _ le_rfl
        intro first
        apply atMost_bind 1 (atMost_forEach (atMost_copyEntry buffer maxEntries) fuel _ _) _ le_rfl
        intro result
        cases result with
        | none => exact atMost_pure _ _
        | some exit =>
            cases ending : afterLoop exit with
            | error code =>
                simp only [ending]
                exact atMost_pure _ _
            | ok count =>
                simp only [ending]
                exact atMost_bind 0 (atMost_onHeap (reports _)) (fun _ => atMost_pure _ _) le_rfl
      · unfold operationBound
        omega

theorem atMost_call (fuel : Nat) (call : Call) :
    AtMost (operationBound fuel) (call.onHeap fuel) := by
  cases call with
  | add env processPid memoryLimit => exact atMost_add fuel processPid memoryLimit
  | update env processPid memoryLimit => exact atMost_update fuel processPid memoryLimit
  | remove env processPid => exact atMost_remove fuel processPid
  | get env buffer maxEntries returned => exact atMost_get fuel buffer maxEntries returned

/-! ### Progress -/

/-- Whatever the other callers do, and however often, a caller that gets as many
turns as the bound says has returned, with a code. -/
theorem Start.interleaved_calls_return {ι : Type} [DecidableEq ι] [Fintype ι] (start : Start ι)
    {fuel : Nat} (enough : start.capacity < fuel) {schedule : List ι} {caller : ι}
    (turns : operationBound fuel ≤ schedule.count caller) :
    ∃ code, (start.after fuel schedule).residual caller = .pure (some code) := by
  have bounded : AtMost (operationBound fuel) ((start.callers fuel).residual caller) :=
    atMost_call fuel (start.events caller).call
  obtain ⟨value, returned⟩ : ∃ value, (start.after fuel schedule).residual caller = .pure value :=
    Pool.returned_of_count bounded turns
  obtain ⟨code, _, rfl, _⟩ := start.returned_code enough returned
  exact ⟨code, returned⟩

/-- One entry in the shared list. -/
def Start.oneEntry {ι : Type} (events : ι → HeapEvent) : Start ι where
  heap := ⟨Heap.boot.links.insert (.head .shared) (.entry 1), fun _ => ⟨5, 4096⟩, {1}⟩
  refs := fun list => if list = .shared then [1] else []
  layout :=
    { rings := by
        intro list
        cases list with
        | shared => exact ⟨⟨⟨rfl, rfl⟩, rfl, rfl⟩, by decide⟩
        | updateStatic => exact ⟨⟨rfl, rfl⟩, by decide⟩
        | removeStatic => exact ⟨⟨rfl, rfl⟩, by decide⟩
      apart := by
        intro first second ref inFirst inSecond
        cases first <;> cases second <;> simp at inFirst inSecond ⊢
      live := by simp }
  statics := fun static => if_neg static
  users := fun _ _ => 0
  events := events

/-- An `add_memory_limit` and a `get_memory_limits` that take turns. -/
def turnAbout : List Bool := (List.replicate 53 [true, false]).flatten

theorem interleaved_calls_return_after_turns :
    (∃ code, ((Start.oneEntry addAndGet).after 4 turnAbout).residual true =
        .pure (some code)) ∧
      ∃ code, ((Start.oneEntry addAndGet).after 4 turnAbout).residual false =
        .pure (some code) :=
  ⟨Start.interleaved_calls_return _ (by decide) (by decide),
    Start.interleaved_calls_return _ (by decide) (by decide)⟩

end UsacSyscalls.Project3
