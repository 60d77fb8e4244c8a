import UsacSyscalls.Project3.Registry

/-!
Contract: concurrent `add_memory_limit` calls.

Owns the interleaving of any number of calls at the points where each can be
preempted, the exclusion argument for schedules in which no two calls for one
pid are between duplicate check and insertion, and the race that follows from
any schedule in which two are.

Does not own the other three calls; they are not part of these schedules.
-/

set_option autoImplicit false

namespace UsacSyscalls.Project3

open UsacSyscalls.Foundation
open UsacSyscalls.Kernel

/-! ### Calls cut at their preemption points -/

structure AddRequest where
  env : Environment
  processPid : PidT
  memoryLimit : SizeT

/-- How far a call has come. -/
inductive AddStage where
  | start
  | admitted (task : TaskRef)
  | unlisted (task : TaskRef)
  | allocated (task : TaskRef)
  | returned (code : Int)
deriving DecidableEq, Repr

/-- The part of `add_memory_limit` that runs next. No lock is taken, so other
calls may run between any two parts. -/
def segment (request : AddRequest) : AddStage → Syscall AddStage
  | .start => do
      match ← addAdmission request.processPid request.memoryLimit with
      | .error code => pure (.returned code)
      | .ok task => pure (.admitted task)
  | .admitted task => do
      match ← addDuplicateWalk request.processPid task with
      | .error code => pure (.returned code)
      | .ok _ => pure (.unlisted task)
  | .unlisted task => do
      match ← addAllocation task with
      | .error code => pure (.returned code)
      | .ok _ => pure (.allocated task)
  | .allocated task => do
      let code ← addLink request.processPid request.memoryLimit task
      pure (.returned code)
  | .returned code => pure (.returned code)

theorem complete_segment (env : Environment) (request : AddRequest) (stage : AddStage)
    (machine : Machine) :
    complete env (segment request stage) machine =
      match stage with
      | .start =>
          (match admission env request.processPid request.memoryLimit with
            | .error code => .returned code
            | .ok task => .admitted task, machine)
      | .admitted task =>
          (if Listed (machine.heads .shared) request.processPid then .returned (-101)
            else .unlisted task, machine)
      | .unlisted task =>
          (if env.kmalloc then .allocated task else .returned (-enomem), machine)
      | .allocated _ =>
          (.returned 0, machine.setHead .shared
            (⟨request.processPid, request.memoryLimit⟩ :: machine.heads .shared))
      | .returned code => (.returned code, machine) := by
  cases stage with
  | start =>
      simp only [segment, Program.run_bind, complete_addAdmission]
      cases admission env request.processPid request.memoryLimit <;> rfl
  | admitted task =>
      simp only [segment, Program.run_bind, complete_addDuplicateWalk]
      by_cases listed : Listed (machine.heads .shared) request.processPid
      · simp only [if_pos listed, Program.run_pure]
      · simp only [if_neg listed, Program.run_pure]
  | unlisted task =>
      simp only [segment, Program.run_bind, complete_addAllocation]
      by_cases allocated : env.kmalloc = true
      · simp only [if_pos allocated, Program.run_pure]
      · simp only [if_neg allocated, Program.run_pure]
  | allocated task =>
      simp only [segment, Program.run_bind, complete_addLink, Program.run_pure]
  | returned code => rfl

section Schedules

variable {ι : Type} [DecidableEq ι]

/-- The machine and how far each caller has come. -/
structure Concurrent (ι : Type) where
  machine : Machine
  stage : ι → AddStage

def Concurrent.begin (machine : Machine) : Concurrent ι := ⟨machine, fun _ => .start⟩

/-- One caller runs its next part. -/
def advance (requests : ι → AddRequest) (state : Concurrent ι) (caller : ι) :
    Unit × Concurrent ι :=
  let outcome := complete (requests caller).env (segment (requests caller) (state.stage caller))
    state.machine
  ((), ⟨outcome.2, Function.update state.stage caller outcome.1⟩)

/-- A call whose parts run without interruption is a completed call. -/
theorem advance_uninterrupted (requests : ι → AddRequest) (state : Concurrent ι) (caller : ι)
    (fresh : state.stage caller = .start) :
    let outcome := complete (requests caller).env
      (addMemoryLimit (requests caller).processPid (requests caller).memoryLimit) state.machine
    let after := Transition.final (advance requests) state [caller, caller, caller, caller]
    after.machine = outcome.2 ∧ after.stage caller = .returned outcome.1 := by
  simp only [Transition.final, advance, fresh, Function.update_self, complete_segment,
    complete_addMemoryLimit]
  cases admission (requests caller).env (requests caller).processPid
      (requests caller).memoryLimit with
  | error code => exact ⟨rfl, rfl⟩
  | ok task =>
      by_cases listed : Listed (state.machine.heads .shared) (requests caller).processPid
      · simp only [if_pos listed, and_self]
      · by_cases allocated : (requests caller).env.kmalloc = true
        · simp only [if_neg listed, if_pos allocated, and_self]
        · simp only [if_neg listed, if_neg allocated, and_self]

/-! ### Exclusion between check and insertion -/

/-- The call has found its pid unlisted and has neither linked its entry nor
given up. -/
def AddStage.InWindow : AddStage → Prop
  | .unlisted _ => True
  | .allocated _ => True
  | _ => False

instance : DecidablePred AddStage.InWindow
  | .start => .isFalse id
  | .admitted _ => .isFalse id
  | .unlisted _ => .isTrue trivial
  | .allocated _ => .isTrue trivial
  | .returned _ => .isFalse id

/-- The next part of the call is its walk of the list. -/
def AddStage.AtWalk : AddStage → Prop
  | .admitted _ => True
  | _ => False

instance : DecidablePred AddStage.AtWalk
  | .start => .isFalse id
  | .admitted _ => .isTrue trivial
  | .unlisted _ => .isFalse id
  | .allocated _ => .isFalse id
  | .returned _ => .isFalse id

/-- The call has, or may still get, the entry for its pid. -/
def AddStage.Holds (stage : AddStage) : Prop :=
  stage.InWindow ∨ stage = .returned 0

/-- When the caller walks the list, no other call for the same pid is in the
window. -/
def WalksAlone (requests : ι → AddRequest) (state : Concurrent ι) (caller : ι) : Prop :=
  (state.stage caller).AtWalk →
    ∀ other, other ≠ caller → (requests other).processPid = (requests caller).processPid →
      ¬ (state.stage other).InWindow

instance (requests : Bool → AddRequest) (state : Concurrent Bool) (caller : Bool) :
    Decidable (WalksAlone requests state caller) :=
  inferInstanceAs (Decidable (_ → ∀ _ : Bool, _))

/-- The list and the calls under way agree on who may have each pid. -/
structure Exclusive (requests : ι → AddRequest) (entries : List MemoryLimitationEntry)
    (stage : ι → AddStage) : Prop where
  distinct : (entries.map MemoryLimitationEntry.pid).Nodup
  window : ∀ caller, (stage caller).InWindow → ¬ Listed entries (requests caller).processPid
  done : ∀ caller, stage caller = .returned 0 → Listed entries (requests caller).processPid
  single : ∀ first second, (stage first).Holds → (stage second).Holds →
    (requests first).processPid = (requests second).processPid → first = second

/-- All a part can do: nothing that matters to other calls, find the pid
unlisted, or link the entry. -/
theorem segment_cases (env : Environment) (request : AddRequest) (stage : AddStage)
    (machine : Machine) :
    ((complete env (segment request stage) machine).2 = machine ∧
      ((complete env (segment request stage) machine).1.InWindow → stage.InWindow) ∧
      ((complete env (segment request stage) machine).1 = .returned 0 → stage = .returned 0)) ∨
    (∃ task, stage = .admitted task ∧ ¬ Listed (machine.heads .shared) request.processPid ∧
      complete env (segment request stage) machine = (.unlisted task, machine)) ∨
    (∃ task, stage = .allocated task ∧
      complete env (segment request stage) machine =
        (.returned 0, machine.setHead .shared
          (⟨request.processPid, request.memoryLimit⟩ :: machine.heads .shared))) := by
  rw [complete_segment]
  cases stage with
  | start =>
      left
      cases admitted : admission env request.processPid request.memoryLimit with
      | error code =>
          have negative := admission_error_neg admitted
          refine ⟨rfl, id, ?_⟩
          intro zero
          obtain rfl := AddStage.returned.inj zero
          exact absurd negative (by decide)
      | ok task => exact ⟨rfl, id, nofun⟩
  | admitted task =>
      by_cases listed : Listed (machine.heads .shared) request.processPid
      · left
        simp only [if_pos listed]
        exact ⟨trivial, id, nofun⟩
      · right
        left
        simp only [if_neg listed]
        exact ⟨task, rfl, listed, rfl⟩
  | unlisted task =>
      left
      by_cases allocated : env.kmalloc = true
      · simp only [if_pos allocated]
        exact ⟨trivial, fun _ => trivial, nofun⟩
      · simp only [if_neg allocated]
        exact ⟨trivial, fun _ => trivial, nofun⟩
  | allocated task =>
      right
      right
      exact ⟨task, rfl, rfl⟩
  | returned code => exact Or.inl ⟨rfl, id, id⟩

section Step

variable {requests : ι → AddRequest} {entries : List MemoryLimitationEntry} {stage : ι → AddStage}
  (exclusive : Exclusive requests entries stage) (caller : ι)

include exclusive

theorem Exclusive.quiet {next : AddStage} (window : next.InWindow → (stage caller).InWindow)
    (done : next = .returned 0 → stage caller = .returned 0) :
    Exclusive requests entries (Function.update stage caller next) := by
  have earlierWindow : ∀ other, (Function.update stage caller next other).InWindow →
      (stage other).InWindow := by
    intro other inWindow
    by_cases same : other = caller
    · subst same
      rw [Function.update_self] at inWindow
      exact window inWindow
    · rwa [Function.update_of_ne same] at inWindow
  have earlierDone : ∀ other, Function.update stage caller next other = .returned 0 →
      stage other = .returned 0 := by
    intro other returned
    by_cases same : other = caller
    · subst same
      rw [Function.update_self] at returned
      exact done returned
    · rwa [Function.update_of_ne same] at returned
  have earlierHolds : ∀ other, (Function.update stage caller next other).Holds →
      (stage other).Holds := by
    intro other holds
    rcases holds with inWindow | returned
    · exact Or.inl (earlierWindow other inWindow)
    · exact Or.inr (earlierDone other returned)
  constructor
  case distinct => exact exclusive.distinct
  case window =>
    intro other inWindow
    exact exclusive.window other (earlierWindow other inWindow)
  case done =>
    intro other returned
    exact exclusive.done other (earlierDone other returned)
  case single =>
    intro first second firstHolds secondHolds samePid
    exact exclusive.single first second (earlierHolds first firstHolds)
      (earlierHolds second secondHolds) samePid

theorem Exclusive.enter (task : TaskRef)
    (unlisted : ¬ Listed entries (requests caller).processPid)
    (alone : ∀ other, other ≠ caller →
      (requests other).processPid = (requests caller).processPid → ¬ (stage other).InWindow) :
    Exclusive requests entries (Function.update stage caller (.unlisted task)) := by
  have free : ∀ other, other ≠ caller → (stage other).Holds →
      (requests other).processPid ≠ (requests caller).processPid := by
    intro other different holds samePid
    rcases holds with inWindow | returned
    · exact alone other different samePid inWindow
    · have listed := exclusive.done other returned
      rw [samePid] at listed
      exact unlisted listed
  constructor
  case distinct => exact exclusive.distinct
  case window =>
    intro other inWindow
    by_cases same : other = caller
    · rwa [same]
    · rw [Function.update_of_ne same] at inWindow
      exact exclusive.window other inWindow
  case done =>
    intro other returned
    by_cases same : other = caller
    · rw [same, Function.update_self] at returned
      contradiction
    · rw [Function.update_of_ne same] at returned
      exact exclusive.done other returned
  case single =>
    intro first second firstHolds secondHolds samePid
    by_cases firstIs : first = caller
    · by_cases secondIs : second = caller
      · rw [firstIs, secondIs]
      · rw [Function.update_of_ne secondIs] at secondHolds
        rw [firstIs] at samePid
        exact absurd samePid.symm (free second secondIs secondHolds)
    · rw [Function.update_of_ne firstIs] at firstHolds
      by_cases secondIs : second = caller
      · rw [secondIs] at samePid
        exact absurd samePid (free first firstIs firstHolds)
      · rw [Function.update_of_ne secondIs] at secondHolds
        exact exclusive.single first second firstHolds secondHolds samePid

theorem Exclusive.link (inWindow : (stage caller).InWindow) (memoryLimit : SizeT) :
    Exclusive requests (⟨(requests caller).processPid, memoryLimit⟩ :: entries)
      (Function.update stage caller (.returned 0)) := by
  have callerHolds : (stage caller).Holds := Or.inl inWindow
  have unlisted := exclusive.window caller inWindow
  have free : ∀ other, other ≠ caller → (stage other).Holds →
      (requests other).processPid ≠ (requests caller).processPid := by
    intro other different holds samePid
    exact different (exclusive.single other caller holds callerHolds samePid)
  have earlierHolds : ∀ other, (Function.update stage caller (.returned 0) other).Holds →
      (stage other).Holds := by
    intro other holds
    by_cases same : other = caller
    · rwa [same]
    · rwa [Function.update_of_ne same] at holds
  constructor
  case distinct =>
    rw [List.map_cons, List.nodup_cons]
    exact ⟨unlisted, exclusive.distinct⟩
  case window =>
    intro other inWindow
    have different : other ≠ caller := by
      rintro rfl
      rw [Function.update_self] at inWindow
      exact inWindow
    rw [Function.update_of_ne different] at inWindow
    unfold Listed
    rw [List.map_cons, List.mem_cons]
    rintro (same | listed)
    · exact free other different (Or.inl inWindow) same
    · exact exclusive.window other inWindow listed
  case done =>
    intro other returned
    unfold Listed
    rw [List.map_cons, List.mem_cons]
    by_cases same : other = caller
    · rw [same]
      exact Or.inl rfl
    · rw [Function.update_of_ne same] at returned
      exact Or.inr (exclusive.done other returned)
  case single =>
    intro first second firstHolds secondHolds samePid
    exact exclusive.single first second (earlierHolds first firstHolds)
      (earlierHolds second secondHolds) samePid

end Step

theorem advance_exclusive {requests : ι → AddRequest} {state : Concurrent ι} (caller : ι)
    (exclusive : Exclusive requests (state.machine.heads .shared) state.stage)
    (alone : WalksAlone requests state caller) :
    Exclusive requests ((advance requests state caller).2.machine.heads .shared)
      (advance requests state caller).2.stage := by
  unfold advance
  rcases segment_cases (requests caller).env (requests caller) (state.stage caller)
    state.machine with ⟨same, window, done⟩ | ⟨task, admitted, unlisted, outcome⟩ |
      ⟨task, allocated, outcome⟩
  · simp only [same]
    exact exclusive.quiet caller window done
  · have atWalk : (state.stage caller).AtWalk := by
      rw [admitted]
      trivial
    simp only [outcome]
    exact exclusive.enter caller task unlisted (alone atWalk)
  · have inWindow : (state.stage caller).InWindow := by
      rw [allocated]
      trivial
    simp only [outcome, setHead_shared]
    exact exclusive.link caller inWindow _

/-- From a list without duplicates, every schedule in which each walk is taken
while no other call for the same pid is in the window reaches a list without
duplicates, and of the calls for one pid at most one has returned 0. -/
theorem no_duplicate_of_walksAlone (requests : ι → AddRequest) (machine : Machine)
    (schedule : List ι)
    (distinct : ((machine.heads .shared).map MemoryLimitationEntry.pid).Nodup)
    (alone : Transition.Along (advance requests) (WalksAlone requests) (.begin machine)
      schedule) :
    let state := Transition.final (advance requests) (.begin machine) schedule
    ((state.machine.heads .shared).map MemoryLimitationEntry.pid).Nodup ∧
      ∀ first second, (requests first).processPid = (requests second).processPid →
        state.stage first = .returned 0 → state.stage second = .returned 0 →
          first = second := by
  intro state
  have start : Exclusive requests ((Concurrent.begin machine : Concurrent ι).machine.heads .shared)
      (Concurrent.begin machine : Concurrent ι).stage :=
    ⟨distinct, nofun, nofun, fun _ _ holds => by rcases holds with window | done <;> contradiction⟩
  have reached : Exclusive requests (state.machine.heads .shared) state.stage :=
    Transition.invariant_final (advance requests) (WalksAlone requests)
      (fun state => Exclusive requests (state.machine.heads .shared) state.stage)
      (fun _ caller exclusive alone => advance_exclusive caller exclusive alone) start alone
  refine ⟨reached.distinct, ?_⟩
  intro first second samePid firstDone secondDone
  exact reached.single first second (Or.inr firstDone) (Or.inr secondDone) samePid

theorem no_duplicate_of_one_after_the_other :
    let requests : Bool → AddRequest := fun _ => ⟨.quiet 7, 7, 8192⟩
    let schedule := [false, false, true, false, false, true, true]
    let state := Transition.final (advance requests) (.begin (.boot fun _ => 0)) schedule
    Transition.Along (advance requests) (WalksAlone requests) (.begin (.boot fun _ => 0))
        schedule ∧
      state.stage false = .returned 0 ∧ state.stage true = .returned (-101) ∧
      ((state.machine.heads .shared).map MemoryLimitationEntry.pid).Nodup := by
  intro requests schedule
  have alone : Transition.Along (advance requests) (WalksAlone requests)
      (.begin (.boot fun _ => 0)) schedule := by decide
  have distinct := no_duplicate_of_walksAlone requests (.boot fun _ => 0) schedule
    List.nodup_nil alone
  exact ⟨alone, by decide, by decide, distinct.1⟩

/-! ### The race -/

/-- Two calls for one pid that are both past the walk, and whose allocations
succeed, both return 0 and leave two entries for the pid. -/
theorem duplicate_of_overlap (requests : ι → AddRequest) (state : Concurrent ι)
    {first second : ι} {firstTask secondTask : TaskRef} (different : second ≠ first)
    (samePid : (requests second).processPid = (requests first).processPid)
    (firstStage : state.stage first = .unlisted firstTask)
    (secondStage : state.stage second = .unlisted secondTask)
    (firstAllocates : (requests first).env.kmalloc = true)
    (secondAllocates : (requests second).env.kmalloc = true) :
    let after := Transition.final (advance requests) state [first, second, first, second]
    after.stage first = .returned 0 ∧ after.stage second = .returned 0 ∧
      ¬ ((after.machine.heads .shared).map MemoryLimitationEntry.pid).Nodup := by
  simp [Transition.final, advance, complete_segment, firstStage, secondStage, firstAllocates,
    secondAllocates, different, different.symm, samePid]

theorem duplicate_after_two_walks :
    let requests : Bool → AddRequest := fun _ => ⟨.quiet 7, 7, 8192⟩
    let state := Transition.final (advance requests) (.begin (.boot fun _ => 0))
      [false, true, false, true, false, true, false, true]
    state.stage false = .returned 0 ∧ state.stage true = .returned 0 ∧
      state.machine.heads .shared = [⟨7, 8192⟩, ⟨7, 8192⟩] := by
  decide

end Schedules

end UsacSyscalls.Project3
