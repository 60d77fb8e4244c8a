import UsacSyscalls.Project3.HeapInterleaving

/-!
Contract: when concurrent `add_memory_limit` calls lose no entry.

Owns the condition on schedules that no store to the head of the list happens
while another call is inside `list_add`, the order in which a schedule publishes
entries, and the consequence of the condition: the list is what it was at the
start with the published entries in front, one for each call, latest first, and
the calls that return 0 are among those.

Does not own a lock; the source takes none.
-/

set_option autoImplicit false

namespace UsacSyscalls.Project3

open UsacSyscalls.Foundation
open UsacSyscalls.Kernel

/-! ### The condition -/

/-- The next operation is the store to the head that ends `list_add`. -/
def atPublication : HeapCall (Option Int) → Bool
  | .request (.setNext (.head _) _) _ => true
  | _ => false

variable {ι : Type}

def PublishesAlone (callers : Callers ι) (caller : ι) : Prop :=
  atPublication (callers.residual caller) = true →
    ∀ other, other ≠ caller → inListAdd (callers.residual other) = false

instance (callers : Callers Bool) (caller : Bool) : Decidable (PublishesAlone callers caller) :=
  inferInstanceAs (Decidable (_ → ∀ _ : Bool, _))

/-- The entry that a call asks for. -/
def Call.requested : Call → Option MemoryLimitationEntry
  | .add _ processPid memoryLimit => some ⟨processPid, memoryLimit⟩
  | _ => none

theorem Call.Admits.requested {call : Call} {entry : MemoryLimitationEntry}
    (admitted : call.Admits entry) : call.requested = some entry := by
  obtain ⟨env, processPid, memoryLimit, task, rfl, _, rfl⟩ := admitted
  rfl

namespace Start

variable (start : Start ι) [DecidableEq ι] {fuel : Nat} {past : List ι} {known : ι → Knowledge}
  {caller : ι}

/-- The callers whose stores to the head are in the schedule, latest first. -/
def publications (fuel : Nat) (schedule : List ι) : List ι :=
  Transition.selected (Pool.step start.kernels)
    (fun callers caller => atPublication (callers.residual caller)) (start.callers fuel) schedule

theorem publications_append_singleton (fuel : Nat) (past : List ι) (caller : ι) :
    start.publications fuel (past ++ [caller]) =
      if atPublication ((start.after fuel past).residual caller) then
        caller :: start.publications fuel past
      else start.publications fuel past := by
  unfold publications
  rw [Transition.selected_append_singleton, List.filter_singleton]
  cases atPublication ((start.after fuel past).residual caller) <;> rfl

/-! ### The invariant -/

/-- The list holds the registered entries, in the order of their publications, in
front of what it held at the start. -/
structure Ordered (fuel : Nat) (past : List ι) (known : ι → Knowledge) : Prop where
  distinct : (start.publications fuel past).Nodup
  registered : ∀ {caller}, caller ∈ start.publications fuel past ↔
    (known caller).own.registered ≠ none
  contents : ∃ cells, Contents (start.after fuel past).shared cells ∧
    cells.map (fun cell => some cell.2) =
      (start.publications fuel past).map (fun caller => (known caller).own.registered) ++
        start.cells.map (fun cell => some cell.2)

structure Registered (fuel : Nat) (past : List ι) (known : ι → Knowledge) : Prop where
  explained : start.Explained fuel past known
  current : ∀ {caller cells}, (known caller).own.target = some cells →
    Contents (start.after fuel past).shared cells
  ordered : start.Ordered fuel past known

variable {start}

/-- Operations that leave the contents alone. -/
theorem Ordered.kept (ordered : start.Ordered fuel past known)
    (elsewhere : atPublication ((start.after fuel past).residual caller) = false)
    {learned : Knowledge} (same : learned.own.registered = (known caller).own.registered)
    (keeps : ∀ {cells}, Contents (start.after fuel past).shared cells →
      Contents (start.after fuel (past ++ [caller])).shared cells) :
    start.Ordered fuel (past ++ [caller]) (Function.update known caller learned) := by
  have unchanged : ∀ other, (Function.update known caller learned other).own.registered =
      (known other).own.registered := by
    intro other
    by_cases isCaller : other = caller
    · subst isCaller
      rw [Function.update_self, same]
    · rw [Function.update_of_ne isCaller]
  have order : start.publications fuel (past ++ [caller]) = start.publications fuel past := by
    rw [publications_append_singleton, elsewhere, if_neg Bool.false_ne_true]
  obtain ⟨cells, contents, entries⟩ := ordered.contents
  constructor
  · rw [order]
    exact ordered.distinct
  · intro other
    rw [order, unchanged]
    exact ordered.registered
  · refine ⟨cells, keeps contents, ?_⟩
    simp only [order, unchanged]
    exact entries

/-- The store that makes the caller's entry reachable. -/
theorem Ordered.publish (ordered : start.Ordered fuel past known)
    (publishing : atPublication ((start.after fuel past).residual caller) = true)
    {learned : Knowledge} {ref : EntryRef} {entry : MemoryLimitationEntry} {behind : List Cell}
    (before : (known caller).own.registered = none)
    (published : learned.own.registered = some entry)
    (current : Contents (start.after fuel past).shared behind)
    (contents : Contents (start.after fuel (past ++ [caller])).shared ((ref, entry) :: behind)) :
    start.Ordered fuel (past ++ [caller]) (Function.update known caller learned) := by
  have order : start.publications fuel (past ++ [caller]) =
      caller :: start.publications fuel past := by
    rw [publications_append_singleton, if_pos publishing]
  have absent : caller ∉ start.publications fuel past :=
    fun member => ordered.registered.mp member before
  obtain ⟨cells, held, entries⟩ := ordered.contents
  obtain rfl := held.unique current
  constructor
  · rw [order]
    exact List.nodup_cons.mpr ⟨absent, ordered.distinct⟩
  · intro other
    rw [order]
    by_cases isCaller : other = caller
    · subst isCaller
      simp [published]
    · simp [isCaller, ordered.registered]
  · have others : (start.publications fuel past).map (fun other =>
        (Function.update known caller learned other).own.registered) =
          (start.publications fuel past).map fun other => (known other).own.registered := by
      apply List.map_congr_left
      intro other member
      have different : other ≠ caller := fun same => absent (same ▸ member)
      rw [Function.update_of_ne different]
    refine ⟨_, contents, ?_⟩
    rw [order, List.map_cons, List.map_cons, List.cons_append, Function.update_self, published,
      others, entries]

/-- A store to the head always registers the caller's entry. -/
theorem registered_of_atPublication (disciplined : start.Disciplined fuel past known)
    {operation : HeapOp} {next : HeapReply operation → HeapCall (Option Int)}
    (pending : (start.after fuel past).residual caller = .request operation next)
    {reply : HeapReply operation} {learned : Knowledge}
    (learns : learns (start.events caller).environment (known caller) operation reply learned)
    (publishing : atPublication ((start.after fuel past).residual caller) = true) :
    learned.own.registered ≠ (known caller).own.registered := by
  have here := disciplined caller
  rw [pending] at here publishing
  match operation with
  | .setNext (.head list) target =>
      obtain ⟨_, ref, entry, behind, joined, _⟩ := here.1.1
      have isPublished : learned = { known caller with own := (known caller).own.publish } := learns
      rw [isPublished, joined]
      exact nofun

theorem Registered.advance (registered : start.Registered fuel past known)
    (disciplined : start.Disciplined fuel past known) {operation : HeapOp}
    {next : HeapReply operation → HeapCall (Option Int)}
    (pending : (start.after fuel past).residual caller = .request operation next)
    (alone : PublishesAlone (start.after fuel past) caller) {learned : Knowledge}
    (acts : Acts (start.events caller).environment
      (fun caller => (start.events caller).call.Admits) start.cells
      (start.after fuel past).shared known caller operation
      (heapKernel (start.events caller).environment operation
        ((start.after fuel past).shared, (start.after fuel past).memory caller)) learned) :
    start.Registered fuel (past ++ [caller]) (Function.update known caller learned) := by
  obtain ⟨shared, _⟩ := after_of_pending pending
  have explained := registered.explained.advance disciplined pending acts
  rcases acts.contents with
    ⟨same, keeps⟩ | ⟨ref, entry, behind, isStore, joined, published, contents⟩
  · have elsewhere : atPublication ((start.after fuel past).residual caller) = false := by
      by_contra publishing
      rw [Bool.not_eq_false] at publishing
      exact registered_of_atPublication disciplined pending acts.learns publishing same
    rw [← shared] at keeps
    refine ⟨explained, ?_, registered.ordered.kept elsewhere same keeps⟩
    intro other cells aims
    by_cases isCaller : other = caller
    · subst isCaller
      rw [Function.update_self] at aims
      rcases acts.target aims with before | ⟨_, now⟩
      · exact keeps (registered.current before)
      · exact keeps now
    · rw [Function.update_of_ne isCaller] at aims
      exact keeps (registered.current aims)
  · subst isStore
    rw [← shared] at contents
    have publishing : atPublication ((start.after fuel past).residual caller) = true := by
      rw [pending]
      rfl
    have before : (known caller).own.registered = none := by rw [joined]; rfl
    have aims : (known caller).own.target = some behind := by rw [joined]; rfl
    have isPublished : learned.own.registered = some entry := by rw [published]; rfl
    refine ⟨explained, ?_, registered.ordered.publish publishing before isPublished
      (registered.current aims) contents⟩
    -- nobody else is inside `list_add`, so no loaded contents have become stale
    intro other cells otherAims
    by_cases isCaller : other = caller
    · subst isCaller
      rw [Function.update_self, published] at otherAims
      exact nomatch otherAims
    · rw [Function.update_of_ne isCaller,
        target_eq_none disciplined (alone publishing other isCaller)] at otherAims
      exact nomatch otherAims

theorem Registered.idle (registered : start.Registered fuel past known)
    (disciplined : start.Disciplined fuel past known) {value : Option Int}
    (returned : (start.after fuel past).residual caller = .pure value) :
    start.Registered fuel (past ++ [caller]) known := by
  have same := after_of_returned returned
  have order : start.publications fuel (past ++ [caller]) = start.publications fuel past := by
    rw [publications_append_singleton, returned]
    rfl
  refine ⟨registered.explained.idle disciplined returned, ?_, ?_, ?_, ?_⟩
  · rw [same]
    exact registered.current
  · rw [order]
    exact registered.ordered.distinct
  · rw [order]
    exact registered.ordered.registered
  · rw [same, order]
    exact registered.ordered.contents

variable (start)

theorem registered_nil (fuel : Nat) :
    start.Registered fuel [] (fun caller => .start (start.users caller)) := by
  refine ⟨start.explained_nil fuel, nofun, List.nodup_nil, ?_, start.cells,
    start.contents_start, rfl⟩
  intro caller
  exact ⟨fun member => absurd member List.not_mem_nil, fun some => absurd rfl some⟩

theorem guarded_alone (fuel : Nat) :
    Pool.Guarded start.kernels (start.callers fuel) start.protocol (start.Finished fuel)
      PublishesAlone (start.Registered fuel) where
  idles := fun registered disciplined returned => Registered.idle registered disciplined returned
  acts := by
    intro past known caller operation next registered disciplined pending alone
    obtain ⟨learned, acts⟩ := registered.explained.acts disciplined pending
    exact ⟨learned, acts.learns, registered.advance disciplined pending alone acts⟩

/-- As long as no call stores to the head while another is inside `list_add`, the
list holds, in front of what it held at the start, the entries of the calls that
stored to the head, each once and the latest first; those that have returned are
among them exactly if they are `add_memory_limit` calls that returned 0. -/
theorem registrations_kept {schedule : List ι}
    (alone : Transition.Along (Pool.step start.kernels) PublishesAlone (start.callers fuel)
      schedule) :
    (start.publications fuel schedule).Nodup ∧
      (∃ cells, Contents (start.after fuel schedule).shared cells ∧
        cells.map (fun cell => some cell.2) =
          (start.publications fuel schedule).map
              (fun caller => (start.events caller).call.requested) ++
            start.cells.map (fun cell => some cell.2)) ∧
      ∀ caller code, (start.after fuel schedule).residual caller = .pure (some code) →
        (caller ∈ start.publications fuel schedule ↔
          addedEntry ((start.events caller).call, ⟨code, []⟩) ≠ none) := by
  obtain ⟨known, registered, disciplined⟩ :=
    (start.guarded_alone fuel).sound (start.registered_nil fuel) (start.disciplined_nil fuel) alone
  have ordered := registered.ordered
  obtain ⟨cells, contents, entries⟩ := ordered.contents
  obtain ⟨published, consistent⟩ := registered.explained.consistent
  refine ⟨ordered.distinct, ⟨cells, contents, ?_⟩, ?_⟩
  · rw [entries]
    congr 1
    apply List.map_congr_left
    intro caller member
    have isRegistered := ordered.registered.mp member
    have holds := consistent.own caller
    cases own : (known caller).own with
    | published ref entry =>
        rw [own] at holds
        exact holds.2.2.requested.symm
    | _ =>
        rw [own] at isRegistered
        exact absurd rfl isRegistered
  · intro caller code returned
    have finished := disciplined caller
    rw [returned] at finished
    rw [ordered.registered, Returned.registered finished]

end Start

def twoAdds (first : Bool) : HeapEvent :=
  if first then ⟨.add (.quiet 7) 7 8192, .ascending⟩ else ⟨.add (.quiet 9) 9 4096, .ascending⟩

/-- The second call loads the first entry after the first has stored to the
head. -/
def oneAfterTheOther : List Bool :=
  List.replicate 8 false ++ List.replicate 15 true ++ List.replicate 8 false ++ [true]

/-- The call that stored to the head last stands first. -/
theorem registrations_kept_one_after_the_other :
    let start := Start.boot twoAdds
    Transition.Along (Pool.step start.kernels) PublishesAlone (start.callers 3) oneAfterTheOther ∧
      start.publications 3 oneAfterTheOther = [false, true] ∧
      ∃ cells, Contents (start.after 3 oneAfterTheOther).shared cells ∧
        cells.map (fun cell => some cell.2) = [some ⟨9, 4096⟩, some ⟨7, 8192⟩] := by
  have alone : Transition.Along (Pool.step (Start.boot twoAdds).kernels) PublishesAlone
      ((Start.boot twoAdds).callers 3) oneAfterTheOther := by decide
  have order : (Start.boot twoAdds).publications 3 oneAfterTheOther = [false, true] := by decide
  obtain ⟨-, ⟨cells, contents, entries⟩, -⟩ := Start.registrations_kept _ alone
  rw [order] at entries
  exact ⟨alone, order, cells, contents, entries⟩

/-- Without the condition a registration is lost: both calls return 0, and the
list holds the entry of the second only. -/
example :
    let callers := (Start.boot twoAdds).after 3 (List.replicate 11 true ++
      List.replicate 11 false ++ List.replicate 5 true ++ List.replicate 5 false)
    callers.residual true = .pure (some 0) ∧ callers.residual false = .pure (some 0) ∧
      Contents callers.shared [(2, ⟨9, 4096⟩)] :=
  ⟨rfl, rfl, rfl, rfl, rfl, trivial⟩

end UsacSyscalls.Project3
