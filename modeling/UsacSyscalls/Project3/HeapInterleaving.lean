import Mathlib.Data.Fintype.Card
import UsacSyscalls.Project3.HeapDiscipline

/-!
Contract: the four memory-limit syscalls, interleaved at single loads and
stores.

Owns any number of callers on a heap with one shared list, each making one call
with a user memory of its own, and what holds for them in any order of their
operations: every access goes to an object that is there, every call answers as
an uninterrupted one would have at an instant of its own run, and every store to
the head puts one admitted entry in front of what its caller loaded in
`list_add`.

Does not own the number of operations until a call returns, which is
`HeapProgress`, nor schedules in which no store to the head overlaps another
`list_add`, which are `HeapRegistration`.
-/

set_option autoImplicit false

namespace UsacSyscalls.Project3

open UsacSyscalls.Foundation
open UsacSyscalls.Kernel

/-- The next operation stores a pointer. `list_add` does nothing else once it has
loaded the first entry. -/
def inListAdd : HeapCall (Option Int) → Bool
  | .request (.setNext _ _) _ => true
  | .request (.setPrev _ _) _ => true
  | _ => false

theorem inListAdd_of_linking {operation : HeapOp}
    {next : HeapReply operation → HeapCall (Option Int)} (linking : Linking operation) :
    inListAdd (.request operation next) = true := by
  cases operation with
  | setNext link target => rfl
  | setPrev link target => rfl
  | _ => exact linking.elim

/-! ### Callers -/

/-- Callers about to make one call each, in separate user memories, on a heap
whose static lists are empty. -/
structure Start (ι : Type) where
  heap : Heap
  refs : ListHead → List EntryRef
  layout : Layout heap refs
  statics : ∀ {list}, list ≠ .shared → refs list = []
  users : ι → ByteMemory
  events : ι → HeapEvent

/-- Empty lists, as after boot. -/
def Start.boot {ι : Type} (events : ι → HeapEvent) : Start ι where
  heap := Heap.boot
  refs := fun _ => []
  layout := (realises_boot fun _ => 0).layout
  statics := fun _ => rfl
  users := fun _ _ => 0
  events := events

abbrev Callers (ι : Type) := Pool ι HeapOp HeapReply (Option Int) Heap ByteMemory

namespace Start

variable {ι : Type} (start : Start ι)

def kernels (caller : ι) : Program.Handler HeapOp HeapReply HeapState :=
  heapKernel (start.events caller).environment

def callers (fuel : Nat) : Callers ι where
  shared := start.heap
  memory := start.users
  residual caller := (start.events caller).call.onHeap fuel

/-- What the list holds before any caller runs. -/
def cells : List Cell := (start.refs .shared).map fun ref => (ref, start.heap.members (.entry ref))

/-- As many entries as the list can come to hold. -/
def capacity [Fintype ι] : Nat := start.cells.length + Fintype.card ι

def protocol (caller : ι) : Protocol HeapOp HeapReply Knowledge :=
  listProtocol (start.events caller).environment (start.events caller).call.Admits

variable [DecidableEq ι]

/-- Where a schedule of operations leads. -/
abbrev after (fuel : Nat) (schedule : List ι) : Callers ι :=
  Pool.after start.kernels (start.callers fuel) schedule

/-- What each caller comes to. -/
def Finished (fuel : Nat) (caller : ι) : Option Int → Knowledge → Prop :=
  Project3.Finished fuel (start.events caller).call (start.users caller)

abbrev Disciplined (fuel : Nat) (schedule : List ι) (known : ι → Knowledge) : Prop :=
  Pool.Disciplined start.protocol (start.Finished fuel) (start.after fuel schedule) known

/-- The list held `cells` when the caller, during the schedule, loaded its first
entry. -/
def LoadedIn (fuel : Nat) (schedule : List ι) (caller : ι) (cells : List Cell) : Prop :=
  ∃ before next, before ++ [caller] <+: schedule ∧
    (start.after fuel before).residual caller = .request (.next (.head .shared)) next ∧
    Contents (start.after fuel before).shared cells

/-- The list held `cells` when the caller, during the schedule, loaded its first
entry in `list_add`: at all its turns since then the caller has stored
pointers. -/
def AimedIn (fuel : Nat) (schedule : List ι) (caller : ι) (cells : List Cell) : Prop :=
  ∃ before later next, schedule = before ++ caller :: later ∧
    (start.after fuel before).residual caller = .request (.next (.head .shared)) next ∧
    Contents (start.after fuel before).shared cells ∧
    ∀ between rest, later = between ++ caller :: rest →
      inListAdd ((start.after fuel (before ++ caller :: between)).residual caller) = true

/-- What the callers know is true, and was so at some operation of theirs. -/
structure Explained (fuel : Nat) (past : List ι) (known : ι → Knowledge) : Prop where
  consistent : ∃ published, Consistent (fun caller => (start.events caller).call.Admits) start.cells
    (start.after fuel past).shared published known
  user : ∀ caller, (start.after fuel past).memory caller = (known caller).user
  seen : ∀ {caller cells}, (known caller).seen = some cells → start.LoadedIn fuel past caller cells
  target : ∀ {caller cells}, (known caller).own.target = some cells →
    start.AimedIn fuel past caller cells

section Invariant

variable {start} {fuel : Nat} {past : List ι} {known : ι → Knowledge} {caller : ι}

theorem LoadedIn.later {cells : List Cell} (held : start.LoadedIn fuel past caller cells)
    (other : ι) : start.LoadedIn fuel (past ++ [other]) caller cells := by
  obtain ⟨before, next, isPrefix, loads⟩ := held
  exact ⟨before, next, isPrefix.trans (List.prefix_append _ _), loads⟩

theorem loadedIn_of_loads {operation : HeapOp}
    {next : HeapReply operation → HeapCall (Option Int)} {cells : List Cell}
    (pending : (start.after fuel past).residual caller = .request operation next)
    (loads : Loads (start.after fuel past).shared operation cells) :
    start.LoadedIn fuel (past ++ [caller]) caller cells := by
  obtain ⟨rfl, contents⟩ := loads
  exact ⟨past, next, List.prefix_rfl, pending, contents⟩

theorem AimedIn.later {cells : List Cell} (aimed : start.AimedIn fuel past caller cells)
    (taken : ι)
    (stores : taken = caller → inListAdd ((start.after fuel past).residual caller) = true) :
    start.AimedIn fuel (past ++ [taken]) caller cells := by
  obtain ⟨before, later, next, rfl, pending, contents, stored⟩ := aimed
  refine ⟨before, later ++ [taken], next, ?_, pending, contents, ?_⟩
  · rw [List.append_assoc, List.cons_append]
  · intro between rest split
    -- the turn of the caller is the one taken now, or an earlier one
    rcases List.eq_nil_or_concat rest with rfl | ⟨earlier, last, rfl⟩
    · obtain ⟨rfl, same⟩ := List.append_inj' split rfl
      exact stores (List.cons.inj same).1
    · rw [List.concat_eq_append, ← List.cons_append, ← List.append_assoc] at split
      exact stored between earlier (List.append_inj' split rfl).1

theorem aimedIn_of_loads {operation : HeapOp}
    {next : HeapReply operation → HeapCall (Option Int)} {cells : List Cell}
    (pending : (start.after fuel past).residual caller = .request operation next)
    (loads : Loads (start.after fuel past).shared operation cells) :
    start.AimedIn fuel (past ++ [caller]) caller cells := by
  obtain ⟨rfl, contents⟩ := loads
  refine ⟨past, [], next, rfl, pending, contents, ?_⟩
  intro between rest split
  exact absurd split.symm (List.append_ne_nil_of_right_ne_nil _ (List.cons_ne_nil _ _))

/-- Callers outside `list_add` have loaded nothing there. -/
theorem target_eq_none (disciplined : start.Disciplined fuel past known)
    (outside : inListAdd ((start.after fuel past).residual caller) = false) :
    (known caller).own.target = none := by
  have keeps := disciplined caller
  cases pending : (start.after fuel past).residual caller with
  | pure value =>
      rw [pending] at keeps
      cases value with
      | none => exact RanOut.outside keeps
      | some code => exact Returned.outside keeps
  | request operation next =>
      rw [pending] at keeps outside
      rcases keeps.1.2 with none | linking
      · exact none
      · rw [inListAdd_of_linking linking] at outside
        exact nomatch outside

/-- Callers that have loaded the first entry in `list_add` go on there. -/
theorem inListAdd_of_target (disciplined : start.Disciplined fuel past known) {cells : List Cell}
    (aims : (known caller).own.target = some cells) :
    inListAdd ((start.after fuel past).residual caller) = true := by
  by_contra outside
  rw [Bool.not_eq_true] at outside
  rw [target_eq_none disciplined outside] at aims
  cases aims

theorem after_append_singleton (fuel : Nat) (past : List ι) (caller : ι) :
    start.after fuel (past ++ [caller]) =
      (Pool.step start.kernels (start.after fuel past) caller).2 :=
  Transition.final_append_singleton ..

/-- An operation of one caller, as a change of the heap and of its memory. -/
theorem after_of_pending {operation : HeapOp}
    {next : HeapReply operation → HeapCall (Option Int)}
    (pending : (start.after fuel past).residual caller = .request operation next) :
    let outcome := heapKernel (start.events caller).environment operation
      ((start.after fuel past).shared, (start.after fuel past).memory caller)
    (start.after fuel (past ++ [caller])).shared = outcome.2.1 ∧
      (start.after fuel (past ++ [caller])).memory =
        Function.update (start.after fuel past).memory caller outcome.2.2 := by
  rw [after_append_singleton, Pool.step_request pending]
  exact ⟨rfl, rfl⟩

theorem after_of_returned {value : Option Int}
    (returned : (start.after fuel past).residual caller = .pure value) :
    start.after fuel (past ++ [caller]) = start.after fuel past := by
  rw [after_append_singleton, Pool.step_pure returned]

/-- An allowed operation, with what its caller learns from it. -/
theorem Explained.acts (explained : start.Explained fuel past known)
    (disciplined : start.Disciplined fuel past known) {operation : HeapOp}
    {next : HeapReply operation → HeapCall (Option Int)}
    (pending : (start.after fuel past).residual caller = .request operation next) :
    ∃ learned, Acts (start.events caller).environment
      (fun caller => (start.events caller).call.Admits) start.cells
      (start.after fuel past).shared known caller operation
      (heapKernel (start.events caller).environment operation
        ((start.after fuel past).shared, (start.after fuel past).memory caller)) learned := by
  obtain ⟨published, consistent⟩ := explained.consistent
  have here := disciplined caller
  rw [pending] at here
  exact consistent.acts (explained.user caller) here.1.1

theorem Explained.advance (explained : start.Explained fuel past known)
    (disciplined : start.Disciplined fuel past known) {operation : HeapOp}
    {next : HeapReply operation → HeapCall (Option Int)}
    (pending : (start.after fuel past).residual caller = .request operation next)
    {learned : Knowledge}
    (acts : Acts (start.events caller).environment
      (fun caller => (start.events caller).call.Admits) start.cells
      (start.after fuel past).shared known caller operation
      (heapKernel (start.events caller).environment operation
        ((start.after fuel past).shared, (start.after fuel past).memory caller)) learned) :
    start.Explained fuel (past ++ [caller]) (Function.update known caller learned) := by
  obtain ⟨shared, memory⟩ := after_of_pending pending
  constructor
  case consistent =>
    rw [shared]
    exact acts.consistent
  case user =>
    rw [memory]
    intro other
    by_cases same : other = caller
    · subst same
      simp only [Function.update_self]
      exact acts.user
    · simp only [Function.update_of_ne same]
      exact explained.user other
  case seen =>
    intro other cells saw
    by_cases same : other = caller
    · subst same
      rw [Function.update_self] at saw
      rcases acts.seen saw with before | now
      · exact (explained.seen before).later other
      · exact loadedIn_of_loads pending now
    · rw [Function.update_of_ne same] at saw
      exact (explained.seen saw).later caller
  case target =>
    intro other cells aims
    by_cases same : other = caller
    · subst same
      rw [Function.update_self] at aims
      rcases acts.target aims with before | now
      · exact (explained.target before).later other fun _ =>
          inListAdd_of_target disciplined before
      · exact aimedIn_of_loads pending now
    · rw [Function.update_of_ne same] at aims
      exact (explained.target aims).later caller fun isOther => absurd isOther.symm same

theorem Explained.idle (explained : start.Explained fuel past known)
    (disciplined : start.Disciplined fuel past known) {value : Option Int}
    (returned : (start.after fuel past).residual caller = .pure value) :
    start.Explained fuel (past ++ [caller]) known := by
  have same := after_of_returned returned
  refine ⟨?_, ?_, fun saw => (explained.seen saw).later caller, ?_⟩
  · rw [same]
    exact explained.consistent
  · rw [same]
    exact explained.user
  · intro other cells aims
    exact (explained.target aims).later caller fun _ => inListAdd_of_target disciplined aims

end Invariant

omit [DecidableEq ι] in
theorem contents_start : Contents start.heap start.cells :=
  chain_of_walk (start.layout.rings .shared).walk

theorem explained_nil (fuel : Nat) :
    start.Explained fuel [] (fun caller => .start (start.users caller)) := by
  refine ⟨⟨{ref | ref ∈ start.refs .shared}, ?_⟩, fun _ => rfl, nofun, nofun⟩
  constructor
  case statics =>
    intro list static
    have ring := start.layout.rings list
    rw [start.statics static] at ring
    exact ring.linked.1
  case live => exact fun member => start.layout.live.mpr ⟨.shared, member⟩
  case current =>
    refine ⟨start.cells, start.contents_start, ?_⟩
    intro cell member
    obtain ⟨ref, listed, rfl⟩ := List.mem_map.mp member
    exact listed
  case chain => exact fun _ => trivial
  case ahead => exact fun _ _ member => absurd member List.not_mem_nil
  case own => exact fun _ => trivial
  case unpublished => nofun
  case apart => nofun
  case origin => exact fun {ref} member => Or.inl (List.mem_map.mpr ⟨ref, member, rfl⟩)

theorem guarded (fuel : Nat) :
    Pool.Guarded start.kernels (start.callers fuel) start.protocol (start.Finished fuel)
      (fun _ _ => True) (start.Explained fuel) where
  idles := fun explained disciplined returned => Explained.idle explained disciplined returned
  acts := by
    intro past known caller operation next explained disciplined pending _
    obtain ⟨learned, acts⟩ := explained.acts disciplined pending
    exact ⟨learned, acts.learns, explained.advance disciplined pending acts⟩

theorem disciplined_nil (fuel : Nat) :
    start.Disciplined fuel [] (fun caller => .start (start.users caller)) :=
  fun caller => follows_call fuel (start.events caller) (start.users caller)

/-- After every schedule, what the callers know explains the heap. -/
theorem explained (fuel : Nat) (schedule : List ι) :
    ∃ known, start.Explained fuel schedule known ∧ start.Disciplined fuel schedule known :=
  (start.guarded fuel).sound (start.explained_nil fuel) (start.disciplined_nil fuel)
    (Transition.along_of_forall _ (fun _ _ => trivial) _ _)

/-! ### Safety -/

/-- In every order of the operations of all callers, each access goes to an
object that is there, and the list stays a finite chain of allocated entries,
all of them there from the start or admitted by an `add_memory_limit`. -/
theorem interleaved_accesses_safe (fuel : Nat) (schedule : List ι) :
    (∀ caller operation next,
      (start.after fuel schedule).residual caller = .request operation next →
        Safe ((start.after fuel schedule).shared, (start.after fuel schedule).memory caller)
          operation) ∧
      ∃ cells, Contents (start.after fuel schedule).shared cells ∧
        ∀ cell ∈ cells, cell.1 ∈ (start.after fuel schedule).shared.live ∧
          (cell ∈ start.cells ∨ ∃ caller, (start.events caller).call.Admits cell.2) := by
  obtain ⟨known, explained, disciplined⟩ := start.explained fuel schedule
  obtain ⟨published, consistent⟩ := explained.consistent
  constructor
  · intro caller operation next pending
    have here := disciplined caller
    rw [pending] at here
    exact consistent.safe here.1.1 _
  · obtain ⟨cells, contents, inside⟩ := consistent.current
    refine ⟨cells, contents, ?_⟩
    intro cell member
    have isPublished := inside cell member
    have members := contents.2.members member
    refine ⟨consistent.live isPublished, ?_⟩
    rcases consistent.origin isPublished with atStart | ⟨caller, entry, own⟩
    · rw [members] at atStart
      exact Or.inl atStart
    · have holds := consistent.own caller
      rw [own] at holds
      obtain ⟨_, isEntry, admitted⟩ := holds
      rw [members] at isEntry
      exact Or.inr ⟨caller, isEntry ▸ admitted⟩

/-- The entry a caller has put in the list, if it has. -/
def publishedRef (known : ι → Knowledge) (caller : ι) : EntryRef :=
  match (known caller).own with
  | .published ref _ => ref
  | _ => 0

theorem contents_length_le [Fintype ι] {fuel : Nat} {schedule : List ι} {cells : List Cell}
    (contents : Contents (start.after fuel schedule).shared cells) :
    cells.length ≤ start.capacity := by
  obtain ⟨known, explained, _⟩ := start.explained fuel schedule
  obtain ⟨published, consistent⟩ := explained.consistent
  obtain ⟨_, current, inside⟩ := consistent.current
  obtain rfl := contents.unique current
  have covered : (cells.map Prod.fst).toFinset ⊆
      (start.cells.map Prod.fst).toFinset ∪ Finset.univ.image (publishedRef known) := by
    intro ref member
    obtain ⟨cell, listed, rfl⟩ := List.mem_map.mp (List.mem_toFinset.mp member)
    rw [Finset.mem_union]
    rcases consistent.origin (inside cell listed) with atStart | ⟨caller, entry, own⟩
    · exact Or.inl (List.mem_toFinset.mpr (List.mem_map.mpr ⟨_, atStart, rfl⟩))
    · refine Or.inr (Finset.mem_image.mpr ⟨caller, Finset.mem_univ _, ?_⟩)
      unfold publishedRef
      rw [own]
  calc cells.length = (cells.map Prod.fst).toFinset.card := by
        rw [List.toFinset_card_of_nodup contents.nodup, List.length_map]
    _ ≤ (start.cells.map Prod.fst).toFinset.card +
          (Finset.univ.image (publishedRef known)).card :=
        (Finset.card_le_card covered).trans (Finset.card_union_le _ _)
    _ ≤ (start.cells.map Prod.fst).length + Fintype.card ι :=
        Nat.add_le_add (List.toFinset_card_le _) Finset.card_image_le
    _ = start.capacity := by rw [List.length_map]; rfl

/-! ### Answers -/

/-- No loop runs out of fuel. -/
theorem returned_code [Fintype ι] {fuel : Nat} (enough : start.capacity < fuel)
    {schedule : List ι} {caller : ι} {value : Option Int}
    (returned : (start.after fuel schedule).residual caller = .pure value) :
    ∃ code known, value = some code ∧ start.Explained fuel schedule known ∧
      Returned (start.events caller).call (start.users caller) code (known caller) := by
  obtain ⟨known, explained, disciplined⟩ := start.explained fuel schedule
  have finished := disciplined caller
  rw [returned] at finished
  cases value with
  | none =>
      have ranOut : RanOut fuel (known caller) := finished
      exfalso
      rcases ranOut.seen with zero | ⟨cells, saw, long⟩
      · omega
      · obtain ⟨before, next, isPrefix, pending, contents⟩ := explained.seen saw
        have short := start.contents_length_le contents
        omega
  | some code => exact ⟨code, known, rfl, explained, finished⟩

/-- A call that returns, among any others, has returned the code and left the
memory that the uninterrupted call gives on what the list held when the call
loaded its first entry, or on any contents at all. -/
theorem interleaved_answers [Fintype ι] {fuel : Nat} (enough : start.capacity < fuel)
    {schedule : List ι} {caller : ι} {value : Option Int}
    (returned : (start.after fuel schedule).residual caller = .pure value) :
    ∃ code, value = some code ∧
      ((∀ entries, (start.events caller).call.Answers (start.users caller) entries code
          ((start.after fuel schedule).memory caller)) ∨
        ∃ cells, start.LoadedIn fuel schedule caller cells ∧
          (start.events caller).call.Answers (start.users caller) (cells.map Prod.snd) code
            ((start.after fuel schedule).memory caller)) := by
  obtain ⟨code, known, isCode, explained, done⟩ := start.returned_code enough returned
  refine ⟨code, isCode, ?_⟩
  rw [explained.user caller]
  rcases done.answers with always | ⟨cells, saw, answers⟩
  · exact Or.inl always
  · exact Or.inr ⟨cells, explained.seen saw, answers⟩

end Start

/-- An `add_memory_limit` beside a `get_memory_limits`. -/
def addAndGet (adds : Bool) : HeapEvent :=
  if adds then ⟨.add (.quiet 7) 7 8192, .ascending⟩
  else ⟨.get (.quiet 7) 4096 1 8192, .ascending⟩

/-- The get starts while the add is inside `list_add` and ends before it
returns. -/
def getBetween : List Bool :=
  List.replicate 11 true ++ [false] ++ List.replicate 4 true ++ List.replicate 6 false

theorem interleaved_answers_of_get :
    let start := Start.boot addAndGet
    (start.after 3 getBetween).residual false = .pure (some 1) ∧
      ∃ code, some 1 = some code ∧
        ((∀ entries, (start.events false).call.Answers (start.users false) entries code
            ((start.after 3 getBetween).memory false)) ∨
          ∃ cells, start.LoadedIn 3 getBetween false cells ∧
            (start.events false).call.Answers (start.users false) (cells.map Prod.snd) code
              ((start.after 3 getBetween).memory false)) :=
  ⟨rfl, Start.interleaved_answers _ (by decide) rfl⟩

namespace Start

variable {ι : Type} (start : Start ι) [DecidableEq ι]

/-! ### What one operation does to the list -/

/-- An operation of a caller leaves the contents of the list alone, or replaces
them by an entry the caller was admitted with, in front of what the list held
when the caller's `list_add` loaded its first entry: entries that others have
added since then are gone. -/
theorem interleaved_contents_step (fuel : Nat) (past : List ι) (caller : ι) :
    (∀ cells, Contents (start.after fuel past).shared cells →
        Contents (start.after fuel (past ++ [caller])).shared cells) ∨
      ∃ ref entry behind, start.AimedIn fuel past caller behind ∧
        (start.events caller).call.Admits entry ∧
        Contents (start.after fuel (past ++ [caller])).shared ((ref, entry) :: behind) ∧
        ∀ cells, Contents (start.after fuel past).shared cells → ∀ cell ∈ cells, cell ∉ behind →
          cell.1 ∉ ((ref, entry) :: behind).map Prod.fst := by
  obtain ⟨known, explained, disciplined⟩ := start.explained fuel past
  cases pending : (start.after fuel past).residual caller with
  | pure value =>
      left
      rw [after_of_returned pending]
      exact fun _ contents => contents
  | request operation next =>
      obtain ⟨learned, acts⟩ := explained.acts disciplined pending
      obtain ⟨shared, _⟩ := after_of_pending pending
      obtain ⟨present, before⟩ := explained.consistent
      rw [shared]
      rcases acts.contents with ⟨_, kept⟩ | ⟨ref, entry, behind, _, joined, published, contents⟩
      · exact Or.inl fun _ contents => kept contents
      · have aims : (known caller).own.target = some behind := by rw [joined]; rfl
        obtain ⟨larger, consistent⟩ := acts.consistent
        have holds := consistent.own caller
        rw [Function.update_self, published] at holds
        refine Or.inr ⟨ref, entry, behind, explained.target aims, holds.2.2, contents, ?_⟩
        intro cells held cell member absent
        exact before.not_mem_published_list joined held member absent

end Start

end UsacSyscalls.Project3
