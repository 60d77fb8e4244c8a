import Mathlib.Data.Finset.Lattice.Fold
import Mathlib.Order.Lattice.Nat
import UsacSyscalls.Foundation.LinkedList
import UsacSyscalls.Kernel.Operations

/-!
Contract: the entries of the memory-limit lists as objects that point at each
other.

Owns the addresses of list heads and entries, the heap with its links, members
and allocated objects, single loads and stores as operations, the loops and
edits of `list.h` as programs over them, and the condition that every access
goes to an object that is there.

Does not own the syscalls. `list_add` and `list_del` are those of a kernel
without list debugging.
-/

set_option autoImplicit false

namespace UsacSyscalls.Kernel

open UsacSyscalls.Foundation

/-! ### Objects -/

/-- What tells one allocated entry from another. -/
abbrev EntryRef := Nat

/-- The address of a `struct list_head`: a list head, the `list` member of an
entry, or one of the two addresses `list_del` leaves behind. -/
inductive Link where
  | head (list : ListHead)
  | entry (ref : EntryRef)
  | poison1
  | poison2
deriving DecidableEq, Repr

/-- `members` holds `pid` and `memory_limit` of the entry around a `list`
member, and `live` the entries that `kmalloc` gave and `kfree` did not take
back. What stands in other objects is arbitrary. -/
structure Heap where
  links : Links Link
  members : Link → MemoryLimitationEntry
  live : Finset EntryRef

/-- A `struct list_head` stands at this address. -/
def Heap.Valid (heap : Heap) : Link → Prop
  | .head _ => True
  | .entry ref => ref ∈ heap.live
  | .poison1 => False
  | .poison2 => False

/-- An allocated entry stands around this address. -/
def Heap.Allocated (heap : Heap) (link : Link) : Prop := ∃ ref ∈ heap.live, link = .entry ref

/-! ### Operations -/

/-- Loads and stores of single members, allocation, and the operations that do
not concern the lists. -/
inductive HeapOp where
  | plain (operation : Op)
  | next (link : Link)
  | prev (link : Link)
  | setNext (link target : Link)
  | setPrev (link target : Link)
  | pid (link : Link)
  | memoryLimit (link : Link)
  | setPid (link : Link) (pid : PidT)
  | setMemoryLimit (link : Link) (memoryLimit : SizeT)
  | kmalloc
  | kfree (link : Link)

@[reducible] def HeapReply : HeapOp → Type
  | .plain operation => Reply operation
  | .next _ => Link
  | .prev _ => Link
  | .setNext _ _ => Unit
  | .setPrev _ _ => Unit
  | .pid _ => PidT
  | .memoryLimit _ => SizeT
  | .setPid _ _ => Unit
  | .setMemoryLimit _ _ => Unit
  | .kmalloc => Option Link
  | .kfree _ => Unit

abbrev HeapCall (α : Type) := Program HeapOp HeapReply α

def loadNext (link : Link) : HeapCall Link := .perform (HeapOp.next link)
def loadPrev (link : Link) : HeapCall Link := .perform (HeapOp.prev link)
def storeNext (link target : Link) : HeapCall Unit := .perform (HeapOp.setNext link target)
def storePrev (link target : Link) : HeapCall Unit := .perform (HeapOp.setPrev link target)
def entryPid (link : Link) : HeapCall PidT := .perform (HeapOp.pid link)
def entryMemoryLimit (link : Link) : HeapCall SizeT := .perform (HeapOp.memoryLimit link)
def setPid (link : Link) (pid : PidT) : HeapCall Unit := .perform (HeapOp.setPid link pid)
def setMemoryLimit (link : Link) (memoryLimit : SizeT) : HeapCall Unit :=
  .perform (HeapOp.setMemoryLimit link memoryLimit)
def kmallocEntry : HeapCall (Option Link) := .perform HeapOp.kmalloc
def kfree (link : Link) : HeapCall Unit := .perform (HeapOp.kfree link)

/-- A program that does not concern the lists. -/
def onHeap {α : Type} : Syscall α → HeapCall α
  | .pure value => .pure value
  | .request operation rest => .request (.plain operation) fun reply => onHeap (rest reply)

/-! ### `list.h` -/

/-- `list_for_each_entry` from a position on. The body leaves the loop with a
result, or goes on. No result at all means that `fuel` iterations were not
enough. -/
def listForEachEntry {σ ρ : Type} (head : Link) (body : Link → σ → HeapCall (Except ρ σ)) :
    Nat → Link → σ → HeapCall (Option (Except ρ σ))
  | 0, _, _ => pure none
  | fuel + 1, position, state =>
      if position = head then pure (some (.ok state))
      else do
        match ← body position state with
        | .error result => pure (some (.error result))
        | .ok state => do
            let following ← loadNext position
            listForEachEntry head body fuel following state

/-- `list_for_each_entry_safe`: the node after the current one is loaded before
the body runs. -/
def listForEachEntrySafe {σ ρ : Type} (head : Link) (body : Link → σ → HeapCall (Except ρ σ)) :
    Nat → Link → Link → σ → HeapCall (Option (Except ρ σ))
  | 0, _, _, _ => pure none
  | fuel + 1, position, following, state =>
      if position = head then pure (some (.ok state))
      else do
        match ← body position state with
        | .error result => pure (some (.error result))
        | .ok state => do
            let afterwards ← loadNext following
            listForEachEntrySafe head body fuel following afterwards state

def listAddLinks (new head : Link) : HeapCall Unit := do
  let first ← loadNext head
  storePrev first new
  storeNext new first
  storePrev new head
  storeNext head new

def listDel (entry : Link) : HeapCall Unit := do
  let before ← loadPrev entry
  let behind ← loadNext entry
  storePrev behind before
  storeNext before behind
  storeNext entry .poison1
  storePrev entry .poison2

/-! ### Meaning -/

/-- Where `kmalloc` puts an entry: never where one is allocated. -/
structure Placement where
  place : Finset EntryRef → EntryRef
  place_fresh : ∀ live, place live ∉ live

/-- An address above every allocated one. -/
def Placement.ascending : Placement where
  place live := live.sup id + 1
  place_fresh := by
    intro live member
    have below : live.sup id + 1 ≤ live.sup id := Finset.le_sup (f := id) member
    exact Nat.not_succ_le_self _ below

structure HeapEnvironment extends Environment, Placement

abbrev HeapState := Heap × ByteMemory

/-- The operations that neither read nor edit a list, nor allocate. -/
def Plain : Op → Prop
  | .listEntries _ => False
  | .setEntries _ _ => False
  | .listAdd _ _ => False
  | .kmalloc => False
  | _ => True

namespace Heap

def setNext (heap : Heap) (link target : Link) : Heap :=
  { heap with links := heap.links.setNext link target }

def setPrev (heap : Heap) (link target : Link) : Heap :=
  { heap with links := heap.links.setPrev link target }

def setMembers (heap : Heap) (link : Link) (members : MemoryLimitationEntry) : Heap :=
  { heap with members := Function.update heap.members link members }

def allocate (heap : Heap) (ref : EntryRef) : Heap :=
  { heap with live := insert ref heap.live }

def free (heap : Heap) : Link → Heap
  | .entry ref => { heap with live := heap.live.erase ref }
  | _ => heap

end Heap

def heapKernel (env : HeapEnvironment) : Program.Handler HeapOp HeapReply HeapState
  | .plain operation, state =>
      let answer := kernel env.toEnvironment operation (.boot state.2)
      (answer.1, state.1, answer.2.user)
  | .next link, state => (state.1.links.next link, state)
  | .prev link, state => (state.1.links.prev link, state)
  | .setNext link target, state => ((), state.1.setNext link target, state.2)
  | .setPrev link target, state => ((), state.1.setPrev link target, state.2)
  | .pid link, state => ((state.1.members link).pid, state)
  | .memoryLimit link, state => ((state.1.members link).memoryLimit, state)
  | .setPid link pid, state =>
      ((), state.1.setMembers link { state.1.members link with pid := pid }, state.2)
  | .setMemoryLimit link memoryLimit, state =>
      ((), state.1.setMembers link { state.1.members link with memoryLimit := memoryLimit },
        state.2)
  | .kmalloc, state =>
      if env.kmalloc then
        (some (.entry (env.place state.1.live)), state.1.allocate (env.place state.1.live), state.2)
      else (none, state)
  | .kfree link, state => ((), state.1.free link, state.2)

/-- The heap after `LIST_HEAD` and `LIST_HEAD_INIT`: every head points at
itself. -/
def Heap.boot : Heap where
  links := ⟨id, id⟩
  members := fun _ => ⟨0, 0⟩
  live := ∅

/-- Every access goes to an object that is there. -/
def Safe (state : HeapState) : HeapOp → Prop
  | .plain operation => Plain operation
  | .next link => state.1.Valid link
  | .prev link => state.1.Valid link
  | .setNext link _ => state.1.Valid link
  | .setPrev link _ => state.1.Valid link
  | .pid link => state.1.Allocated link
  | .memoryLimit link => state.1.Allocated link
  | .setPid link _ => state.1.Allocated link
  | .setMemoryLimit link _ => state.1.Allocated link
  | .kmalloc => True
  | .kfree link => state.1.Allocated link

theorem Heap.Allocated.valid {heap : Heap} {link : Link} (allocated : heap.Allocated link) :
    heap.Valid link := by
  obtain ⟨ref, live, rfl⟩ := allocated
  exact live

theorem Heap.Valid.allocate {heap : Heap} {link : Link} (valid : heap.Valid link) (ref : EntryRef) :
    (heap.allocate ref).Valid link := by
  cases link with
  | head list => trivial
  | entry other => exact Finset.mem_insert_of_mem valid
  | poison1 => exact valid
  | poison2 => exact valid

/-- A safe uninterrupted run with its outcome. -/
abbrev RunsSafely {α : Type} (env : HeapEnvironment) (call : HeapCall α) (state : HeapState)
    (outcome : α × HeapState) : Prop :=
  Program.Runs (heapKernel env) Safe call state outcome

section Runs

variable {env : HeapEnvironment} {state : HeapState}

theorem kernel_plain {operation : Op} (plain : Plain operation) (env : Environment)
    (user : ByteMemory) :
    (kernel env operation (.boot user)).2 =
      .boot (kernel env operation (.boot user)).2.user := by
  cases operation <;> first | rfl | exact plain.elim

/-- Programs that do not concern the lists do the same whatever the lists
hold. -/
theorem complete_of_plain {α : Type} {call : Syscall α} (within : Program.Within Plain call)
    (env : Environment) (machine : Machine) :
    complete env call machine =
      ((complete env call (.boot machine.user)).1,
        { machine with user := (complete env call (.boot machine.user)).2.user }) := by
  induction call generalizing machine with
  | pure value => rfl
  | request operation rest inductionHypothesis =>
      let answer := kernel env operation (.boot machine.user)
      have empty : answer.2 = .boot answer.2.user := kernel_plain within.1 env machine.user
      have here : kernel env operation machine =
          (answer.1, { machine with user := answer.2.user }) := by
        cases operation <;> first | rfl | exact within.1.elim
      show Program.run (kernel env) (rest (kernel env operation machine).1)
        (kernel env operation machine).2 =
          ((complete env (rest answer.1) answer.2).1,
            { machine with user := (complete env (rest answer.1) answer.2).2.user })
      have later : complete env (rest answer.1) { machine with user := answer.2.user } =
          ((complete env (rest answer.1) (.boot answer.2.user)).1,
            { machine with user := (complete env (rest answer.1) (.boot answer.2.user)).2.user }) :=
        inductionHypothesis _ (within.2 _) _
      rw [← empty] at later
      rw [here]
      exact later

/-- Programs that do not concern the lists run as they do beside the list
model. -/
theorem runs_onHeap {α : Type} {call : Syscall α} (within : Program.Within Plain call) :
    RunsSafely env (onHeap call) state
      ((complete env.toEnvironment call (.boot state.2)).1, state.1,
        (complete env.toEnvironment call (.boot state.2)).2.user) := by
  induction call generalizing state with
  | pure value => exact .pure value
  | request operation rest inductionHypothesis =>
      let answer := kernel env.toEnvironment operation (.boot state.2)
      have later : RunsSafely env (onHeap (rest answer.1)) (state.1, answer.2.user) _ :=
        inductionHypothesis answer.1 (within.2 answer.1)
      have same : answer.2 = .boot answer.2.user :=
        kernel_plain within.1 env.toEnvironment state.2
      refine ⟨⟨within.1, later.throughout⟩, ?_⟩
      show Program.run (heapKernel env) (onHeap (rest answer.1)) (state.1, answer.2.user) =
        ((complete env.toEnvironment (rest answer.1) answer.2).1, state.1,
          (complete env.toEnvironment (rest answer.1) answer.2).2.user)
      rw [same]
      exact later.outcome_eq

variable {link target : Link}

theorem runs_loadNext (valid : state.1.Valid link) :
    RunsSafely env (loadNext link) state (state.1.links.next link, state) :=
  .perform valid

theorem runs_loadPrev (valid : state.1.Valid link) :
    RunsSafely env (loadPrev link) state (state.1.links.prev link, state) :=
  .perform valid

theorem runs_storeNext (valid : state.1.Valid link) :
    RunsSafely env (storeNext link target) state ((), state.1.setNext link target, state.2) :=
  .perform valid

theorem runs_storePrev (valid : state.1.Valid link) :
    RunsSafely env (storePrev link target) state ((), state.1.setPrev link target, state.2) :=
  .perform valid

theorem runs_entryPid (allocated : state.1.Allocated link) :
    RunsSafely env (entryPid link) state ((state.1.members link).pid, state) :=
  .perform allocated

theorem runs_entryMemoryLimit (allocated : state.1.Allocated link) :
    RunsSafely env (entryMemoryLimit link) state ((state.1.members link).memoryLimit, state) :=
  .perform allocated

theorem runs_setPid (allocated : state.1.Allocated link) (pid : PidT) :
    RunsSafely env (setPid link pid) state
      ((), state.1.setMembers link { state.1.members link with pid := pid }, state.2) :=
  .perform allocated

theorem runs_setMemoryLimit (allocated : state.1.Allocated link) (memoryLimit : SizeT) :
    RunsSafely env (setMemoryLimit link memoryLimit) state
      ((), state.1.setMembers link { state.1.members link with memoryLimit := memoryLimit },
        state.2) :=
  .perform allocated

/-! ### Edits -/

theorem runs_kmallocEntry :
    RunsSafely env kmallocEntry state
      (if env.kmalloc then
        (some (.entry (env.place state.1.live)), state.1.allocate (env.place state.1.live), state.2)
      else (none, state)) :=
  .perform trivial

theorem runs_listAddLinks {new : Link} {list : ListHead} (valid : state.1.Valid new)
    (first : state.1.Valid (state.1.links.next (.head list))) :
    RunsSafely env (listAddLinks new (.head list)) state
      ((), { state.1 with links := state.1.links.insert (.head list) new }, state.2) := by
  refine .bind (runs_loadNext trivial) (.bind (runs_storePrev first) ?_)
  exact .bind (runs_storeNext valid) (.bind (runs_storePrev valid) (runs_storeNext trivial))

theorem runs_listDel {entry : Link} (valid : state.1.Valid entry)
    (before : state.1.Valid (state.1.links.prev entry))
    (behind : state.1.Valid (state.1.links.next entry)) :
    RunsSafely env (listDel entry) state
      ((), { state.1 with
        links := ((state.1.links.bypass entry).setNext entry .poison1).setPrev entry .poison2 },
        state.2) := by
  refine .bind (runs_loadPrev valid) (.bind (runs_loadNext valid) ?_)
  refine .bind (runs_storePrev behind) (.bind (runs_storeNext before) ?_)
  exact .bind (runs_storeNext valid) (runs_storePrev valid)

/-! ### One iteration of a loop -/

section Loops

variable {σ ρ : Type} {head position following : Link}
  {body : Link → σ → HeapCall (Except ρ σ)} {fuel : Nat} {carried : σ}
  {outcome : Option (Except ρ σ) × HeapState} {after : HeapState}

theorem runs_forEach_end :
    RunsSafely env (listForEachEntry head body (fuel + 1) head carried) state
      (some (.ok carried), state) := by
  unfold listForEachEntry
  rw [if_pos rfl]
  exact .pure _

theorem runs_forEach_exit {result : ρ} (inside : position ≠ head)
    (exits : RunsSafely env (body position carried) state (.error result, after)) :
    RunsSafely env (listForEachEntry head body (fuel + 1) position carried) state
      (some (.error result), after) := by
  unfold listForEachEntry
  rw [if_neg inside]
  exact .bind exits (.pure _)

theorem runs_forEach_step {kept : σ} (inside : position ≠ head)
    (continues : RunsSafely env (body position carried) state (.ok kept, after))
    (valid : after.1.Valid position)
    (rest : RunsSafely env
      (listForEachEntry head body fuel (after.1.links.next position) kept) after outcome) :
    RunsSafely env (listForEachEntry head body (fuel + 1) position carried) state outcome := by
  unfold listForEachEntry
  rw [if_neg inside]
  exact .bind continues (.bind (runs_loadNext valid) rest)

theorem runs_forEachSafe_end :
    RunsSafely env (listForEachEntrySafe head body (fuel + 1) head following carried) state
      (some (.ok carried), state) := by
  unfold listForEachEntrySafe
  rw [if_pos rfl]
  exact .pure _

theorem runs_forEachSafe_exit {result : ρ} (inside : position ≠ head)
    (exits : RunsSafely env (body position carried) state (.error result, after)) :
    RunsSafely env (listForEachEntrySafe head body (fuel + 1) position following carried) state
      (some (.error result), after) := by
  unfold listForEachEntrySafe
  rw [if_neg inside]
  exact .bind exits (.pure _)

theorem runs_forEachSafe_step {kept : σ} (inside : position ≠ head)
    (continues : RunsSafely env (body position carried) state (.ok kept, after))
    (valid : after.1.Valid following)
    (rest : RunsSafely env
      (listForEachEntrySafe head body fuel following (after.1.links.next following) kept) after
      outcome) :
    RunsSafely env (listForEachEntrySafe head body (fuel + 1) position following carried) state
      outcome := by
  unfold listForEachEntrySafe
  rw [if_neg inside]
  exact .bind continues (.bind (runs_loadNext valid) rest)

end Loops

end Runs

end UsacSyscalls.Kernel
