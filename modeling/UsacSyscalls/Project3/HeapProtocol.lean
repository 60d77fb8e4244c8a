import UsacSyscalls.Foundation.Protocol
import UsacSyscalls.Project3.HeapRefinement

/-!
Contract: what callers of the memory-limit syscalls may do to the linked lists
while other callers do the same.

Owns the contents of the shared list as cells, what a caller knows of them and
of the entry it is adding, the protocol of single loads and stores, the
invariant that ties the knowledge of all callers to the heap, and the
preservation of the invariant by every operation the protocol allows.

Does not own the calls; that they keep to the protocol is `HeapDiscipline`.
-/

set_option autoImplicit false

namespace UsacSyscalls.Project3

open UsacSyscalls.Foundation
open UsacSyscalls.Kernel

/-! ### Cells -/

/-- An entry with its address. -/
abbrev Cell := EntryRef × MemoryLimitationEntry

/-- The address at which a chain of cells begins. The last cell points back at
the head. -/
def linkOf : List Cell → Link
  | [] => .head .shared
  | cell :: _ => .entry cell.1

theorem linkOf_nil : linkOf [] = .head .shared := rfl

theorem linkOf_cons (cell : Cell) (rest : List Cell) : linkOf (cell :: rest) = .entry cell.1 := rfl

/-- The cells stand in the heap, each pointing at the one behind it. -/
def Chain (heap : Heap) : List Cell → Prop
  | [] => True
  | cell :: rest =>
      heap.members (.entry cell.1) = cell.2 ∧ heap.links.next (.entry cell.1) = linkOf rest ∧
        Chain heap rest

/-- What a walk from the head of the shared list meets. -/
def Contents (heap : Heap) (cells : List Cell) : Prop :=
  heap.links.next (.head .shared) = linkOf cells ∧ Chain heap cells

section Cells

variable {heap : Heap} {cells : List Cell}

theorem Chain.walk (chain : Chain heap cells) :
    Walk heap.links.next (.head .shared) (linkOf cells) (cells.map fun cell => .entry cell.1) := by
  induction cells with
  | nil => rfl
  | cons cell rest inductionHypothesis =>
      obtain ⟨_, next, behind⟩ := chain
      refine ⟨rfl, nofun, ?_⟩
      rw [next]
      exact inductionHypothesis behind

theorem Chain.members (chain : Chain heap cells) {cell : Cell} (member : cell ∈ cells) :
    heap.members (.entry cell.1) = cell.2 := by
  induction cells with
  | nil => exact absurd member List.not_mem_nil
  | cons first rest inductionHypothesis =>
      rcases List.mem_cons.mp member with rfl | later
      · exact chain.1
      · exact inductionHypothesis chain.2.2 later

theorem Chain.entriesAt (chain : Chain heap cells) :
    entriesAt heap (cells.map Prod.fst) = cells.map Prod.snd := by
  induction cells with
  | nil => rfl
  | cons cell rest inductionHypothesis =>
      obtain ⟨members, _, behind⟩ := chain
      have later := inductionHypothesis behind
      simp only [Project3.entriesAt, List.map_cons, List.map_map] at later ⊢
      rw [members, later]

/-- A list has one contents. -/
theorem Contents.unique {others : List Cell} (contents : Contents heap cells)
    (other : Contents heap others) : cells = others := by
  have walk := contents.2.walk
  have otherWalk := other.2.walk
  rw [← contents.1] at walk
  rw [← other.1] at otherWalk
  have links := walk.unique otherWalk
  have refs : cells.map Prod.fst = others.map Prod.fst := by
    have injective : Function.Injective Link.entry := fun _ _ => Link.entry.inj
    apply injective.list_map
    rw [List.map_map, List.map_map]
    exact links
  have entries : cells.map Prod.snd = others.map Prod.snd := by
    rw [← contents.2.entriesAt, ← other.2.entriesAt, refs]
  rw [← List.zip_unzip cells, ← List.zip_unzip others, List.unzip_eq_map, List.unzip_eq_map, refs,
    entries]

theorem Contents.nodup (contents : Contents heap cells) : (cells.map Prod.fst).Nodup := by
  have distinct := contents.2.walk.nodup
  have sameMap : cells.map (fun cell => Link.entry cell.1) = (cells.map Prod.fst).map .entry := by
    rw [List.map_map]
    rfl
  rw [sameMap] at distinct
  exact distinct.of_map

theorem chain_of_walk {refs : List EntryRef} {position : Link}
    (walk : Walk heap.links.next (.head .shared) position (refs.map .entry)) :
    position = linkOf (refs.map fun ref => (ref, heap.members (.entry ref))) ∧
      Chain heap (refs.map fun ref => (ref, heap.members (.entry ref))) := by
  induction refs generalizing position with
  | nil => exact ⟨walk, trivial⟩
  | cons ref rest inductionHypothesis =>
      obtain ⟨here, _, ahead⟩ := walk
      obtain ⟨next, behind⟩ := inductionHypothesis ahead
      exact ⟨here, rfl, next, behind⟩

end Cells

/-! ### Knowledge -/

/-- How far a caller has come with the entry it adds. `aimed` is after the load
of the first entry in `list_add`, `joined` after the store of the new entry's
`next`, and `behind` is what stood in the list at that load. -/
inductive Own where
  | nothing
  | allocated (ref : EntryRef)
  | named (ref : EntryRef) (pid : PidT)
  | filled (ref : EntryRef) (entry : MemoryLimitationEntry)
  | aimed (ref : EntryRef) (entry : MemoryLimitationEntry) (behind : List Cell)
  | joined (ref : EntryRef) (entry : MemoryLimitationEntry) (behind : List Cell)
  | published (ref : EntryRef) (entry : MemoryLimitationEntry)

namespace Own

/-- The entry that no other caller can reach yet. -/
def unpublished : Own → Option EntryRef
  | .nothing => none
  | .allocated ref => some ref
  | .named ref _ => some ref
  | .filled ref _ => some ref
  | .aimed ref _ _ => some ref
  | .joined ref _ _ => some ref
  | .published _ _ => none

/-- What stood in the list when `list_add` loaded its first entry. -/
def target : Own → Option (List Cell)
  | .aimed _ _ behind => some behind
  | .joined _ _ behind => some behind
  | _ => none

/-- The entry that the caller has made reachable. -/
def registered : Own → Option MemoryLimitationEntry
  | .published _ entry => some entry
  | _ => none

theorem registered_of_unpublished {own : Own} {ref : EntryRef} (adds : own.unpublished = some ref) :
    own.registered = none := by
  cases own with
  | published ref entry => cases adds
  | _ => rfl

def name (pid : PidT) : Own → Own
  | .allocated ref => .named ref pid
  | own => own

def fill (memoryLimit : SizeT) : Own → Own
  | .named ref pid => .filled ref ⟨pid, memoryLimit⟩
  | own => own

def join : Own → Own
  | .aimed ref entry behind => .joined ref entry behind
  | own => own

def publish : Own → Own
  | .joined ref entry _ => .published ref entry
  | own => own

end Own

/-- `ahead` are the cells from the current position of a walk on, and `seen` what
the list held when the walk began. -/
structure Knowledge where
  user : ByteMemory
  ahead : List Cell
  seen : Option (List Cell)
  own : Own

/-- The first entry of the list is loaded, for a walk or by `list_add`. -/
def Knowledge.observe (known : Knowledge) (cells : List Cell) : Knowledge :=
  match known.own with
  | .filled ref entry => { known with own := .aimed ref entry cells }
  | _ => { known with ahead := cells, seen := some cells }

/-! ### The protocol -/

/-- The next cell of the walk is the one at this address. -/
def Knowledge.At (known : Knowledge) (link : Link) : Prop :=
  ∃ cell rest, known.ahead = cell :: rest ∧ link = .entry cell.1

theorem Knowledge.not_at_poison1 {known : Knowledge} : ¬ known.At .poison1 := by
  intro here
  obtain ⟨_, _, _, absurd⟩ := here
  cases absurd

theorem Knowledge.not_at_poison2 {known : Knowledge} : ¬ known.At .poison2 := by
  intro here
  obtain ⟨_, _, _, absurd⟩ := here
  cases absurd

def allowed (admits : MemoryLimitationEntry → Prop) (known : Knowledge) : HeapOp → Prop
  | .plain operation => Plain operation
  | .next (.head _) => True
  | .next link => known.At link
  | .prev _ => False
  | .setNext (.head list) target =>
      list = .shared ∧ ∃ ref entry behind, known.own = .joined ref entry behind ∧
        target = .entry ref ∧ admits entry
  | .setNext link target =>
      ∃ ref entry behind, known.own = .aimed ref entry behind ∧ link = .entry ref ∧
        target = linkOf behind
  | .setPrev link _ =>
      (∃ ref entry behind, known.own = .aimed ref entry behind ∧ link = linkOf behind) ∨
        ∃ ref entry behind, known.own = .joined ref entry behind ∧ link = .entry ref
  | .pid link => known.At link
  | .memoryLimit link => known.At link
  | .setPid link _ => ∃ ref, known.own = .allocated ref ∧ link = .entry ref
  | .setMemoryLimit link _ => ∃ ref pid, known.own = .named ref pid ∧ link = .entry ref
  | .kmalloc => known.own = .nothing
  | .kfree _ => False

/-- Only loads from the head of the shared list tell a caller something that its
knowledge does not settle already. -/
def learns (env : HeapEnvironment) (known : Knowledge) (operation : HeapOp) :
    HeapReply operation → Knowledge → Prop :=
  match operation with
  | .plain operation => fun reply after =>
      reply = (kernel env.toEnvironment operation (.boot known.user)).1 ∧
        after = { known with
          user := (kernel env.toEnvironment operation (.boot known.user)).2.user }
  | .next (.head .shared) => fun reply after =>
      ∃ cells, reply = linkOf cells ∧ after = known.observe cells
  | .next (.head list) => fun reply after => reply = .head list ∧ after = known
  | .next _ => fun reply after =>
      reply = linkOf known.ahead.tail ∧ after = { known with ahead := known.ahead.tail }
  | .prev _ => fun _ after => after = known
  | .setNext (.head _) _ => fun _ after => after = { known with own := known.own.publish }
  | .setNext _ _ => fun _ after => after = { known with own := known.own.join }
  | .setPrev _ _ => fun _ after => after = known
  | .pid _ => fun reply after =>
      (∀ cell rest, known.ahead = cell :: rest → reply = cell.2.pid) ∧ after = known
  | .memoryLimit _ => fun reply after =>
      (∀ cell rest, known.ahead = cell :: rest → reply = cell.2.memoryLimit) ∧ after = known
  | .setPid _ pid => fun _ after => after = { known with own := known.own.name pid }
  | .setMemoryLimit _ memoryLimit => fun _ after =>
      after = { known with own := known.own.fill memoryLimit }
  | .kmalloc => fun reply after =>
      if env.kmalloc then
        ∃ ref, reply = some (.entry ref) ∧ after = { known with own := .allocated ref }
      else reply = none ∧ after = known
  | .kfree _ => fun _ after => after = known

/-- Stores of pointers. -/
def Linking : HeapOp → Prop
  | .setNext _ _ => True
  | .setPrev _ _ => True
  | _ => False

/-- `admits` are the entries the caller may put in the list. Once `list_add` has
loaded the first entry it only stores pointers. -/
def listProtocol (env : HeapEnvironment) (admits : MemoryLimitationEntry → Prop) :
    Protocol HeapOp HeapReply Knowledge where
  allowed known operation :=
    allowed admits known operation ∧ (known.own.target = none ∨ Linking operation)
  learns := learns env

/-! ### The invariant -/

/-- What a caller knows of the entry it adds is true. -/
def Own.Holds (heap : Heap) (published : Set EntryRef) (admits : MemoryLimitationEntry → Prop) :
    Own → Prop
  | .nothing => True
  | .allocated _ => True
  | .named ref pid => (heap.members (.entry ref)).pid = pid
  | .filled ref entry => heap.members (.entry ref) = entry
  | .aimed ref entry behind =>
      heap.members (.entry ref) = entry ∧ Chain heap behind ∧ ∀ cell ∈ behind, cell.1 ∈ published
  | .joined ref entry behind =>
      heap.members (.entry ref) = entry ∧ heap.links.next (.entry ref) = linkOf behind ∧
        Chain heap behind ∧ ∀ cell ∈ behind, cell.1 ∈ published
  | .published ref entry =>
      ref ∈ published ∧ heap.members (.entry ref) = entry ∧ admits entry

variable {ι : Type}

/-- `published` are the entries that stand or once stood in the list, and
`initial` what it held before any caller ran. -/
structure Consistent (admits : ι → MemoryLimitationEntry → Prop) (initial : List Cell)
    (heap : Heap) (published : Set EntryRef) (known : ι → Knowledge) : Prop where
  statics : ∀ {list}, list ≠ .shared → heap.links.next (.head list) = .head list
  live : ∀ {ref}, ref ∈ published → ref ∈ heap.live
  current : ∃ cells, Contents heap cells ∧ ∀ cell ∈ cells, cell.1 ∈ published
  chain : ∀ caller, Chain heap (known caller).ahead
  ahead : ∀ caller, ∀ cell ∈ (known caller).ahead, cell.1 ∈ published
  own : ∀ caller, (known caller).own.Holds heap published (admits caller)
  unpublished : ∀ {caller ref}, (known caller).own.unpublished = some ref →
    ref ∈ heap.live ∧ ref ∉ published
  apart : ∀ {first second ref}, (known first).own.unpublished = some ref →
    (known second).own.unpublished = some ref → first = second
  origin : ∀ {ref}, ref ∈ published → (ref, heap.members (.entry ref)) ∈ initial ∨
    ∃ caller entry, (known caller).own = .published ref entry

/-- Every entry but one, and the heads of the other lists, are as before. -/
structure Frame (heap after : Heap) (touched : Option EntryRef) : Prop where
  members : ∀ {ref}, some ref ≠ touched → after.members (.entry ref) = heap.members (.entry ref)
  next : ∀ {ref}, some ref ≠ touched →
    after.links.next (.entry ref) = heap.links.next (.entry ref)
  statics : ∀ {list}, list ≠ .shared →
    after.links.next (.head list) = heap.links.next (.head list)
  live : heap.live ⊆ after.live

section Frames

variable {heap after : Heap} {touched : Option EntryRef} {cells : List Cell}

theorem Frame.refl (heap : Heap) : Frame heap heap none :=
  ⟨fun _ => rfl, fun _ => rfl, fun _ => rfl, Finset.Subset.refl _⟩

theorem Frame.weaken (frame : Frame heap after none) (touched : Option EntryRef) :
    Frame heap after touched :=
  ⟨fun _ => frame.members nofun, fun _ => frame.next nofun, frame.statics, frame.live⟩

theorem Frame.chain (frame : Frame heap after touched) (chain : Chain heap cells)
    (untouched : ∀ cell ∈ cells, some cell.1 ≠ touched) : Chain after cells := by
  induction cells with
  | nil => trivial
  | cons cell rest inductionHypothesis =>
      obtain ⟨members, next, behind⟩ := chain
      have here := untouched cell List.mem_cons_self
      refine ⟨(frame.members here).trans members, (frame.next here).trans next, ?_⟩
      apply inductionHypothesis behind
      intro other member
      exact untouched other (List.mem_cons_of_mem _ member)

theorem Frame.own {published larger : Set EntryRef} {admits : MemoryLimitationEntry → Prop}
    {own : Own} (frame : Frame heap after touched) (holds : own.Holds heap published admits)
    (unshared : ∀ {ref}, own.unpublished = some ref → some ref ≠ touched)
    (publicOnes : ∀ {ref}, ref ∈ published → some ref ≠ touched) (grows : published ⊆ larger) :
    own.Holds after larger admits := by
  cases own with
  | nothing => trivial
  | allocated ref => trivial
  | named ref pid =>
      show (after.members (.entry ref)).pid = pid
      rw [frame.members (unshared rfl)]
      exact holds
  | filled ref entry => exact (frame.members (unshared rfl)).trans holds
  | aimed ref entry behind =>
      obtain ⟨members, chain, inside⟩ := holds
      exact ⟨(frame.members (unshared rfl)).trans members,
        frame.chain chain fun cell member => publicOnes (inside cell member),
        fun cell member => grows (inside cell member)⟩
  | joined ref entry behind =>
      obtain ⟨members, next, chain, inside⟩ := holds
      exact ⟨(frame.members (unshared rfl)).trans members, (frame.next (unshared rfl)).trans next,
        frame.chain chain fun cell member => publicOnes (inside cell member),
        fun cell member => grows (inside cell member)⟩
  | published ref entry =>
      obtain ⟨inside, members, admitted⟩ := holds
      exact ⟨grows inside, (frame.members (publicOnes inside)).trans members, admitted⟩

end Frames

/-! ### One operation -/

section Steps

variable [DecidableEq ι] {admits : ι → MemoryLimitationEntry → Prop} {initial : List Cell}
  {heap after : Heap} {published larger : Set EntryRef} {known : ι → Knowledge} {caller : ι}
  {touched : Option EntryRef} {learned : Knowledge}

/-- No other caller adds this entry. -/
def Mine (known : ι → Knowledge) (caller : ι) (ref : EntryRef) : Prop :=
  ∀ other, other ≠ caller → (known other).own.unpublished ≠ some ref

/-- What the acting caller has to re-establish. The rest of the invariant is
framed. -/
structure Reestablished (admits : MemoryLimitationEntry → Prop) (known : ι → Knowledge)
    (caller : ι) (after : Heap) (published larger : Set EntryRef) (learned : Knowledge) :
    Prop where
  grows : published ⊆ larger
  added : ∀ {ref}, ref ∈ larger → ref ∈ published ∨
    (∃ entry, learned.own = .published ref entry) ∧ ref ∈ after.live ∧ Mine known caller ref
  kept : ∀ {ref entry}, (known caller).own = .published ref entry →
    learned.own = .published ref entry
  current : ∃ cells, Contents after cells ∧ ∀ cell ∈ cells, cell.1 ∈ larger
  chain : Chain after learned.ahead
  ahead : ∀ cell ∈ learned.ahead, cell.1 ∈ larger
  own : learned.own.Holds after larger admits
  unpublished : ∀ {ref}, learned.own.unpublished = some ref →
    ref ∈ after.live ∧ ref ∉ larger ∧ Mine known caller ref

theorem Consistent.step (consistent : Consistent admits initial heap published known)
    (frame : Frame heap after touched)
    (mine : ∀ {ref}, some ref = touched → ref ∉ published ∧ Mine known caller ref)
    (here : Reestablished (admits caller) known caller after published larger learned) :
    Consistent admits initial after larger (Function.update known caller learned) := by
  have publicOnes : ∀ {ref}, ref ∈ published → some ref ≠ touched :=
    fun inside same => (mine same).1 inside
  have others : ∀ {other ref}, other ≠ caller → (known other).own.unpublished = some ref →
      some ref ≠ touched :=
    fun different adds same => (mine same).2 _ different adds
  constructor
  case statics =>
    intro list different
    rw [frame.statics different]
    exact consistent.statics different
  case live =>
    intro ref inside
    rcases here.added inside with before | ⟨_, live, _⟩
    · exact frame.live (consistent.live before)
    · exact live
  case current => exact here.current
  case chain =>
    intro other
    by_cases same : other = caller
    · subst same
      rw [Function.update_self]
      exact here.chain
    · rw [Function.update_of_ne same]
      exact frame.chain (consistent.chain other)
        fun cell member => publicOnes (consistent.ahead other cell member)
  case ahead =>
    intro other
    by_cases same : other = caller
    · subst same
      rw [Function.update_self]
      exact here.ahead
    · rw [Function.update_of_ne same]
      exact fun cell member => here.grows (consistent.ahead other cell member)
  case own =>
    intro other
    by_cases same : other = caller
    · subst same
      rw [Function.update_self]
      exact here.own
    · rw [Function.update_of_ne same]
      exact frame.own (consistent.own other) (others same) publicOnes here.grows
  case unpublished =>
    intro other ref adds
    by_cases same : other = caller
    · subst same
      rw [Function.update_self] at adds
      exact ⟨(here.unpublished adds).1, (here.unpublished adds).2.1⟩
    · rw [Function.update_of_ne same] at adds
      obtain ⟨live, outside⟩ := consistent.unpublished adds
      refine ⟨frame.live live, ?_⟩
      intro inside
      rcases here.added inside with before | ⟨_, _, ours⟩
      · exact outside before
      · exact ours other same adds
  case apart =>
    intro first second ref firstAdds secondAdds
    by_cases firstIs : first = caller
    · by_cases secondIs : second = caller
      · rw [firstIs, secondIs]
      · rw [Function.update_of_ne secondIs] at secondAdds
        rw [firstIs, Function.update_self] at firstAdds
        exact absurd secondAdds ((here.unpublished firstAdds).2.2 second secondIs)
    · rw [Function.update_of_ne firstIs] at firstAdds
      by_cases secondIs : second = caller
      · rw [secondIs, Function.update_self] at secondAdds
        exact absurd firstAdds ((here.unpublished secondAdds).2.2 first firstIs)
      · rw [Function.update_of_ne secondIs] at secondAdds
        exact consistent.apart firstAdds secondAdds
  case origin =>
    intro ref inside
    rcases here.added inside with before | ⟨⟨entry, published⟩, _, _⟩
    · rcases consistent.origin before with atStart | ⟨other, entry, published⟩
      · rw [frame.members (publicOnes before)]
        exact Or.inl atStart
      · by_cases same : other = caller
        · subst same
          exact Or.inr ⟨other, entry, by rw [Function.update_self]; exact here.kept published⟩
        · exact Or.inr ⟨other, entry, by rw [Function.update_of_ne same]; exact published⟩
    · exact Or.inr ⟨caller, entry, by rw [Function.update_self]; exact published⟩

omit [DecidableEq ι] in
theorem Consistent.mine (consistent : Consistent admits initial heap published known)
    {ref : EntryRef} (adds : (known caller).own.unpublished = some ref) :
    ref ∉ published ∧ Mine known caller ref :=
  ⟨(consistent.unpublished adds).2,
    fun _ different otherAdds => different (consistent.apart otherAdds adds)⟩

omit [DecidableEq ι] in
/-- The contents of the list do not depend on entries that were never in it. -/
theorem Consistent.contents (consistent : Consistent admits initial heap published known)
    (frame : Frame heap after touched)
    (head : after.links.next (.head .shared) = heap.links.next (.head .shared))
    (outside : ∀ {ref}, some ref = touched → ref ∉ published) {cells : List Cell}
    (contents : Contents heap cells) : Contents after cells := by
  obtain ⟨held, holds, inside⟩ := consistent.current
  obtain rfl := contents.unique holds
  refine ⟨head.trans contents.1, frame.chain contents.2 ?_⟩
  intro cell member same
  exact outside same (inside cell member)

omit [DecidableEq ι] in
/-- Entries of the list that were not there when `list_add` loaded the first one
are not behind the new entry either. -/
theorem Consistent.not_mem_published_list
    (consistent : Consistent admits initial heap published known) {ref : EntryRef}
    {entry : MemoryLimitationEntry} {behind cells : List Cell} {cell : Cell}
    (joined : (known caller).own = .joined ref entry behind) (contents : Contents heap cells)
    (member : cell ∈ cells) (absent : cell ∉ behind) :
    cell.1 ∉ ((ref, entry) :: behind).map Prod.fst := by
  have adds : (known caller).own.unpublished = some ref := by rw [joined]; rfl
  have holds := consistent.own caller
  rw [joined] at holds
  obtain ⟨_, current, inside⟩ := consistent.current
  obtain rfl := contents.unique current
  intro listed
  rcases List.mem_cons.mp listed with isNew | older
  · have isPublished := inside cell member
    rw [isNew] at isPublished
    exact (consistent.mine adds).1 isPublished
  · obtain ⟨other, otherMember, sameRef⟩ := List.mem_map.mp older
    have members := contents.2.members member
    have otherMembers := holds.2.2.1.members otherMember
    rw [sameRef, members] at otherMembers
    exact absent (Prod.ext sameRef otherMembers.symm ▸ otherMember)

/-- The contents are as before, or the caller has put its entry in front of what
stood in the list when `list_add` loaded the first entry. -/
def Publishes (operation : HeapOp) (heap after : Heap) (own learned : Own) : Prop :=
  (learned.registered = own.registered ∧ ∀ {cells}, Contents heap cells → Contents after cells) ∨
    ∃ ref entry behind, operation = .setNext (.head .shared) (.entry ref) ∧
      own = .joined ref entry behind ∧ learned = .published ref entry ∧
      Contents after ((ref, entry) :: behind)

/-- The operation loads the first entry of a list that holds `cells`. -/
def Loads (heap : Heap) (operation : HeapOp) (cells : List Cell) : Prop :=
  operation = .next (.head .shared) ∧ Contents heap cells

/-- What one allowed operation comes to. -/
structure Acts (env : HeapEnvironment) (admits : ι → MemoryLimitationEntry → Prop)
    (initial : List Cell) (heap : Heap) (known : ι → Knowledge) (caller : ι)
    (operation : HeapOp) (outcome : HeapReply operation × HeapState) (learned : Knowledge) :
    Prop where
  learns : learns env (known caller) operation outcome.1 learned
  user : outcome.2.2 = learned.user
  seen : ∀ {cells}, learned.seen = some cells →
    (known caller).seen = some cells ∨ Loads heap operation cells
  target : ∀ {cells}, learned.own.target = some cells →
    (known caller).own.target = some cells ∨ Loads heap operation cells
  contents : Publishes operation heap outcome.2.1 (known caller).own learned.own
  consistent : ∃ larger,
    Consistent admits initial outcome.2.1 larger (Function.update known caller learned)

variable {env : HeapEnvironment} {operation : HeapOp}
  {outcome : HeapReply operation × HeapState}

/-- Operations that write nothing a walk reads, and leave the caller's own entry
alone. -/
theorem Consistent.acts_quiet (consistent : Consistent admits initial heap published known)
    (learned : Knowledge) (learns : learns env (known caller) operation outcome.1 learned)
    (user : outcome.2.2 = learned.user) (frame : Frame heap outcome.2.1 none)
    (head : outcome.2.1.links.next (.head .shared) = heap.links.next (.head .shared))
    (sameOwn : learned.own = (known caller).own) (chain : Chain heap learned.ahead)
    (ahead : ∀ cell ∈ learned.ahead, cell.1 ∈ published)
    (seen : ∀ {cells}, learned.seen = some cells →
      (known caller).seen = some cells ∨ Loads heap operation cells) :
    Acts env admits initial heap known caller operation outcome learned := by
  obtain ⟨cells, contents, inside⟩ := consistent.current
  have keeps : ∀ {cells}, Contents heap cells → Contents outcome.2.1 cells :=
    consistent.contents frame head nofun
  have sameEntry := congrArg Own.registered sameOwn
  refine ⟨learns, user, seen, ?_, Or.inl ⟨sameEntry, keeps⟩, published, ?_⟩
  · rw [sameOwn]
    exact Or.inl
  · refine consistent.step frame nofun ⟨fun _ => id, Or.inl, ?_, ⟨cells, keeps contents, inside⟩,
      frame.chain chain fun _ _ => nofun, ahead, ?_, ?_⟩
    · rw [sameOwn]
      exact id
    · rw [sameOwn]
      exact frame.own (consistent.own caller) (fun _ => nofun) (fun _ => nofun) fun _ => id
    · rw [sameOwn]
      intro ref adds
      exact ⟨frame.live (consistent.unpublished adds).1, consistent.mine adds⟩

/-- Operations on the entry that the caller adds. -/
theorem Consistent.acts_own (consistent : Consistent admits initial heap published known)
    {ref : EntryRef} (adds : (known caller).own.unpublished = some ref) (own : Own)
    (learns : learns env (known caller) operation outcome.1 { known caller with own := own })
    (user : outcome.2.2 = (known caller).user) (frame : Frame heap outcome.2.1 (some ref))
    (head : outcome.2.1.links.next (.head .shared) = heap.links.next (.head .shared))
    (stillAdds : own.unpublished = some ref)
    (holds : own.Holds outcome.2.1 published (admits caller))
    (target : ∀ {cells}, own.target = some cells →
      (known caller).own.target = some cells ∨ Loads heap operation cells) :
    Acts env admits initial heap known caller operation outcome
      { known caller with own := own } := by
  have mine := consistent.mine adds
  have outside : ∀ {other}, some other = some ref → other ∉ published := by
    rintro other ⟨rfl⟩
    exact mine.1
  obtain ⟨cells, contents, inside⟩ := consistent.current
  have keeps : ∀ {cells}, Contents heap cells → Contents outcome.2.1 cells :=
    consistent.contents frame head outside
  have sameEntry : own.registered = (known caller).own.registered := by
    rw [Own.registered_of_unpublished adds, Own.registered_of_unpublished stillAdds]
  refine ⟨learns, user, Or.inl, target, Or.inl ⟨sameEntry, keeps⟩, published, ?_⟩
  refine consistent.step frame ?_ ⟨fun _ => id, Or.inl, ?_, ⟨cells, keeps contents, inside⟩, ?_,
    consistent.ahead caller, holds, ?_⟩
  · rintro other ⟨rfl⟩
    exact mine
  · intro other entry isPublished
    rw [isPublished] at adds
    cases adds
  · exact frame.chain (consistent.chain caller)
      fun cell member same => outside same (consistent.ahead caller cell member)
  · intro other still
    obtain rfl := Option.some.inj (stillAdds.symm.trans still)
    exact ⟨frame.live (consistent.unpublished adds).1, mine⟩

/-- `kmalloc` gives an entry that nobody knows. -/
theorem Consistent.acts_kmalloc (consistent : Consistent admits initial heap published known)
    (nothing : (known caller).own = .nothing) (allocates : env.kmalloc = true) {user : ByteMemory}
    (same : user = (known caller).user) :
    Acts env admits initial heap known caller .kmalloc (heapKernel env .kmalloc (heap, user))
      { known caller with own := .allocated (env.place heap.live) } := by
  have outcome : heapKernel env .kmalloc (heap, user) =
      (some (.entry (env.place heap.live)), heap.allocate (env.place heap.live), user) :=
    if_pos allocates
  have fresh := env.place_fresh heap.live
  have frame : Frame heap (heap.allocate (env.place heap.live)) none :=
    ⟨fun _ => rfl, fun _ => rfl, fun _ => rfl, Finset.subset_insert _ _⟩
  have unknown : ∀ other, (known other).own.unpublished ≠ some (env.place heap.live) :=
    fun other adds => fresh (consistent.unpublished adds).1
  obtain ⟨cells, contents, inside⟩ := consistent.current
  have keeps : ∀ {cells}, Contents heap cells →
      Contents (heap.allocate (env.place heap.live)) cells :=
    consistent.contents frame rfl nofun
  have sameEntry : (Own.allocated (env.place heap.live)).registered =
      (known caller).own.registered := by
    rw [nothing]
    rfl
  rw [outcome]
  refine ⟨?_, same, Or.inl, nofun, Or.inl ⟨sameEntry, keeps⟩, published, ?_⟩
  · exact (if_pos allocates).mpr ⟨_, rfl, rfl⟩
  · refine consistent.step frame nofun ⟨fun _ => id, Or.inl, ?_, ⟨cells, keeps contents, inside⟩,
      frame.chain (consistent.chain caller) fun _ _ => nofun, consistent.ahead caller, trivial, ?_⟩
    · intro ref entry isPublished
      rw [nothing] at isPublished
      cases isPublished
    · rintro ref ⟨rfl⟩
      exact ⟨Finset.mem_insert_self _ _, fun inside => fresh (consistent.live inside),
        fun other _ => unknown other⟩

/-- The last store of `list_add` makes the new entry reachable. -/
theorem Consistent.acts_publish (consistent : Consistent admits initial heap published known)
    {ref : EntryRef} {entry : MemoryLimitationEntry} {behind : List Cell}
    (joined : (known caller).own = .joined ref entry behind) (admitted : admits caller entry)
    {user : ByteMemory} (same : user = (known caller).user) :
    Acts env admits initial heap known caller (.setNext (.head .shared) (.entry ref))
      (heapKernel env (.setNext (.head .shared) (.entry ref)) (heap, user))
      { known caller with own := .published ref entry } := by
  let after := heap.setNext (.head .shared) (.entry ref)
  have adds : (known caller).own.unpublished = some ref := by rw [joined]; rfl
  have holds := consistent.own caller
  rw [joined] at holds
  obtain ⟨members, next, chain, inside⟩ := holds
  have frame : Frame heap after none := by
    refine ⟨fun _ => rfl, fun _ => ?_, fun different => ?_, Finset.Subset.refl _⟩
    · simp [after, Heap.setNext]
    · simp [after, Heap.setNext, different]
  have contents : Contents after ((ref, entry) :: behind) :=
    ⟨by simp [after, Heap.setNext, linkOf], members, (frame.next nofun).trans next,
      frame.chain chain fun _ _ => nofun⟩
  have mine := consistent.mine adds
  refine ⟨?_, same, Or.inl, nofun, Or.inr ⟨ref, entry, behind, rfl, joined, rfl, contents⟩,
    insert ref published, ?_⟩
  · show _ = { known caller with own := (known caller).own.publish }
    rw [joined]
    rfl
  · refine consistent.step frame nofun ⟨fun _ => Or.inr, ?_, ?_,
      ⟨_, contents, ?_⟩, frame.chain (consistent.chain caller) fun _ _ => nofun, ?_, ?_, nofun⟩
    · rintro other (rfl | before)
      · exact Or.inr ⟨⟨entry, rfl⟩, (consistent.unpublished adds).1, mine.2⟩
      · exact Or.inl before
    · intro other otherEntry isPublished
      rw [joined] at isPublished
      cases isPublished
    · intro cell member
      rcases List.mem_cons.mp member with rfl | later
      · exact Or.inl rfl
      · exact Or.inr (inside cell later)
    · exact fun cell member => Or.inr (consistent.ahead caller cell member)
    · exact ⟨Or.inl rfl, members, admitted⟩

/-- Stores to members or `next` of one entry. -/
theorem Frame.setMembers (heap : Heap) (ref : EntryRef) (members : MemoryLimitationEntry) :
    Frame heap (heap.setMembers (.entry ref) members) (some ref) := by
  refine ⟨fun different => ?_, fun _ => rfl, fun _ => rfl, Finset.Subset.refl _⟩
  apply Function.update_of_ne
  rintro ⟨rfl⟩
  exact different rfl

theorem Frame.setNext (heap : Heap) (ref : EntryRef) (target : Link) :
    Frame heap (heap.setNext (.entry ref) target) (some ref) := by
  refine ⟨fun _ => rfl, fun different => ?_, fun _ => ?_, Finset.Subset.refl _⟩
  · apply Links.setNext_next_of_ne
    rintro ⟨rfl⟩
    exact different rfl
  · exact Links.setNext_next_of_ne nofun

theorem Knowledge.observe_of_ne_filled {known : Knowledge}
    (different : ∀ ref entry, known.own ≠ .filled ref entry) (cells : List Cell) :
    known.observe cells = { known with ahead := cells, seen := some cells } := by
  unfold Knowledge.observe
  split
  · next ref entry filled => exact absurd filled (different ref entry)
  · rfl

/-! ### Operation by operation -/

section Operations

variable {user : ByteMemory} (consistent : Consistent admits initial heap published known)
  (same : user = (known caller).user)

include consistent same

theorem Consistent.acts_plain (operation : Op) :
    ∃ learned, Acts env admits initial heap known caller (.plain operation)
      (heapKernel env (.plain operation) (heap, user)) learned := by
  subst same
  exact ⟨_, consistent.acts_quiet
    { known caller with
      user := (kernel env.toEnvironment operation (.boot (known caller).user)).2.user }
    ⟨rfl, rfl⟩ rfl (.refl heap) rfl rfl (consistent.chain caller) (consistent.ahead caller) Or.inl⟩

/-- The load that begins a walk, or that `list_add` makes. -/
theorem Consistent.acts_load_shared :
    ∃ learned, Acts env admits initial heap known caller (.next (.head .shared))
      (heapKernel env (.next (.head .shared)) (heap, user)) learned := by
  obtain ⟨cells, contents, inside⟩ := consistent.current
  by_cases filled : ∃ ref entry, (known caller).own = .filled ref entry
  · obtain ⟨ref, entry, filled⟩ := filled
    have own := consistent.own caller
    rw [filled] at own
    have adds : (known caller).own.unpublished = some ref := by rw [filled]; rfl
    have observed : (known caller).observe cells =
        { known caller with own := .aimed ref entry cells } := by
      unfold Knowledge.observe
      rw [filled]
    have loaded : ∀ {others}, (Own.aimed ref entry cells).target = some others →
        (known caller).own.target = some others ∨ Loads heap (.next (.head .shared)) others := by
      intro others isTarget
      obtain rfl := Option.some.inj isTarget
      exact Or.inr ⟨rfl, contents⟩
    exact ⟨_, consistent.acts_own adds (.aimed ref entry cells)
      ⟨cells, contents.1, observed.symm⟩ same ((Frame.refl heap).weaken _) rfl rfl
      ⟨own, contents.2, inside⟩ loaded⟩
  · have observed := Knowledge.observe_of_ne_filled
      (fun ref entry isFilled => filled ⟨ref, entry, isFilled⟩) cells
    have saw : ∀ {others}, some cells = some others →
        (known caller).seen = some others ∨ Loads heap (.next (.head .shared)) others := by
      intro others isSeen
      obtain rfl := Option.some.inj isSeen
      exact Or.inr ⟨rfl, contents⟩
    exact ⟨_, consistent.acts_quiet { known caller with ahead := cells, seen := some cells }
      ⟨cells, contents.1, observed.symm⟩ same (.refl heap) rfl rfl contents.2 inside saw⟩

theorem Consistent.acts_load_static {list : ListHead} (static : list ≠ .shared) :
    ∃ learned, Acts env admits initial heap known caller (.next (.head list))
      (heapKernel env (.next (.head list)) (heap, user)) learned := by
  have learnsIt : learns env (known caller) (.next (.head list)) (heap.links.next (.head list))
      (known caller) := by
    rw [consistent.statics static]
    cases list with
    | shared => exact absurd rfl static
    | updateStatic => exact ⟨rfl, rfl⟩
    | removeStatic => exact ⟨rfl, rfl⟩
  exact ⟨_, consistent.acts_quiet (known caller) learnsIt same (.refl heap) rfl rfl
    (consistent.chain caller) (consistent.ahead caller) Or.inl⟩

theorem Consistent.acts_load_entry {ref : EntryRef} (here : (known caller).At (.entry ref)) :
    ∃ learned, Acts env admits initial heap known caller (.next (.entry ref))
      (heapKernel env (.next (.entry ref)) (heap, user)) learned := by
  obtain ⟨cell, rest, walking, isCell⟩ := here
  obtain rfl := Link.entry.inj isCell
  have chain := consistent.chain caller
  have ahead := consistent.ahead caller
  rw [walking] at chain ahead
  have learnsIt : learns env (known caller) (.next (.entry cell.1))
      (heap.links.next (.entry cell.1)) { known caller with ahead := rest } := by
    constructor
    · rw [walking]
      exact chain.2.1
    · rw [walking]
      rfl
  exact ⟨_, consistent.acts_quiet { known caller with ahead := rest } learnsIt same (.refl heap)
    rfl rfl chain.2.2 (fun other member => ahead other (List.mem_cons_of_mem _ member)) Or.inl⟩

/-- The store of the new entry's `next`. -/
theorem Consistent.acts_join {ref : EntryRef} {entry : MemoryLimitationEntry} {behind : List Cell}
    (aimed : (known caller).own = .aimed ref entry behind) :
    ∃ learned, Acts env admits initial heap known caller (.setNext (.entry ref) (linkOf behind))
      (heapKernel env (.setNext (.entry ref) (linkOf behind)) (heap, user)) learned := by
  have own := consistent.own caller
  rw [aimed] at own
  obtain ⟨members, chainBehind, inside⟩ := own
  have adds : (known caller).own.unpublished = some ref := by rw [aimed]; rfl
  have outside : ∀ cell ∈ behind, some cell.1 ≠ some ref := by
    intro cell member isRef
    have listed := inside cell member
    rw [Option.some.inj isRef] at listed
    exact (consistent.mine adds).1 listed
  have frame := Frame.setNext heap ref (linkOf behind)
  have learnsIt : { known caller with own := .joined ref entry behind } =
      { known caller with own := (known caller).own.join } := by
    rw [aimed]
    rfl
  have kept : ∀ {cells}, (Own.joined ref entry behind).target = some cells →
      (known caller).own.target = some cells ∨
        Loads heap (.setNext (.entry ref) (linkOf behind)) cells := by
    intro cells isTarget
    rw [aimed]
    exact Or.inl isTarget
  have headKept : (heap.setNext (.entry ref) (linkOf behind)).links.next (.head .shared) =
      heap.links.next (.head .shared) := by
    simp [Heap.setNext]
  exact ⟨_, consistent.acts_own adds (.joined ref entry behind) learnsIt same frame headKept rfl
    ⟨members, Links.setNext_next_self, frame.chain chainBehind outside, inside⟩ kept⟩

theorem Consistent.acts_setPrev (link target : Link) :
    ∃ learned, Acts env admits initial heap known caller (.setPrev link target)
      (heapKernel env (.setPrev link target) (heap, user)) learned := by
  have frame : Frame heap (heap.setPrev link target) none :=
    ⟨fun _ => rfl, fun _ => rfl, fun _ => rfl, Finset.Subset.refl _⟩
  exact ⟨_, consistent.acts_quiet (known caller) rfl same frame rfl rfl (consistent.chain caller)
    (consistent.ahead caller) Or.inl⟩

omit [DecidableEq ι] same in
/-- The members of the next cell of the walk. -/
theorem Consistent.members_at {link : Link} (here : (known caller).At link) {cell : Cell}
    {rest : List Cell} (walking : (known caller).ahead = cell :: rest) :
    heap.members link = cell.2 := by
  obtain ⟨other, otherRest, otherWalking, rfl⟩ := here
  have chain := consistent.chain caller
  rw [walking] at chain otherWalking
  obtain ⟨rfl, _⟩ := List.cons.inj otherWalking
  exact chain.1

theorem Consistent.acts_pid {link : Link} (here : (known caller).At link) :
    ∃ learned, Acts env admits initial heap known caller (.pid link)
      (heapKernel env (.pid link) (heap, user)) learned := by
  have learnsIt : learns env (known caller) (.pid link) (heap.members link).pid (known caller) := by
    constructor
    · intro cell rest walking
      rw [consistent.members_at here walking]
    · rfl
  exact ⟨_, consistent.acts_quiet (known caller) learnsIt same (.refl heap) rfl rfl
    (consistent.chain caller) (consistent.ahead caller) Or.inl⟩

theorem Consistent.acts_memoryLimit {link : Link} (here : (known caller).At link) :
    ∃ learned, Acts env admits initial heap known caller (.memoryLimit link)
      (heapKernel env (.memoryLimit link) (heap, user)) learned := by
  have learnsIt : learns env (known caller) (.memoryLimit link) (heap.members link).memoryLimit
      (known caller) := by
    constructor
    · intro cell rest walking
      rw [consistent.members_at here walking]
    · rfl
  exact ⟨_, consistent.acts_quiet (known caller) learnsIt same (.refl heap) rfl rfl
    (consistent.chain caller) (consistent.ahead caller) Or.inl⟩

theorem Consistent.acts_setPid {ref : EntryRef} (allocated : (known caller).own = .allocated ref)
    (pid : PidT) :
    ∃ learned, Acts env admits initial heap known caller (.setPid (.entry ref) pid)
      (heapKernel env (.setPid (.entry ref) pid) (heap, user)) learned := by
  have adds : (known caller).own.unpublished = some ref := by rw [allocated]; rfl
  have learnsIt : { known caller with own := .named ref pid } =
      { known caller with own := (known caller).own.name pid } := by
    rw [allocated]
    rfl
  have holds : ((heap.setMembers (.entry ref)
      { heap.members (.entry ref) with pid := pid }).members (.entry ref)).pid = pid := by
    simp [Heap.setMembers]
  exact ⟨_, consistent.acts_own adds (.named ref pid) learnsIt same (Frame.setMembers heap ref _)
    rfl rfl holds (fun absent => by cases absent)⟩

theorem Consistent.acts_setMemoryLimit {ref : EntryRef} {pid : PidT}
    (named : (known caller).own = .named ref pid) (memoryLimit : SizeT) :
    ∃ learned, Acts env admits initial heap known caller (.setMemoryLimit (.entry ref) memoryLimit)
      (heapKernel env (.setMemoryLimit (.entry ref) memoryLimit) (heap, user)) learned := by
  have adds : (known caller).own.unpublished = some ref := by rw [named]; rfl
  have learnsIt : { known caller with own := .filled ref ⟨pid, memoryLimit⟩ } =
      { known caller with own := (known caller).own.fill memoryLimit } := by
    rw [named]
    rfl
  have hasPid : (heap.members (.entry ref)).pid = pid := by
    have own := consistent.own caller
    rw [named] at own
    exact own
  have holds : (heap.setMembers (.entry ref)
      { heap.members (.entry ref) with memoryLimit := memoryLimit }).members (.entry ref) =
        ⟨pid, memoryLimit⟩ := by
    simp [Heap.setMembers, hasPid]
  exact ⟨_, consistent.acts_own adds (.filled ref ⟨pid, memoryLimit⟩) learnsIt same
    (Frame.setMembers heap ref _) rfl rfl holds (fun absent => by cases absent)⟩

theorem Consistent.acts_kmalloc_either (nothing : (known caller).own = .nothing) :
    ∃ learned, Acts env admits initial heap known caller .kmalloc
      (heapKernel env .kmalloc (heap, user)) learned := by
  by_cases allocates : env.kmalloc = true
  · exact ⟨_, consistent.acts_kmalloc nothing allocates same⟩
  · have refused : heapKernel env .kmalloc (heap, user) = (none, heap, user) := if_neg allocates
    have learnsIt : learns env (known caller) .kmalloc none (known caller) :=
      (if_neg allocates).mpr ⟨rfl, rfl⟩
    rw [refused]
    exact ⟨_, consistent.acts_quiet (known caller) learnsIt same (.refl heap) rfl rfl
      (consistent.chain caller) (consistent.ahead caller) Or.inl⟩

/-- Every operation that the protocol allows tells the caller something true and
keeps what all callers know true. -/
theorem Consistent.acts (may : allowed (admits caller) (known caller) operation) :
    ∃ learned, Acts env admits initial heap known caller operation
      (heapKernel env operation (heap, user)) learned := by
  cases operation with
  | plain operation => exact consistent.acts_plain same operation
  | next link =>
      cases link with
      | head list =>
          by_cases shared : list = .shared
          · subst shared
            exact consistent.acts_load_shared same
          · exact consistent.acts_load_static same shared
      | entry ref => exact consistent.acts_load_entry same may
      | poison1 => exact absurd may Knowledge.not_at_poison1
      | poison2 => exact absurd may Knowledge.not_at_poison2
  | prev link => exact may.elim
  | setNext link target =>
      cases link with
      | head list =>
          obtain ⟨rfl, ref, entry, behind, joined, rfl, admitted⟩ := may
          exact ⟨_, consistent.acts_publish joined admitted same⟩
      | entry ref =>
          obtain ⟨ref, entry, behind, aimed, here, rfl⟩ := may
          obtain rfl := Link.entry.inj here
          exact consistent.acts_join same aimed
      | poison1 =>
          obtain ⟨_, _, _, _, here, _⟩ := may
          cases here
      | poison2 =>
          obtain ⟨_, _, _, _, here, _⟩ := may
          cases here
  | setPrev link target => exact consistent.acts_setPrev same link target
  | pid link => exact consistent.acts_pid same may
  | memoryLimit link => exact consistent.acts_memoryLimit same may
  | setPid link pid =>
      obtain ⟨ref, allocated, rfl⟩ := may
      exact consistent.acts_setPid same allocated pid
  | setMemoryLimit link memoryLimit =>
      obtain ⟨ref, pid, named, rfl⟩ := may
      exact consistent.acts_setMemoryLimit same named memoryLimit
  | kmalloc => exact consistent.acts_kmalloc_either same may
  | kfree link => exact may.elim

end Operations

omit [DecidableEq ι] in
/-- Allowed operations only touch objects that are there. -/
theorem Consistent.safe (consistent : Consistent admits initial heap published known)
    (may : allowed (admits caller) (known caller) operation) (user : ByteMemory) :
    Safe (heap, user) operation := by
  have listed : ∀ {link}, (known caller).At link → heap.Allocated link := by
    rintro link ⟨cell, rest, walking, rfl⟩
    have member : cell ∈ (known caller).ahead := by rw [walking]; exact List.mem_cons_self
    exact ⟨cell.1, consistent.live (consistent.ahead caller cell member), rfl⟩
  have adding : ∀ {ref}, (known caller).own.unpublished = some ref → heap.Allocated (.entry ref) :=
    fun adds => ⟨_, (consistent.unpublished adds).1, rfl⟩
  cases operation with
  | plain operation => exact may
  | next link =>
      cases link with
      | head list => trivial
      | entry ref => exact (listed may).valid
      | poison1 => exact absurd may Knowledge.not_at_poison1
      | poison2 => exact absurd may Knowledge.not_at_poison2
  | prev link => exact may.elim
  | setNext link target =>
      cases link with
      | head list => trivial
      | entry ref =>
          obtain ⟨ref, entry, behind, aimed, here, _⟩ := may
          rw [here]
          exact (adding (by rw [aimed]; rfl)).valid
      | poison1 =>
          obtain ⟨_, _, _, _, here, _⟩ := may
          cases here
      | poison2 =>
          obtain ⟨_, _, _, _, here, _⟩ := may
          cases here
  | setPrev link target =>
      rcases may with ⟨ref, entry, behind, aimed, rfl⟩ | ⟨ref, entry, behind, joined, rfl⟩
      · have own := consistent.own caller
        rw [aimed] at own
        cases behind with
        | nil => trivial
        | cons cell rest => exact consistent.live (own.2.2 cell List.mem_cons_self)
      · exact (adding (by rw [joined]; rfl)).valid
  | pid link => exact listed may
  | memoryLimit link => exact listed may
  | setPid link pid =>
      obtain ⟨ref, allocated, rfl⟩ := may
      exact adding (by rw [allocated]; rfl)
  | setMemoryLimit link memoryLimit =>
      obtain ⟨ref, pid, named, rfl⟩ := may
      exact adding (by rw [named]; rfl)
  | kmalloc => trivial
  | kfree link => exact may.elim

end Steps

end UsacSyscalls.Project3
