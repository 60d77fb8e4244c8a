import UsacSyscalls.Project3.HeapCalls

/-!
Contract: the calls over linked entries refine the calls over list contents.

Owns the edits of a heap by `add_memory_limit` and `remove_memory_limit`, the
refinement of each call, and its consequence for runs of completed calls: equal
answers, no access outside the objects that are there, no entry outside the
lists.

Does not own interleaved calls.
-/

set_option autoImplicit false

namespace UsacSyscalls.Project3

open UsacSyscalls.Foundation
open UsacSyscalls.Kernel

/-! ### Edits of the layout -/

/-- A new entry behind the head of the shared list. -/
def withEntry (heap : Heap) (ref : EntryRef) (entry : MemoryLimitationEntry) : Heap where
  links := heap.links.insert (.head .shared) (.entry ref)
  members := Function.update heap.members (.entry ref) entry
  live := insert ref heap.live

/-- An entry taken out of its list and given back. -/
def withoutEntry (heap : Heap) (ref : EntryRef) : Heap where
  links := ((heap.links.bypass (.entry ref)).setNext (.entry ref) .poison1).setPrev
    (.entry ref) .poison2
  members := heap.members
  live := heap.live.erase ref

namespace Layout

variable {heap : Heap} {refs : ListHead → List EntryRef} {ref : EntryRef}

theorem withEntry (layout : Layout heap refs) (fresh : ref ∉ heap.live)
    (entry : MemoryLimitationEntry) :
    Layout (withEntry heap ref entry)
      (Function.update refs .shared (ref :: refs .shared)) := by
  have unlisted : ∀ list, ref ∉ refs list := by
    intro list member
    exact fresh (layout.live.mpr ⟨list, member⟩)
  have outside : ∀ list, Link.entry ref ∉ Link.head list :: (refs list).map .entry := by
    intro list member
    simp only [List.mem_cons, List.mem_map, reduceCtorEq, Link.entry.injEq, false_or,
      exists_eq_right] at member
    exact unlisted list member
  have listed : ∀ list other, other ∈ Function.update refs .shared (ref :: refs .shared) list ↔
      (list = .shared ∧ other = ref) ∨ other ∈ refs list := by
    intro list other
    by_cases same : list = .shared
    · subst same
      simp
    · simp [same]
  constructor
  case rings =>
    intro list
    by_cases same : list = .shared
    · subst same
      rw [Function.update_self]
      exact (layout.rings .shared).insert (outside .shared)
    · rw [Function.update_of_ne same]
      have first := (layout.rings .shared).next_mem List.mem_cons_self
      apply (layout.rings list).congr
      · intro link member
        apply Links.insert_next_of_ne
        · rintro rfl
          exact same (layout.link_apart member List.mem_cons_self)
        · rintro rfl
          exact outside list member
      · intro link member
        apply Links.insert_prev_of_ne
        · rintro rfl
          exact same (layout.link_apart member first)
        · rintro rfl
          exact outside list member
  case apart =>
    intro first second other inFirst inSecond
    rcases (listed first other).mp inFirst with ⟨firstShared, isNew⟩ | inFirst
    · rcases (listed second other).mp inSecond with ⟨secondShared, _⟩ | inSecond
      · rw [firstShared, secondShared]
      · exact absurd (isNew ▸ inSecond) (unlisted second)
    · rcases (listed second other).mp inSecond with ⟨_, isNew⟩ | inSecond
      · exact absurd (isNew ▸ inFirst) (unlisted first)
      · exact layout.apart inFirst inSecond
  case live =>
    intro other
    show other ∈ insert ref heap.live ↔ _
    simp only [Finset.mem_insert, layout.live, listed, exists_or, and_comm]
    simp

theorem withoutEntry (layout : Layout heap refs) {list : ListHead} (member : ref ∈ refs list) :
    Layout (withoutEntry heap ref) (Function.update refs list ((refs list).erase ref)) := by
  have inside : Link.entry ref ∈ Link.head list :: (refs list).map .entry :=
    List.mem_cons_of_mem _ (List.mem_map_of_mem member)
  have listed : ∀ other candidate,
      candidate ∈ Function.update refs list ((refs list).erase ref) other ↔
        candidate ∈ refs other ∧ candidate ≠ ref := by
    intro other candidate
    by_cases same : other = list
    · subst same
      rw [Function.update_self, (layout.nodup other).mem_erase_iff, and_comm]
    · rw [Function.update_of_ne same]
      refine (and_iff_left_of_imp ?_).symm
      rintro inOther rfl
      exact same (layout.apart inOther member)
  constructor
  case rings =>
    intro other
    by_cases same : other = list
    · subst same
      obtain ⟨before, after, split⟩ := List.append_of_mem member
      have ring := layout.rings other
      have distinct := layout.nodup other
      rw [split] at ring distinct
      have notBefore : ref ∉ before := by
        intro inBefore
        exact (List.nodup_append.mp distinct).2.2 ref inBefore ref List.mem_cons_self rfl
      have erased : (refs other).erase ref = before ++ after := by
        rw [split, List.erase_append_right _ notBefore, List.erase_cons_head]
      rw [Function.update_self, erased, List.map_append]
      rw [List.map_append, List.map_cons] at ring
      have middle : ((Link.head other :: before.map Link.entry) ++
          Link.entry ref :: after.map Link.entry).Nodup :=
        ring.distinct
      have gone : Link.entry ref ∉
          (Link.head other :: before.map Link.entry) ++ after.map Link.entry :=
        (List.nodup_cons.mp (List.nodup_middle.mp middle)).1
      apply ring.bypass.congr
      · intro link member
        have different : link ≠ .entry ref := fun same => gone (same ▸ member)
        simp [Project3.withoutEntry, different]
      · intro link member
        have different : link ≠ .entry ref := fun same => gone (same ▸ member)
        simp [Project3.withoutEntry, different]
    · rw [Function.update_of_ne same]
      have ring := layout.rings list
      have apart : ∀ {link target}, link ∈ Link.head other :: (refs other).map .entry →
          target ∈ Link.head list :: (refs list).map .entry → link ≠ target := by
        rintro link target inOther inList rfl
        exact same (layout.link_apart inOther inList)
      apply (layout.rings other).congr
      · intro link inOther
        have kept : (heap.links.bypass (.entry ref)).next link = heap.links.next link :=
          Links.bypass_next_of_ne (apart inOther (ring.prev_mem inside))
        simpa [Project3.withoutEntry, apart inOther inside] using kept
      · intro link inOther
        have kept : (heap.links.bypass (.entry ref)).prev link = heap.links.prev link :=
          Links.bypass_prev_of_ne (apart inOther (ring.next_mem inside))
        simpa [Project3.withoutEntry, apart inOther inside] using kept
  case apart =>
    intro first second candidate inFirst inSecond
    exact layout.apart ((listed first candidate).mp inFirst).1
      ((listed second candidate).mp inSecond).1
  case live =>
    intro candidate
    show candidate ∈ heap.live.erase ref ↔ _
    simp only [Finset.mem_erase, layout.live, listed, exists_and_right]
    rw [and_comm]

end Layout

/-! ### Refinement -/

section Refinement

variable {env : HeapEnvironment} {refs : ListHead → List EntryRef} {state : HeapState}
  {machine : Machine} {fuel : Nat}

theorem plain_getProcessMemoryUsage (task : TaskRef) :
    Program.Within Plain (getProcessMemoryUsage (some task)) := by
  apply Program.within_bind (Program.within_perform trivial)
  intro mm
  cases mm with
  | none => exact Program.within_pure _
  | some mm =>
      apply Program.within_bind (Program.within_perform trivial)
      intro again
      apply Program.within_bind (Program.within_perform trivial)
      intro totalVm
      exact Program.within_pure _

theorem plain_addAdmission (processPid : PidT) (memoryLimit : SizeT) :
    Program.Within Plain (addAdmission processPid memoryLimit) := by
  unfold addAdmission
  split
  · exact Program.within_pure _
  · apply Program.within_bind (Program.within_perform trivial)
    intro privileged
    split
    · exact Program.within_pure _
    · apply Program.within_bind (Program.within_perform trivial)
      intro pid
      apply Program.within_bind (Program.within_perform trivial)
      intro found
      cases found with
      | none => exact Program.within_pure _
      | some task =>
          apply Program.within_bind (plain_getProcessMemoryUsage task)
          intro currentUsage
          split
          · apply Program.within_bind (Program.within_perform trivial)
            intro _
            exact Program.within_pure _
          · exact Program.within_pure _

theorem runs_admission (processPid : PidT) (memoryLimit : SizeT) :
    RunsSafely env (onHeap (addAdmission processPid memoryLimit)) state
      (admission env.toEnvironment processPid memoryLimit, state) := by
  have runs : RunsSafely env (onHeap (addAdmission processPid memoryLimit)) state _ :=
    runs_onHeap (plain_addAdmission processPid memoryLimit)
  rwa [complete_addAdmission] at runs

theorem runs_putTaskStruct (task : TaskRef) :
    RunsSafely env (onHeap (putTaskStruct task)) state ((), state) :=
  runs_onHeap (Program.within_perform trivial)

theorem runs_capable : RunsSafely env (onHeap capable) state (env.capable, state) :=
  runs_onHeap (Program.within_perform trivial)

theorem runs_addEntry_refused (refused : env.kmalloc = false) (processPid : PidT)
    (memoryLimit : SizeT) (task : TaskRef) :
    RunsSafely env (addEntry processPid memoryLimit task) state (-enomem, state) := by
  have none : RunsSafely env kmallocEntry state (none, state) := by
    have runs : RunsSafely env kmallocEntry state _ := runs_kmallocEntry
    rwa [refused] at runs
  exact .bind none (.bind (runs_putTaskStruct task) (.pure _))

/-- The two stores that fill a new entry. -/
theorem runs_fill {link : Link} (allocated : state.1.Allocated link) (processPid : PidT)
    (memoryLimit : SizeT) {rest : HeapCall Int} {outcome : Int × HeapState}
    (later : RunsSafely env rest
      (state.1.setMembers link ⟨processPid, memoryLimit⟩, state.2) outcome) :
    RunsSafely env
      (do
        setPid link processPid
        setMemoryLimit link memoryLimit
        rest) state outcome := by
  let named := state.1.setMembers link { state.1.members link with pid := processPid }
  have still : named.Allocated link := allocated
  have filled : named.setMembers link { named.members link with memoryLimit := memoryLimit } =
      state.1.setMembers link ⟨processPid, memoryLimit⟩ := by
    simp [named, Heap.setMembers]
  have limited : RunsSafely env (setMemoryLimit link memoryLimit) (named, state.2)
      ((), named.setMembers link { named.members link with memoryLimit := memoryLimit }, state.2) :=
    .perform still
  rw [filled] at limited
  exact .bind (runs_setPid allocated processPid) (.bind limited later)

theorem runs_addEntry (layout : Layout state.1 refs) (allocates : env.kmalloc = true)
    (processPid : PidT) (memoryLimit : SizeT) (task : TaskRef) :
    RunsSafely env (addEntry processPid memoryLimit task) state
      (0, withEntry state.1 (env.place state.1.live) ⟨processPid, memoryLimit⟩, state.2) := by
  let ref := env.place state.1.live
  have some : RunsSafely env kmallocEntry state
      (some (.entry ref), state.1.allocate ref, state.2) := by
    have runs : RunsSafely env kmallocEntry state _ := runs_kmallocEntry
    rwa [allocates] at runs
  have new : (state.1.allocate ref).Allocated (.entry ref) :=
    ⟨ref, Finset.mem_insert_self _ _, rfl⟩
  have first : (state.1.allocate ref).Valid (state.1.links.next (.head .shared)) :=
    (layout.valid_next .shared List.mem_cons_self).allocate ref
  refine .bind some (runs_fill new processPid memoryLimit ?_)
  exact .bind (runs_listAddLinks new.valid first) (.bind (runs_putTaskStruct task) (.pure 0))

/-- A value that `Realises` relates, before and after a completed call. -/
def Refines (env : HeapEnvironment) (onHeap : HeapCall (Option Int)) (call : Syscall Int)
    (state : HeapState) (machine : Machine) : Prop :=
  ∃ refs after, RunsSafely env onHeap state
      (some (complete env.toEnvironment call machine).1, after) ∧
    Realises refs after (complete env.toEnvironment call machine).2

theorem length_entriesAt (heap : Heap) (listed : List EntryRef) :
    (entriesAt heap listed).length = listed.length :=
  List.length_map _

theorem Realises.withEntry (realises : Realises refs state machine) {ref : EntryRef}
    (fresh : ref ∉ state.1.live) (entry : MemoryLimitationEntry) :
    Realises (Function.update refs .shared (ref :: refs .shared))
      (withEntry state.1 ref entry, state.2)
      (machine.setHead .shared (entry :: machine.heads .shared)) := by
  have kept : ∀ list, entriesAt (Project3.withEntry state.1 ref entry) (refs list) =
      entriesAt state.1 (refs list) := by
    intro list
    apply entriesAt_setMembers_of_notMem
    intro member
    exact fresh (realises.layout.live.mpr ⟨list, member⟩)
  refine ⟨realises.layout.withEntry fresh entry, ?_, realises.user⟩
  intro list
  by_cases same : list = .shared
  · subst same
    simp only [Machine.setHead, Function.update_self, realises.heads, ← kept]
    simp [entriesAt, Project3.withEntry]
  · simp only [Machine.setHead, Function.update_of_ne same, realises.heads, ← kept]

theorem Realises.withoutEntry (realises : Realises refs state machine) {list : ListHead}
    {ref : EntryRef} (member : ref ∈ refs list) :
    Realises (Function.update refs list ((refs list).erase ref)) (withoutEntry state.1 ref, state.2)
      (machine.setHead list (entriesAt state.1 ((refs list).erase ref))) := by
  refine ⟨realises.layout.withoutEntry member, ?_, realises.user⟩
  intro other
  by_cases same : other = list
  · subst same
    simp only [Machine.setHead, Function.update_self]
    rfl
  · simp only [Machine.setHead, Function.update_of_ne same, realises.heads]
    rfl

/-- The list that a search walks, as the searches need it. -/
theorem Realises.walk (realises : Realises refs state machine) (list : ListHead) :
    Walk state.1.links.next (.head list) (state.1.links.next (.head list))
      ((refs list).map .entry) :=
  (realises.layout.rings list).walk

theorem Realises.enough (realises : Realises refs state machine) {list : ListHead}
    (enough : (machine.heads list).length < fuel) : (refs list).length < fuel := by
  rwa [realises.heads, length_entriesAt] at enough

theorem refines_add (realises : Realises refs state machine)
    (enough : (machine.heads .shared).length < fuel) (processPid : PidT) (memoryLimit : SizeT) :
    Refines env (addMemoryLimitOnHeap fuel processPid memoryLimit)
      (addMemoryLimit processPid memoryLimit) state machine := by
  unfold Refines addMemoryLimitOnHeap
  rw [complete_addMemoryLimit]
  cases admitted : admission env.toEnvironment processPid memoryLimit with
  | error code =>
      have runs : RunsSafely env (onHeap (addAdmission processPid memoryLimit)) state _ :=
        runs_admission processPid memoryLimit
      rw [admitted] at runs
      exact ⟨refs, state, .bind runs (.pure _), realises⟩
  | ok task =>
      have runs : RunsSafely env (onHeap (addAdmission processPid memoryLimit)) state _ :=
        runs_admission processPid memoryLimit
      rw [admitted] at runs
      have rejects : ∀ ref, findPid state.1 processPid (refs .shared) = some ref →
          RunsSafely env (rejectDuplicate task (.entry ref)) state (-101, state) :=
        fun ref _ => .bind (runs_putTaskStruct task) (.pure _)
      have search := runs_search (realises.walk .shared)
        (fun ref member => realises.layout.allocated member) (realises.enough enough) rejects
      cases found : findPid state.1 processPid (refs .shared) with
      | none =>
          have unlisted : ¬ Listed (machine.heads .shared) processPid := by
            rw [realises.heads]
            exact findPid_eq_none_iff.mp found
          rw [found] at search
          simp only [if_neg unlisted]
          by_cases allocates : env.kmalloc = true
          · rw [if_pos allocates]
            have fresh := env.place_fresh state.1.live
            refine ⟨_, _, .bind runs (.bind (runs_loadNext trivial) (.bind search ?_)),
              realises.withEntry fresh ⟨processPid, memoryLimit⟩⟩
            have added := runs_addEntry realises.layout allocates processPid memoryLimit task
            exact .bind added (.pure _)
          · rw [if_neg allocates]
            refine ⟨refs, state, .bind runs (.bind (runs_loadNext trivial) (.bind search ?_)),
              realises⟩
            exact .bind (runs_addEntry_refused (Bool.eq_false_of_not_eq_true allocates) processPid
              memoryLimit task) (.pure _)
      | some ref =>
          have listed : Listed (machine.heads .shared) processPid := by
            rw [realises.heads]
            by_contra unlisted
            rw [findPid_eq_none_iff.mpr unlisted] at found
            exact nomatch found
          rw [found] at search
          simp only [if_pos listed]
          exact ⟨refs, state, .bind runs (.bind (runs_loadNext trivial) (.bind search (.pure _))),
            realises⟩

theorem Realises.setMembers (realises : Realises refs state machine) {list : ListHead}
    {ref : EntryRef} (member : ref ∈ refs list) (members : MemoryLimitationEntry) :
    Realises refs (state.1.setMembers (.entry ref) members, state.2)
      (machine.setHead list
        (entriesAt (state.1.setMembers (.entry ref) members) (refs list))) := by
  refine ⟨⟨realises.layout.rings, realises.layout.apart, realises.layout.live⟩, ?_, realises.user⟩
  intro other
  by_cases same : other = list
  · subst same
    simp only [Machine.setHead, Function.update_self]
  · have absent : ref ∉ refs other := fun inOther => same (realises.layout.apart inOther member)
    simp only [Machine.setHead, Function.update_of_ne same, realises.heads,
      entriesAt_setMembers_of_notMem absent]

theorem refines_update (realises : Realises refs state machine)
    (enough : (machine.heads .updateStatic).length < fuel) (processPid : PidT)
    (memoryLimit : SizeT) :
    Refines env (updateMemoryLimitOnHeap fuel processPid memoryLimit)
      (updateMemoryLimit processPid memoryLimit) state machine := by
  unfold Refines updateMemoryLimitOnHeap
  rw [complete_updateMemoryLimit]
  by_cases invalid : processPid.toInt ≤ 0 ∨ memoryLimit ≤ 0
  · simp only [if_pos invalid]
    exact ⟨refs, state, .pure _, realises⟩
  · simp only [if_neg invalid]
    have privilege : RunsSafely env (onHeap capable) state (env.capable, state) := runs_capable
    by_cases unprivileged : env.capable = false
    · rw [unprivileged] at privilege
      rw [if_pos unprivileged]
      exact ⟨refs, state, .bind privilege (.pure _), realises⟩
    · rw [Bool.eq_true_of_not_eq_false unprivileged] at privilege
      rw [if_neg unprivileged, realises.heads,
        updateWalk_entriesAt memoryLimit (realises.layout.nodup _)]
      have replaces : ∀ ref, findPid state.1 processPid (refs .updateStatic) = some ref →
          RunsSafely env (replaceLimit memoryLimit (.entry ref)) state
            (0, state.1.setMembers (.entry ref)
              { state.1.members (.entry ref) with memoryLimit := memoryLimit }, state.2) := by
        intro ref found
        have allocated := realises.layout.allocated (mem_of_findPid found)
        exact .bind (runs_setMemoryLimit allocated memoryLimit) (.pure _)
      have search := runs_search (realises.walk .updateStatic)
        (fun ref member => realises.layout.allocated member) (realises.enough enough) replaces
      cases found : findPid state.1 processPid (refs .updateStatic) with
      | none =>
          rw [found] at search
          simp only [setHead_self machine (realises.heads .updateStatic)]
          exact ⟨refs, state,
            .bind privilege (.bind (runs_loadNext trivial) (.bind search (.pure _))), realises⟩
      | some ref =>
          rw [found] at search
          exact ⟨refs, _, .bind privilege (.bind (runs_loadNext trivial) (.bind search (.pure _))),
            realises.setMembers (mem_of_findPid found) _⟩

theorem runs_deleteEntry (layout : Layout state.1 refs) {list : ListHead} {ref : EntryRef}
    (member : ref ∈ refs list) :
    RunsSafely env (deleteEntry (.entry ref)) state (0, withoutEntry state.1 ref, state.2) := by
  have inside : Link.entry ref ∈ Link.head list :: (refs list).map .entry :=
    List.mem_cons_of_mem _ (List.mem_map_of_mem member)
  have allocated := layout.allocated member
  refine .bind (runs_listDel allocated.valid (layout.valid_prev list inside)
    (layout.valid_next list inside)) ?_
  exact .bind (.perform allocated) (.pure _)

theorem refines_remove (realises : Realises refs state machine)
    (enough : (machine.heads .removeStatic).length < fuel) (processPid : PidT) :
    Refines env (removeMemoryLimitOnHeap fuel processPid) (removeMemoryLimit processPid) state
      machine := by
  unfold Refines removeMemoryLimitOnHeap
  rw [complete_removeMemoryLimit]
  by_cases invalid : processPid.toInt ≤ 0
  · simp only [if_pos invalid]
    exact ⟨refs, state, .pure _, realises⟩
  · simp only [if_neg invalid]
    have privilege : RunsSafely env (onHeap capable) state (env.capable, state) := runs_capable
    by_cases unprivileged : env.capable = false
    · rw [unprivileged] at privilege
      rw [if_pos unprivileged]
      exact ⟨refs, state, .bind privilege (.pure _), realises⟩
    · rw [Bool.eq_true_of_not_eq_false unprivileged] at privilege
      rw [if_neg unprivileged, realises.heads, removeWalk_entriesAt (realises.layout.nodup _)]
      have first := realises.layout.valid_next .removeStatic List.mem_cons_self
      have deletes : ∀ ref, findPid state.1 processPid (refs .removeStatic) = some ref →
          RunsSafely env (deleteEntry (.entry ref)) state (0, withoutEntry state.1 ref, state.2) :=
        fun ref found => runs_deleteEntry realises.layout (mem_of_findPid found)
      have search := runs_searchSafe (realises.walk .removeStatic)
        (fun ref member => realises.layout.allocated member)
        (fun ref member => realises.layout.valid_next .removeStatic
          (List.mem_cons_of_mem _ (List.mem_map_of_mem member)))
        (realises.enough enough) deletes
      cases found : findPid state.1 processPid (refs .removeStatic) with
      | none =>
          rw [found] at search
          simp only [setHead_self machine (realises.heads .removeStatic)]
          exact ⟨refs, state, .bind privilege (.bind (runs_loadNext trivial)
            (.bind (runs_loadNext first) (.bind search (.pure _)))), realises⟩
      | some ref =>
          rw [found] at search
          exact ⟨_, _, .bind privilege (.bind (runs_loadNext trivial)
            (.bind (runs_loadNext first) (.bind search (.pure _)))),
            realises.withoutEntry (mem_of_findPid found)⟩

theorem plain_copyRecords (buffer : Nat) (maxEntries : SizeT)
    (entries : List MemoryLimitationEntry) (count : SizeT) (tmp : ByteMemory) :
    Program.Within Plain (copyRecords buffer maxEntries entries count tmp) := by
  induction entries generalizing count tmp with
  | nil => exact Program.within_pure _
  | cons entry rest inductionHypothesis =>
      unfold copyRecords
      split
      · exact Program.within_pure _
      · apply Program.within_bind (plain_copyToUser _ _)
        intro left
        split
        · exact Program.within_pure _
        · exact inductionHypothesis _ _

theorem plain_reportCount (returned : Nat) (count : SizeT) :
    Program.Within Plain (reportCount returned count) := by
  apply Program.within_bind (plain_copyToUser _ _)
  intro left
  split
  · exact Program.within_pure _
  · exact Program.within_pure _

/-- What `get_memory_limits` comes to once its loop has ended in `copied`. -/
def afterCopies (env : Environment) (returned : Nat)
    (heads : ListHead → List MemoryLimitationEntry) (copied : Except Int SizeT × Machine) :
    Int × Machine :=
  match copied.1 with
  | .error code => (code, ⟨heads, copied.2.user⟩)
  | .ok count => complete env (reportCount returned count) ⟨heads, copied.2.user⟩

/-- `get_memory_limits` past its checks. -/
theorem complete_getMemoryLimits_loop (env : Environment) (machine : Machine)
    {buffer returned : Nat} {maxEntries : SizeT} (room : ¬ maxEntries ≤ 0)
    (pointers : ¬ (buffer = 0 ∨ returned = 0)) :
    complete env (getMemoryLimits buffer maxEntries returned) machine =
      afterCopies env returned machine.heads (complete env
        (copyRecords buffer maxEntries (machine.heads .shared) 0 (env.stack .tmp))
        (.boot machine.user)) := by
  have loop : Program.run (kernel env)
      (copyRecords buffer maxEntries (machine.heads .shared) 0 (env.stack .tmp)) machine = _ :=
    complete_of_plain (plain_copyRecords _ _ _ _ _) env machine
  unfold getMemoryLimits
  rw [if_neg room, if_neg pointers]
  simp only [Program.run_bind, complete_stackSlot, complete_listEntries, memoryLimitedProcesses]
  rw [loop]
  unfold afterCopies
  cases (complete env (copyRecords buffer maxEntries (machine.heads .shared) 0 (env.stack .tmp))
    (.boot machine.user)).1 with
  | error code => rfl
  | ok count => rfl

theorem refines_get (realises : Realises refs state machine)
    (enough : (machine.heads .shared).length < fuel) (buffer : Nat) (maxEntries : SizeT)
    (returned : Nat) :
    Refines env (getMemoryLimitsOnHeap fuel buffer maxEntries returned)
      (getMemoryLimits buffer maxEntries returned) state machine := by
  unfold Refines getMemoryLimitsOnHeap
  by_cases none : maxEntries ≤ 0
  · rw [if_pos none]
    unfold getMemoryLimits
    rw [if_pos none]
    exact ⟨refs, state, .pure _, realises⟩
  · rw [if_neg none]
    by_cases null : buffer = 0 ∨ returned = 0
    · rw [if_pos null]
      unfold getMemoryLimits
      rw [if_neg none, if_pos null]
      exact ⟨refs, state, .pure _, realises⟩
    · rw [if_neg null, complete_getMemoryLimits_loop env.toEnvironment machine none null]
      have tmp : RunsSafely env (onHeap (stackSlot .tmp)) state (env.stack .tmp, state) :=
        runs_onHeap (Program.within_perform trivial)
      obtain ⟨result, same, loop⟩ : ∃ result, afterLoop result = (complete env.toEnvironment
            (copyRecords buffer maxEntries (machine.heads .shared) 0 (env.stack .tmp))
            (.boot machine.user)).1 ∧
          RunsSafely env (listForEachEntry (.head .shared) (copyEntry buffer maxEntries) fuel
            (state.1.links.next (.head .shared)) (0, env.stack .tmp)) state
            (some result, state.1, (complete env.toEnvironment
              (copyRecords buffer maxEntries (machine.heads .shared) 0 (env.stack .tmp))
              (.boot machine.user)).2.user) := by
        rw [realises.heads, realises.user]
        exact runs_copyEntries buffer maxEntries 0 (env.stack .tmp) (realises.walk .shared)
          (fun ref member => realises.layout.allocated member) (realises.enough enough)
      generalize complete env.toEnvironment
        (copyRecords buffer maxEntries (machine.heads .shared) 0 (env.stack .tmp))
        (.boot machine.user) = copied at same loop ⊢
      obtain ⟨exit, reached⟩ := copied
      cases exit with
      | error code =>
          refine ⟨refs, (state.1, reached.user), .bind tmp (.bind (runs_loadNext trivial)
            (.bind loop ?_)), ⟨realises.layout, realises.heads, rfl⟩⟩
          simp only [same]
          exact .pure _
      | ok count =>
          have reports : RunsSafely env (onHeap (reportCount returned count))
              (state.1, reached.user) _ := runs_onHeap (plain_reportCount returned count)
          have beside : afterCopies env.toEnvironment returned machine.heads (.ok count, reached) =
              _ :=
            complete_of_plain (plain_reportCount returned count) env.toEnvironment _
          rw [beside]
          refine ⟨refs, (state.1, (complete env.toEnvironment (reportCount returned count)
              (.boot reached.user)).2.user),
            .bind tmp (.bind (runs_loadNext trivial) (.bind loop ?_)),
            ⟨realises.layout, realises.heads, rfl⟩⟩
          simp only [same]
          exact .bind reports (.pure _)

end Refinement

/-! ### Runs of completed calls -/

/-- A call, with where `kmalloc` puts an entry during it. -/
structure HeapEvent where
  call : Call
  placement : Placement

def Call.environment : Call → Environment
  | .add env _ _ => env
  | .update env _ _ => env
  | .remove env _ => env
  | .get env _ _ _ => env

def HeapEvent.environment (event : HeapEvent) : HeapEnvironment where
  toEnvironment := event.call.environment
  toPlacement := event.placement

def Call.onHeap (fuel : Nat) : Call → HeapCall (Option Int)
  | .add _ processPid memoryLimit => addMemoryLimitOnHeap fuel processPid memoryLimit
  | .update _ processPid memoryLimit => updateMemoryLimitOnHeap fuel processPid memoryLimit
  | .remove _ processPid => removeMemoryLimitOnHeap fuel processPid
  | .get _ buffer maxEntries returned => getMemoryLimitsOnHeap fuel buffer maxEntries returned

/-- The records in the buffer of a `get_memory_limits` that returned `code`. -/
def Call.delivered (code : Int) (user : ByteMemory) : Call → List (PidT × SizeT)
  | .get _ buffer _ _ => (List.range code.toNat).map (recordAt user buffer)
  | _ => []

/-- One call on the heap, with what its caller sees of it if `fuel` iterations
were enough for its loop. -/
def heapStep (fuel : Nat) (state : HeapState) (event : HeapEvent) :
    Option Observation × HeapState :=
  let outcome := Program.run (heapKernel event.environment) (event.call.onHeap fuel) state
  (outcome.1.map fun code => ⟨code, event.call.delivered code outcome.2.2⟩, outcome.2)

def SafeCall (fuel : Nat) (state : HeapState) (event : HeapEvent) : Prop :=
  Program.Throughout (heapKernel event.environment) Safe (event.call.onHeap fuel) state

/-- The state realises the machine, and every loop of `left` more calls is short
enough for `fuel`. -/
def RealisesFor (fuel left : Nat) (state : HeapState) (machine : Machine) : Prop :=
  (∃ refs, Realises refs state machine) ∧ ∀ list, (machine.heads list).length + left < fuel

def Call.syscall : Call → Syscall Int
  | .add _ processPid memoryLimit => addMemoryLimit processPid memoryLimit
  | .update _ processPid memoryLimit => updateMemoryLimit processPid memoryLimit
  | .remove _ processPid => removeMemoryLimit processPid
  | .get _ buffer maxEntries returned => getMemoryLimits buffer maxEntries returned

section Runs

variable {refs : ListHead → List EntryRef} {state : HeapState} {machine : Machine} {fuel : Nat}

theorem refines_call (event : HeapEvent) (realises : Realises refs state machine)
    (enough : ∀ list, (machine.heads list).length < fuel) :
    Refines event.environment (event.call.onHeap fuel) event.call.syscall state machine := by
  obtain ⟨call, placement⟩ := event
  cases call with
  | add env processPid memoryLimit =>
      exact refines_add realises (enough .shared) processPid memoryLimit
  | update env processPid memoryLimit =>
      exact refines_update realises (enough .updateStatic) processPid memoryLimit
  | remove env processPid => exact refines_remove realises (enough .removeStatic) processPid
  | get env buffer maxEntries returned =>
      exact refines_get realises (enough .shared) buffer maxEntries returned

theorem step_eq_syscall (call : Call) (machine : Machine) :
    call.step machine =
      let outcome := complete call.environment call.syscall machine
      (⟨outcome.1, call.delivered outcome.1 outcome.2.user⟩, outcome.2) := by
  cases call <;> rfl

theorem updateWalk_length (processPid : PidT) (memoryLimit : SizeT)
    (entries : List MemoryLimitationEntry) :
    (updateWalk processPid memoryLimit entries).2.length = entries.length := by
  induction entries with
  | nil => rfl
  | cons entry rest inductionHypothesis =>
      unfold updateWalk
      split
      · rfl
      · exact congrArg (· + 1) inductionHypothesis

theorem removeWalk_length_le (processPid : PidT) (entries : List MemoryLimitationEntry) :
    (removeWalk processPid entries).2.length ≤ entries.length := by
  induction entries with
  | nil => exact Nat.le_refl _
  | cons entry rest inductionHypothesis =>
      unfold removeWalk
      split
      · exact Nat.le_succ _
      · exact Nat.succ_le_succ inductionHypothesis

theorem setHead_length_le {head : ListHead} {entries : List MemoryLimitationEntry}
    (grows : entries.length ≤ (machine.heads head).length + 1) (list : ListHead) :
    ((machine.setHead head entries).heads list).length ≤ (machine.heads list).length + 1 := by
  by_cases same : list = head
  · subst same
    simpa [Machine.setHead] using grows
  · simp [Machine.setHead, same]

/-- No call makes a list longer by more than one entry. -/
theorem step_length_le (call : Call) (machine : Machine) (list : ListHead) :
    ((call.step machine).2.heads list).length ≤ (machine.heads list).length + 1 := by
  have unchanged : (machine.heads list).length ≤ (machine.heads list).length + 1 := Nat.le_succ _
  cases call with
  | add env processPid memoryLimit =>
      simp only [Call.step, observe, complete_addMemoryLimit]
      split
      · exact unchanged
      · split
        · exact unchanged
        · split
          · exact setHead_length_le (Nat.le_refl _) list
          · exact unchanged
  | update env processPid memoryLimit =>
      simp only [Call.step, observe, complete_updateMemoryLimit]
      split
      · exact unchanged
      · split
        · exact unchanged
        · exact setHead_length_le (by rw [updateWalk_length]; exact Nat.le_succ _) list
  | remove env processPid =>
      simp only [Call.step, observe, complete_removeMemoryLimit]
      split
      · exact unchanged
      · split
        · exact unchanged
        · exact setHead_length_le (Nat.le_succ_of_le (removeWalk_length_le _ _)) list
  | get env buffer maxEntries returned =>
      simp only [Call.step, complete_getMemoryLimits_heads]
      exact unchanged

theorem RealisesFor.refines {left : Nat} (related : RealisesFor fuel (left + 1) state machine)
    (event : HeapEvent) :
    Refines event.environment (event.call.onHeap fuel) event.call.syscall state machine := by
  obtain ⟨⟨refs, realises⟩, enough⟩ := related
  apply refines_call event realises
  intro list
  have := enough list
  omega

theorem heapStep_of_runs {event : HeapEvent} {code : Int} {after : HeapState}
    (runs : RunsSafely event.environment (event.call.onHeap fuel) state (some code, after)) :
    heapStep fuel state event = (some ⟨code, event.call.delivered code after.2⟩, after) := by
  unfold heapStep
  rw [runs.outcome_eq]
  rfl

theorem heapStep_simulation (fuel : Nat) :
    Transition.Simulation (heapStep fuel) Call.step HeapEvent.call some (RealisesFor fuel) where
  same_output := by
    intro left state machine event related
    obtain ⟨refs, after, runs, realises⟩ := related.refines event
    rw [heapStep_of_runs runs, step_eq_syscall, ← realises.user]
    rfl
  continues := by
    intro left state machine event related
    obtain ⟨refs, after, runs, realises⟩ := related.refines event
    rw [heapStep_of_runs runs]
    have sameMachine : (event.call.step machine).2 =
        (complete event.call.environment event.call.syscall machine).2 := by
      rw [step_eq_syscall]
    refine ⟨⟨refs, ?_⟩, ?_⟩
    · rw [sameMachine]
      exact realises
    · intro list
      have shorter := step_length_le event.call machine list
      have enough := related.2 list
      omega

theorem realises_boot (user : ByteMemory) :
    Realises (fun _ => []) (Heap.boot, user) (.boot user) where
  layout :=
    { rings := fun list => ⟨⟨rfl, rfl⟩, List.nodup_singleton _⟩
      apart := fun member => absurd member List.not_mem_nil
      live := by simp [Heap.boot] }
  heads := fun _ => rfl
  user := rfl

/-- Over every run of completed calls, the calls on linked entries answer as the
calls on list contents do, whatever addresses `kmalloc` gives. -/
theorem outputs_onHeap_eq_outputs (realises : Realises refs state machine)
    (events : List HeapEvent)
    (enough : ∀ list, (machine.heads list).length + events.length < fuel) :
    Transition.outputs (heapStep fuel) state events =
      (Transition.outputs Call.step machine (events.map HeapEvent.call)).map some :=
  (heapStep_simulation fuel).outputs_eq ⟨⟨refs, realises⟩, enough⟩

/-- Every load, store and `kfree` of such a run goes to an object that is there.
At its end the lists are rings of the entries that were not given back, and
hold what the calls on list contents leave. -/
theorem heapCalls_keep_layout (realises : Realises refs state machine) (events : List HeapEvent)
    (enough : ∀ list, (machine.heads list).length + events.length < fuel) :
    Transition.Along (heapStep fuel) (SafeCall fuel) state events ∧
      ∃ after, Layout (Transition.final (heapStep fuel) state events).1 after ∧
        ∀ list, entriesAt (Transition.final (heapStep fuel) state events).1 (after list) =
          (afterCalls machine (events.map HeapEvent.call)).heads list := by
  have start : RealisesFor fuel events.length state machine := ⟨⟨refs, realises⟩, enough⟩
  have safe : ∀ {left state machine} event, RealisesFor fuel (left + 1) state machine →
      SafeCall fuel state event := by
    intro left state machine event related
    obtain ⟨_, _, runs, _⟩ := related.refines event
    exact runs.throughout
  obtain ⟨⟨after, realised⟩, _⟩ := (heapStep_simulation fuel).related_final start
  refine ⟨(heapStep_simulation fuel).along safe start, after, realised.layout, ?_⟩
  intro list
  exact (realised.heads list).symm

/-- One entry in the shared list, and two in the list that
`remove_memory_limit` walks. -/
def threeEntries : Heap where
  live := {1, 2, 3}
  members := fun link =>
    if link = .entry 1 then ⟨5, 4096⟩ else if link = .entry 2 then ⟨8, 8192⟩ else ⟨9, 16384⟩
  links := ((Heap.boot.links.insert (.head .shared) (.entry 1)).insert
    (.head .removeStatic) (.entry 2)).insert (.head .removeStatic) (.entry 3)

def threeRefs : ListHead → List EntryRef
  | .shared => [1]
  | .updateStatic => []
  | .removeStatic => [3, 2]

def threeOnMachine : Machine where
  heads
    | .shared => [⟨5, 4096⟩]
    | .updateStatic => []
    | .removeStatic => [⟨9, 16384⟩, ⟨8, 8192⟩]
  user := fun _ => 0

theorem mem_threeRefs {list : ListHead} {ref : EntryRef} (member : ref ∈ threeRefs list) :
    ref ∈ threeEntries.live ∧ (if ref = 1 then ListHead.shared else .removeStatic) = list := by
  revert ref
  cases list <;> decide

theorem realises_threeEntries :
    Realises threeRefs (threeEntries, fun _ => 0) threeOnMachine where
  layout :=
    { rings := by
        intro list
        cases list with
        | shared => exact ⟨⟨⟨rfl, rfl⟩, rfl, rfl⟩, by decide⟩
        | updateStatic => exact ⟨⟨rfl, rfl⟩, by decide⟩
        | removeStatic => exact ⟨⟨⟨rfl, rfl⟩, ⟨rfl, rfl⟩, rfl, rfl⟩, by decide⟩
      apart := fun inFirst inSecond =>
        (mem_threeRefs inFirst).2.symm.trans (mem_threeRefs inSecond).2
      live := by
        intro ref
        constructor
        · have listed : ∀ ref ∈ threeEntries.live,
              ref ∈ threeRefs .shared ∨ ref ∈ threeRefs .removeStatic := by decide
          intro member
          rcases listed ref member with shared | removed
          · exact ⟨.shared, shared⟩
          · exact ⟨.removeStatic, removed⟩
        · rintro ⟨list, member⟩
          exact (mem_threeRefs member).1 }
  heads := by
    intro list
    cases list <;> rfl
  user := rfl

/-- Both entries of the private list are unlinked and given back, the second of
them first; then a registration gets the address that was given back last. -/
def fourCalls : List HeapEvent :=
  [⟨.remove (.quiet 7) 8, .ascending⟩, ⟨.remove (.quiet 7) 9, .ascending⟩,
    ⟨.add (.quiet 7) 7 8192, .ascending⟩, ⟨.get (.quiet 7) 4096 2 8192, .ascending⟩]

theorem outputs_onHeap_from_threeEntries :
    Transition.outputs (heapStep 7) (threeEntries, fun _ => 0) fourCalls =
        (Transition.outputs Call.step threeOnMachine (fourCalls.map HeapEvent.call)).map some ∧
      (Transition.outputs Call.step threeOnMachine (fourCalls.map HeapEvent.call)).map
        (fun output => output.code) = [0, 0, 0, 2] := by
  refine ⟨outputs_onHeap_eq_outputs realises_threeEntries fourCalls ?_, by decide⟩
  intro list
  cases list <;> decide

theorem heapCalls_keep_layout_from_threeEntries :
    Transition.Along (heapStep 7) (SafeCall 7) (threeEntries, fun _ => 0) fourCalls ∧
      ∃ after, Layout (Transition.final (heapStep 7) (threeEntries, fun _ => 0) fourCalls).1
          after ∧
        entriesAt (Transition.final (heapStep 7) (threeEntries, fun _ => 0) fourCalls).1
          (after .shared) = [⟨7, 8192⟩, ⟨5, 4096⟩] ∧
        entriesAt (Transition.final (heapStep 7) (threeEntries, fun _ => 0) fourCalls).1
          (after .removeStatic) = [] := by
  have enough : ∀ list, (threeOnMachine.heads list).length + fourCalls.length < 7 := by
    intro list
    cases list <;> decide
  obtain ⟨safe, after, layout, entries⟩ :=
    heapCalls_keep_layout realises_threeEntries fourCalls enough
  exact ⟨safe, after, layout, (entries .shared).trans (by decide),
    (entries .removeStatic).trans (by decide)⟩

end Runs

end UsacSyscalls.Project3
