import UsacSyscalls.Kernel.Heap
import UsacSyscalls.Project3.Calls

/-!
Contract: the four memory-limit syscalls over linked entries.

Owns the calls as loads and stores on the heap, in the order of the source, the
layout of a heap that holds three lists and nothing else, and what the loops of
the calls do on such a heap, as functions of the list contents.

Does not own the edits of the lists nor whole calls; those are
`HeapRefinement`. Does not own interleaved calls.
-/

set_option autoImplicit false

namespace UsacSyscalls.Project3

open UsacSyscalls.Foundation
open UsacSyscalls.Kernel

/-! ### The calls -/

/-- The loop bodies that look for a pid: at its entry they act and leave the
loop. -/
def atPid {ρ : Type} (processPid : PidT) (action : Link → HeapCall ρ) (entry : Link) (_ : Unit) :
    HeapCall (Except ρ Unit) := do
  if (← entryPid entry) = processPid then do
    let result ← action entry
    pure (.error result)
  else pure (.ok ())

def rejectDuplicate (task : TaskRef) (_ : Link) : HeapCall Int := do
  onHeap (putTaskStruct task)
  pure (-101)

def replaceLimit (memoryLimit : SizeT) (entry : Link) : HeapCall Int := do
  setMemoryLimit entry memoryLimit
  pure 0

def deleteEntry (entry : Link) : HeapCall Int := do
  listDel entry
  kfree entry
  pure 0

/-- What follows the duplicate check. -/
def addEntry (processPid : PidT) (memoryLimit : SizeT) (task : TaskRef) : HeapCall Int := do
  match ← kmallocEntry with
  | none => do
      onHeap (putTaskStruct task)
      pure (-enomem)
  | some entry => do
      setPid entry processPid
      setMemoryLimit entry memoryLimit
      listAddLinks entry (.head (memoryLimitedProcesses .addMemoryLimit))
      onHeap (putTaskStruct task)
      pure 0

def addMemoryLimitOnHeap (fuel : Nat) (processPid : PidT) (memoryLimit : SizeT) :
    HeapCall (Option Int) := do
  let head := Link.head (memoryLimitedProcesses .addMemoryLimit)
  match ← onHeap (addAdmission processPid memoryLimit) with
  | .error code => pure (some code)
  | .ok task => do
      let first ← loadNext head
      match ← listForEachEntry head (atPid processPid (rejectDuplicate task)) fuel first () with
      | none => pure none
      | some (.error code) => pure (some code)
      | some (.ok _) => do
          let code ← addEntry processPid memoryLimit task
          pure (some code)

def updateMemoryLimitOnHeap (fuel : Nat) (processPid : PidT) (memoryLimit : SizeT) :
    HeapCall (Option Int) :=
  let head := Link.head (memoryLimitedProcesses .updateMemoryLimit)
  if processPid.toInt ≤ 0 ∨ memoryLimit ≤ 0 then pure (some (-einval))
  else do
    if !(← onHeap capable) then pure (some (-eperm))
    else do
      let first ← loadNext head
      match ← listForEachEntry head (atPid processPid (replaceLimit memoryLimit)) fuel first ()
        with
      | none => pure none
      | some (.error code) => pure (some code)
      | some (.ok _) => pure (some (-esrch))

def removeMemoryLimitOnHeap (fuel : Nat) (processPid : PidT) : HeapCall (Option Int) :=
  let head := Link.head (memoryLimitedProcesses .removeMemoryLimit)
  if processPid.toInt ≤ 0 then pure (some (-einval))
  else do
    if !(← onHeap capable) then pure (some (-eperm))
    else do
      let first ← loadNext head
      let following ← loadNext first
      match ← listForEachEntrySafe head (atPid processPid deleteEntry) fuel first following ()
        with
      | none => pure none
      | some (.error code) => pure (some code)
      | some (.ok _) => pure (some (-esrch))

/-- The loop body of `get_memory_limits`. It breaks with the count, returns
with `-EFAULT`, or goes on. -/
def copyEntry (uProcessesBuffer : Nat) (maxEntries : SizeT) (entry : Link)
    (carried : SizeT × ByteMemory) :
    HeapCall (Except (Except Int SizeT) (SizeT × ByteMemory)) :=
  if carried.1 ≥ maxEntries then pure (.error (.ok carried.1))
  else do
    let tmp := setField carried.2 0 4 (← entryPid entry)
    let tmp := setField tmp 8 8 (← entryMemoryLimit entry)
    let left ← onHeap (copyToUser (uProcessesBuffer + sizeofMemoryLimitation * carried.1.toNat)
      (tmp.load 0 sizeofMemoryLimitation))
    if left ≠ 0 then pure (.error (.error (-efault)))
    else pure (.ok (carried.1 + 1, tmp))

/-- The count with which the loop was left, or the code with which the call
returned from it. -/
def afterLoop : Except (Except Int SizeT) (SizeT × ByteMemory) → Except Int SizeT
  | .error exit => exit
  | .ok carried => .ok carried.1

/-- What follows the loop. -/
def reportCount (processesReturned : Nat) (count : SizeT) : Syscall Int := do
  let left ← copyToUser processesReturned (leBytes 8 count.toNat)
  if left ≠ 0 then pure (-efault)
  else pure count.toInt

def getMemoryLimitsOnHeap (fuel : Nat) (uProcessesBuffer : Nat) (maxEntries : SizeT)
    (processesReturned : Nat) : HeapCall (Option Int) :=
  let head := Link.head (memoryLimitedProcesses .getMemoryLimits)
  if maxEntries ≤ 0 then pure (some (-einval))
  else if uProcessesBuffer = 0 ∨ processesReturned = 0 then pure (some (-einval))
  else do
    let tmp ← onHeap (stackSlot .tmp)
    let first ← loadNext head
    match ← listForEachEntry head (copyEntry uProcessesBuffer maxEntries) fuel first (0, tmp) with
    | none => pure none
    | some result => do
        match afterLoop result with
        | .error code => pure (some code)
        | .ok count => do
            let code ← onHeap (reportCount processesReturned count)
            pure (some code)

/-! ### Layout -/

/-- The entries that stand at some references. -/
def entriesAt (heap : Heap) (refs : List EntryRef) : List MemoryLimitationEntry :=
  refs.map fun ref => heap.members (.entry ref)

/-- The three lists are rings, share no entry and together hold every entry
that is allocated. -/
structure Layout (heap : Heap) (refs : ListHead → List EntryRef) : Prop where
  rings : ∀ list, heap.links.Ring (.head list) ((refs list).map .entry)
  apart : ∀ {first second ref}, ref ∈ refs first → ref ∈ refs second → first = second
  live : ∀ {ref}, ref ∈ heap.live ↔ ∃ list, ref ∈ refs list

/-- The heap and user memory hold what the machine says. -/
structure Realises (refs : ListHead → List EntryRef) (state : HeapState) (machine : Machine) :
    Prop where
  layout : Layout state.1 refs
  heads : ∀ list, machine.heads list = entriesAt state.1 (refs list)
  user : machine.user = state.2

namespace Layout

variable {heap : Heap} {refs : ListHead → List EntryRef} (layout : Layout heap refs)

include layout

theorem nodup (list : ListHead) : (refs list).Nodup :=
  (List.nodup_cons.mp (layout.rings list).distinct).2.of_map

theorem allocated {list : ListHead} {ref : EntryRef} (member : ref ∈ refs list) :
    heap.Allocated (.entry ref) :=
  ⟨ref, layout.live.mpr ⟨list, member⟩, rfl⟩

theorem valid {list : ListHead} {link : Link}
    (member : link ∈ Link.head list :: (refs list).map .entry) : heap.Valid link := by
  rcases List.mem_cons.mp member with rfl | inRefs
  · trivial
  · obtain ⟨ref, listed, rfl⟩ := List.mem_map.mp inRefs
    exact (layout.allocated listed).valid

/-- No address belongs to two rings. -/
theorem link_apart {first second : ListHead} {link : Link}
    (inFirst : link ∈ Link.head first :: (refs first).map .entry)
    (inSecond : link ∈ Link.head second :: (refs second).map .entry) : first = second := by
  rcases List.mem_cons.mp inFirst with rfl | firstEntry
  · rcases List.mem_cons.mp inSecond with same | secondEntry
    · exact Link.head.inj same
    · obtain ⟨ref, _, absurd⟩ := List.mem_map.mp secondEntry
      exact nomatch absurd
  · obtain ⟨ref, listed, rfl⟩ := List.mem_map.mp firstEntry
    rcases List.mem_cons.mp inSecond with absurd | secondEntry
    · exact nomatch absurd
    · obtain ⟨other, otherListed, same⟩ := List.mem_map.mp secondEntry
      obtain rfl := Link.entry.inj same
      exact layout.apart listed otherListed

theorem valid_next (list : ListHead) {link : Link}
    (member : link ∈ Link.head list :: (refs list).map .entry) :
    heap.Valid (heap.links.next link) := by
  have inside := (layout.rings list).next_mem member
  exact layout.valid inside

theorem valid_prev (list : ListHead) {link : Link}
    (member : link ∈ Link.head list :: (refs list).map .entry) :
    heap.Valid (heap.links.prev link) := by
  have inside := (layout.rings list).prev_mem member
  exact layout.valid inside

end Layout

/-! ### Search loops -/

section Search

variable {env : HeapEnvironment} {heap : Heap} {user : ByteMemory} {ρ : Type} {processPid : PidT}
  {action : Link → HeapCall ρ} {head position : Link} {refs : List EntryRef} {fuel : Nat}

/-- The first of the references whose entry has the pid. -/
def findPid (heap : Heap) (processPid : PidT) (refs : List EntryRef) : Option EntryRef :=
  refs.find? fun ref => decide ((heap.members (.entry ref)).pid = processPid)

theorem runs_atPid_found {link : Link} {result : ρ} {after : HeapState}
    (allocated : heap.Allocated link) (found : (heap.members link).pid = processPid)
    (acts : RunsSafely env (action link) (heap, user) (result, after)) :
    RunsSafely env (atPid processPid action link ()) (heap, user) (.error result, after) := by
  refine .bind (runs_entryPid allocated) ?_
  rw [if_pos found]
  exact .bind acts (.pure _)

theorem runs_atPid_other {link : Link} (allocated : heap.Allocated link)
    (other : (heap.members link).pid ≠ processPid) :
    RunsSafely env (atPid processPid action link ()) (heap, user) (.ok (), heap, user) := by
  refine .bind (runs_entryPid allocated) ?_
  rw [if_neg other]
  exact .pure _

theorem findPid_cons (ref : EntryRef) :
    findPid heap processPid (ref :: refs) =
      if (heap.members (.entry ref)).pid = processPid then some ref
      else findPid heap processPid refs := by
  unfold findPid
  rw [List.find?_cons]
  by_cases found : (heap.members (.entry ref)).pid = processPid
  · simp [found]
  · simp [found]

/-- A search loop acts at the first entry with the pid. Without one it ends at
the head and has changed nothing. -/
theorem runs_search {acted : EntryRef → ρ × HeapState}
    (walk : Walk heap.links.next head position (refs.map .entry))
    (allocated : ∀ ref ∈ refs, heap.Allocated (.entry ref)) (enough : refs.length < fuel)
    (acts : ∀ ref, findPid heap processPid refs = some ref →
      RunsSafely env (action (.entry ref)) (heap, user) (acted ref)) :
    RunsSafely env (listForEachEntry head (atPid processPid action) fuel position ()) (heap, user)
      (match findPid heap processPid refs with
        | none => (some (.ok ()), heap, user)
        | some ref => (some (.error (acted ref).1), (acted ref).2)) := by
  induction refs generalizing position fuel with
  | nil =>
      obtain ⟨fuel, rfl⟩ := Nat.exists_eq_add_of_lt enough
      obtain rfl : position = head := walk
      exact runs_forEach_end
  | cons ref rest inductionHypothesis =>
      obtain ⟨fuel, rfl⟩ := Nat.exists_eq_add_of_lt (Nat.zero_lt_of_lt enough)
      obtain ⟨rfl, notHead, ahead⟩ := walk
      have here := allocated ref List.mem_cons_self
      rw [findPid_cons] at acts ⊢
      by_cases found : (heap.members (.entry ref)).pid = processPid
      · rw [if_pos found] at acts ⊢
        exact runs_forEach_exit notHead (runs_atPid_found here found (acts ref rfl))
      · rw [if_neg found] at acts ⊢
        refine runs_forEach_step notHead (runs_atPid_other here found) here.valid ?_
        rw [List.length_cons] at enough
        apply inductionHypothesis ahead _ (by omega) acts
        intro later member
        exact allocated later (List.mem_cons_of_mem _ member)

theorem runs_searchSafe {acted : EntryRef → ρ × HeapState}
    (walk : Walk heap.links.next head position (refs.map .entry))
    (allocated : ∀ ref ∈ refs, heap.Allocated (.entry ref))
    (validNext : ∀ ref ∈ refs, heap.Valid (heap.links.next (.entry ref)))
    (enough : refs.length < fuel)
    (acts : ∀ ref, findPid heap processPid refs = some ref →
      RunsSafely env (action (.entry ref)) (heap, user) (acted ref)) :
    RunsSafely env
      (listForEachEntrySafe head (atPid processPid action) fuel position
        (heap.links.next position) ()) (heap, user)
      (match findPid heap processPid refs with
        | none => (some (.ok ()), heap, user)
        | some ref => (some (.error (acted ref).1), (acted ref).2)) := by
  induction refs generalizing position fuel with
  | nil =>
      obtain ⟨fuel, rfl⟩ := Nat.exists_eq_add_of_lt enough
      obtain rfl : position = head := walk
      exact runs_forEachSafe_end
  | cons ref rest inductionHypothesis =>
      obtain ⟨fuel, rfl⟩ := Nat.exists_eq_add_of_lt (Nat.zero_lt_of_lt enough)
      obtain ⟨rfl, notHead, ahead⟩ := walk
      have here := allocated ref List.mem_cons_self
      rw [findPid_cons] at acts ⊢
      by_cases found : (heap.members (.entry ref)).pid = processPid
      · rw [if_pos found] at acts ⊢
        exact runs_forEachSafe_exit notHead (runs_atPid_found here found (acts ref rfl))
      · rw [if_neg found] at acts ⊢
        refine runs_forEachSafe_step notHead (runs_atPid_other here found)
          (validNext ref List.mem_cons_self) ?_
        rw [List.length_cons] at enough
        apply inductionHypothesis ahead _ _ (by omega) acts
        · intro later member
          exact allocated later (List.mem_cons_of_mem _ member)
        · intro later member
          exact validNext later (List.mem_cons_of_mem _ member)

end Search

/-! ### What the searches find, on list contents -/

section Contents

variable {heap : Heap} {processPid : PidT} {refs : List EntryRef}

theorem findPid_eq_none_iff :
    findPid heap processPid refs = none ↔ ¬ Listed (entriesAt heap refs) processPid := by
  simp [findPid, Listed, entriesAt]

theorem mem_of_findPid {ref : EntryRef} (found : findPid heap processPid refs = some ref) :
    ref ∈ refs :=
  List.mem_of_find?_eq_some found

/-- Members written at one entry do not show at others. -/
theorem entriesAt_setMembers_of_notMem {ref : EntryRef} (absent : ref ∉ refs)
    (members : MemoryLimitationEntry) :
    entriesAt (heap.setMembers (.entry ref) members) refs = entriesAt heap refs := by
  apply List.map_congr_left
  intro other member
  apply Function.update_of_ne
  rintro ⟨rfl⟩
  exact absent member

theorem updateWalk_entriesAt (memoryLimit : SizeT) (distinct : refs.Nodup) :
    updateWalk processPid memoryLimit (entriesAt heap refs) =
      match findPid heap processPid refs with
      | none => (-esrch, entriesAt heap refs)
      | some ref =>
          (0, entriesAt (heap.setMembers (.entry ref)
            { heap.members (.entry ref) with memoryLimit := memoryLimit }) refs) := by
  induction refs with
  | nil => rfl
  | cons ref rest inductionHypothesis =>
      obtain ⟨absent, distinctRest⟩ := List.nodup_cons.mp distinct
      have later := inductionHypothesis distinctRest
      rw [findPid_cons]
      show updateWalk processPid memoryLimit (heap.members (.entry ref) :: entriesAt heap rest) = _
      unfold updateWalk
      by_cases found : (heap.members (.entry ref)).pid = processPid
      · have kept : entriesAt (heap.setMembers (.entry ref)
            { heap.members (.entry ref) with memoryLimit := memoryLimit }) rest =
              entriesAt heap rest :=
          entriesAt_setMembers_of_notMem absent _
        rw [if_pos found, if_pos found, ← kept]
        simp [entriesAt, Heap.setMembers]
      · rw [if_neg found, if_neg found, later]
        cases searched : findPid heap processPid rest with
        | none => rfl
        | some other =>
            have different : Link.entry ref ≠ .entry other := by
              rintro ⟨rfl⟩
              exact absent (mem_of_findPid searched)
            simp [entriesAt, Heap.setMembers, different]

theorem removeWalk_entriesAt (distinct : refs.Nodup) :
    removeWalk processPid (entriesAt heap refs) =
      match findPid heap processPid refs with
      | none => (-esrch, entriesAt heap refs)
      | some ref => (0, entriesAt heap (refs.erase ref)) := by
  induction refs with
  | nil => rfl
  | cons ref rest inductionHypothesis =>
      obtain ⟨absent, distinctRest⟩ := List.nodup_cons.mp distinct
      have later := inductionHypothesis distinctRest
      rw [findPid_cons]
      show removeWalk processPid (heap.members (.entry ref) :: entriesAt heap rest) = _
      unfold removeWalk
      by_cases found : (heap.members (.entry ref)).pid = processPid
      · rw [if_pos found, if_pos found]
        simp
      · rw [if_neg found, if_neg found, later]
        cases searched : findPid heap processPid rest with
        | none => rfl
        | some other =>
            have different : ref ≠ other := by
              rintro rfl
              exact absent (mem_of_findPid searched)
            simp [entriesAt, List.erase_cons_tail, different]

end Contents

/-! ### The copy loop -/

section Copies

variable {env : HeapEnvironment} {heap : Heap} {user : ByteMemory} {head position : Link}
  {refs : List EntryRef} {fuel : Nat}

theorem plain_copyToUser (destination : Nat) (bytes : List Byte) :
    Program.Within Plain (copyToUser destination bytes) :=
  Program.within_perform trivial

/-- The copy of one filled record. -/
def recordCopy (env : Environment) (buffer : Nat) (count : SizeT) (record user : ByteMemory) :
    Nat × ByteMemory :=
  env.copyToUser (buffer + sizeofMemoryLimitation * count.toNat)
    (record.load 0 sizeofMemoryLimitation) user

theorem complete_copyRecords_cons (env : Environment) (buffer : Nat) {maxEntries count : SizeT}
    (room : ¬ count ≥ maxEntries) (entry : MemoryLimitationEntry)
    (rest : List MemoryLimitationEntry) (tmp user : ByteMemory) :
    complete env (copyRecords buffer maxEntries (entry :: rest) count tmp) (.boot user) =
      if (recordCopy env buffer count (fillTmp tmp entry) user).1 = 0 then
        complete env (copyRecords buffer maxEntries rest (count + 1) (fillTmp tmp entry))
          (.boot (recordCopy env buffer count (fillTmp tmp entry) user).2)
      else (.error (-efault), .boot (recordCopy env buffer count (fillTmp tmp entry) user).2) := by
  have unfolded : complete env (copyRecords buffer maxEntries (entry :: rest) count tmp)
      (.boot user) = complete env
        (if (recordCopy env buffer count (fillTmp tmp entry) user).1 ≠ 0 then
          pure (.error (-efault))
        else copyRecords buffer maxEntries rest (count + 1) (fillTmp tmp entry))
        (.boot (recordCopy env buffer count (fillTmp tmp entry) user).2) := by
    rw [copyRecords, if_neg room, complete, Program.run_bind]
    rfl
  rw [unfolded]
  by_cases copied : (recordCopy env buffer count (fillTmp tmp entry) user).1 = 0
  · rw [if_pos copied, if_neg (not_not.mpr copied)]
  · rw [if_neg copied, if_pos copied]
    rfl

theorem runs_copyEntry (env : HeapEnvironment) (buffer : Nat) {maxEntries count : SizeT}
    (room : ¬ count ≥ maxEntries) (tmp user : ByteMemory) {link : Link}
    (allocated : heap.Allocated link) :
    RunsSafely env (copyEntry buffer maxEntries link (count, tmp)) (heap, user)
      (if (recordCopy env.toEnvironment buffer count (fillTmp tmp (heap.members link)) user).1 = 0
        then .ok (count + 1, fillTmp tmp (heap.members link))
        else .error (.error (-efault)), heap,
        (recordCopy env.toEnvironment buffer count (fillTmp tmp (heap.members link)) user).2) := by
  unfold copyEntry
  rw [if_neg room]
  let record := fillTmp tmp (heap.members link)
  have copies : RunsSafely env
      (onHeap (copyToUser (buffer + sizeofMemoryLimitation * count.toNat)
        (record.load 0 sizeofMemoryLimitation))) (heap, user)
      ((recordCopy env.toEnvironment buffer count record user).1, heap,
        (recordCopy env.toEnvironment buffer count record user).2) :=
    runs_onHeap (plain_copyToUser _ _)
  refine .bind (runs_entryPid allocated) (.bind (runs_entryMemoryLimit allocated) ?_)
  refine .bind copies ?_
  by_cases copied :
      (recordCopy env.toEnvironment buffer count (fillTmp tmp (heap.members link)) user).1 = 0
  · rw [if_pos copied, if_neg (not_not.mpr copied)]
    exact .pure _
  · rw [if_neg copied, if_pos copied]
    exact .pure _

/-- The loop on the heap delivers what the loop over the contents delivers. -/
theorem runs_copyEntries (buffer : Nat) (maxEntries count : SizeT) (tmp : ByteMemory)
    (walk : Walk heap.links.next head position (refs.map .entry))
    (allocated : ∀ ref ∈ refs, heap.Allocated (.entry ref)) (enough : refs.length < fuel) :
    ∃ result, afterLoop result =
        (complete env.toEnvironment (copyRecords buffer maxEntries (entriesAt heap refs) count tmp)
          (.boot user)).1 ∧
      RunsSafely env
        (listForEachEntry head (copyEntry buffer maxEntries) fuel position (count, tmp))
        (heap, user)
        (some result, heap,
          (complete env.toEnvironment
            (copyRecords buffer maxEntries (entriesAt heap refs) count tmp)
            (.boot user)).2.user) := by
  induction refs generalizing position fuel count tmp user with
  | nil =>
      obtain ⟨fuel, rfl⟩ := Nat.exists_eq_add_of_lt enough
      obtain rfl : position = head := walk
      exact ⟨_, rfl, runs_forEach_end⟩
  | cons ref rest inductionHypothesis =>
      obtain ⟨fuel, rfl⟩ := Nat.exists_eq_add_of_lt (Nat.zero_lt_of_lt enough)
      obtain ⟨rfl, notHead, ahead⟩ := walk
      have here := allocated ref List.mem_cons_self
      have contents : entriesAt heap (ref :: rest) =
          heap.members (.entry ref) :: entriesAt heap rest := rfl
      rw [contents]
      by_cases full : count ≥ maxEntries
      · have listed : complete env.toEnvironment
            (copyRecords buffer maxEntries (heap.members (.entry ref) :: entriesAt heap rest) count
              tmp) (.boot user) = (.ok count, .boot user) := by
          simp [copyRecords, full]
        have breaks : RunsSafely env (copyEntry buffer maxEntries (.entry ref) (count, tmp))
            (heap, user) (.error (.ok count), heap, user) := by
          unfold copyEntry
          rw [if_pos full]
          exact .pure _
        rw [listed]
        exact ⟨.error (.ok count), rfl, runs_forEach_exit notHead breaks⟩
      · have body := runs_copyEntry env buffer full tmp user here
        rw [complete_copyRecords_cons env.toEnvironment buffer full]
        split
        · rename_i copied
          rw [if_pos copied] at body
          have shorter : rest.length < 0 + fuel := by
            rw [List.length_cons] at enough
            omega
          obtain ⟨result, same, runs⟩ := inductionHypothesis (count + 1) _ ahead
            (fun later member => allocated later (List.mem_cons_of_mem _ member)) shorter
          exact ⟨result, same, runs_forEach_step notHead body here.valid runs⟩
        · rename_i failed
          rw [if_neg failed] at body
          exact ⟨.error (.error (-efault)), rfl, runs_forEach_exit notHead body⟩

end Copies

end UsacSyscalls.Project3
