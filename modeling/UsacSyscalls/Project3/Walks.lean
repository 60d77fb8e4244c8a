import UsacSyscalls.Foundation.KeyedList
import UsacSyscalls.Project3.Registry

/-!
Contract: the list walks of `update_memory_limit` and `remove_memory_limit`.

Owns the common shape of the two walks, an edit of the first entry with a given
pid, what such an edit does to a list split at that entry, and the laws of the
two walks on lists with distinct pids.

Does not own the list heads the walks are applied to; those follow from linkage
and are part of `Calls`.
-/

set_option autoImplicit false

namespace UsacSyscalls.Project3

open UsacSyscalls.Foundation.KeyedList
open UsacSyscalls.Kernel

/-! ### The first matching entry -/

/-- Replace the first entry with the pid by what `edit` makes of it. -/
def editFirst (processPid : PidT) (edit : MemoryLimitationEntry → List MemoryLimitationEntry) :
    List MemoryLimitationEntry → Int × List MemoryLimitationEntry
  | [] => (-esrch, [])
  | entry :: rest =>
      if entry.pid = processPid then (0, edit entry ++ rest)
      else
        let (code, edited) := editFirst processPid edit rest
        (code, entry :: edited)

def withLimit (memoryLimit : SizeT) (entry : MemoryLimitationEntry) : MemoryLimitationEntry :=
  { entry with memoryLimit := memoryLimit }

@[simp] theorem withLimit_pid (memoryLimit : SizeT) (entry : MemoryLimitationEntry) :
    (withLimit memoryLimit entry).pid = entry.pid :=
  rfl

theorem updateWalk_eq_editFirst (processPid : PidT) (memoryLimit : SizeT)
    (entries : List MemoryLimitationEntry) :
    updateWalk processPid memoryLimit entries =
      editFirst processPid (fun entry => [withLimit memoryLimit entry]) entries := by
  induction entries with
  | nil => rfl
  | cons entry rest inductionHypothesis =>
      unfold updateWalk editFirst
      rw [inductionHypothesis]
      rfl

theorem removeWalk_eq_editFirst (processPid : PidT) (entries : List MemoryLimitationEntry) :
    removeWalk processPid entries = editFirst processPid (fun _ => []) entries := by
  induction entries with
  | nil => rfl
  | cons entry rest inductionHypothesis =>
      unfold removeWalk editFirst
      rw [inductionHypothesis]
      rfl

@[simp] theorem listed_cons (entry : MemoryLimitationEntry) (rest : List MemoryLimitationEntry)
    (pid : PidT) : Listed (entry :: rest) pid ↔ entry.pid = pid ∨ Listed rest pid := by
  unfold Listed
  rw [List.map_cons, List.mem_cons, eq_comm]

@[simp] theorem listed_append (left right : List MemoryLimitationEntry) (pid : PidT) :
    Listed (left ++ right) pid ↔ Listed left pid ∨ Listed right pid := by
  unfold Listed
  rw [List.map_append, List.mem_append]

/-- A listed pid splits the list at its first entry. -/
theorem exists_split {entries : List MemoryLimitationEntry} {pid : PidT}
    (listed : Listed entries pid) :
    ∃ before entry after, entries = before ++ entry :: after ∧ entry.pid = pid ∧
      ¬ Listed before pid := by
  induction entries with
  | nil => exact absurd listed List.not_mem_nil
  | cons entry rest inductionHypothesis =>
      by_cases matching : entry.pid = pid
      · exact ⟨[], entry, rest, rfl, matching, List.not_mem_nil⟩
      · have inRest := ((listed_cons entry rest pid).mp listed).resolve_left matching
        obtain ⟨before, found, after, rfl, same, absent⟩ := inductionHypothesis inRest
        refine ⟨entry :: before, found, after, rfl, same, ?_⟩
        rw [listed_cons]
        exact not_or.mpr ⟨matching, absent⟩

/-- Distinct pids leave no second entry before or after the one with the pid. -/
theorem not_listed_of_split {before after : List MemoryLimitationEntry}
    {entry : MemoryLimitationEntry}
    (distinct : ((before ++ entry :: after).map MemoryLimitationEntry.pid).Nodup) :
    ¬ Listed before entry.pid ∧ ¬ Listed after entry.pid := by
  rw [List.map_append, List.map_cons] at distinct
  have middle := List.nodup_middle.mp distinct
  have absent := (List.nodup_cons.mp middle).1
  rw [List.mem_append] at absent
  exact not_or.mp absent

section Edit

variable {processPid : PidT} (edit : MemoryLimitationEntry → List MemoryLimitationEntry)

theorem editFirst_unlisted {entries : List MemoryLimitationEntry}
    (unlisted : ¬ Listed entries processPid) :
    editFirst processPid edit entries = (-esrch, entries) := by
  induction entries with
  | nil => rfl
  | cons entry rest inductionHypothesis =>
      rw [listed_cons] at unlisted
      obtain ⟨different, absent⟩ := not_or.mp unlisted
      unfold editFirst
      rw [if_neg different, inductionHypothesis absent]

theorem editFirst_split {before after : List MemoryLimitationEntry}
    {entry : MemoryLimitationEntry} (absent : ¬ Listed before processPid)
    (matching : entry.pid = processPid) :
    editFirst processPid edit (before ++ entry :: after) =
      (0, before ++ (edit entry ++ after)) := by
  induction before with
  | nil =>
      rw [List.nil_append]
      unfold editFirst
      rw [if_pos matching]
      rfl
  | cons first rest inductionHypothesis =>
      rw [listed_cons] at absent
      obtain ⟨different, absentInRest⟩ := not_or.mp absent
      rw [List.cons_append]
      unfold editFirst
      rw [if_neg different, inductionHypothesis absentInRest]
      rfl

theorem editFirst_code (entries : List MemoryLimitationEntry) :
    (editFirst processPid edit entries).1 =
      if Listed entries processPid then 0 else -esrch := by
  by_cases listed : Listed entries processPid
  · obtain ⟨before, entry, after, rfl, matching, absent⟩ := exists_split listed
    rw [if_pos listed, editFirst_split edit absent matching]
  · rw [if_neg listed, editFirst_unlisted edit listed]

theorem editFirst_code_eq_zero (entries : List MemoryLimitationEntry) :
    (editFirst processPid edit entries).1 = 0 ↔ Listed entries processPid := by
  rw [editFirst_code]
  by_cases listed : Listed entries processPid
  · simp [listed]
  · simp [listed, esrch]

theorem editFirst_unchanged {entries : List MemoryLimitationEntry}
    (failed : (editFirst processPid edit entries).1 ≠ 0) :
    (editFirst processPid edit entries).2 = entries := by
  have unlisted : ¬ Listed entries processPid := by
    intro listed
    exact failed ((editFirst_code_eq_zero edit entries).mpr listed)
  rw [editFirst_unlisted edit unlisted]

/-- A second edit of the entry that a first edit replaced. -/
theorem editFirst_editFirst {replace : MemoryLimitationEntry → MemoryLimitationEntry}
    (keeps : ∀ entry, (replace entry).pid = entry.pid) (entries : List MemoryLimitationEntry) :
    editFirst processPid edit (editFirst processPid (fun entry => [replace entry]) entries).2 =
      editFirst processPid (fun entry => edit (replace entry)) entries := by
  by_cases listed : Listed entries processPid
  · obtain ⟨before, entry, after, rfl, matching, absent⟩ := exists_split listed
    rw [editFirst_split _ absent matching, editFirst_split _ absent matching]
    exact editFirst_split edit absent ((keeps entry).trans matching)
  · rw [editFirst_unlisted _ listed, editFirst_unlisted _ listed, editFirst_unlisted _ listed]

end Edit

/-- What `edit` puts in place of an entry keeps the pid of that entry. -/
def KeepsPid (edit : MemoryLimitationEntry → List MemoryLimitationEntry) : Prop :=
  ∀ entry, ∀ edited ∈ edit entry, edited.pid = entry.pid

theorem listed_iff_part {entries : List MemoryLimitationEntry} {pid : PidT} :
    Listed entries pid ↔ part MemoryLimitationEntry.pid pid entries ≠ [] := by
  induction entries with
  | nil => simp [Listed]
  | cons entry rest inductionHypothesis =>
      rw [listed_cons]
      by_cases matching : entry.pid = pid
      · simp [part_cons_self _ matching, matching]
      · rw [part_cons_of_ne _ matching, ← inductionHypothesis]
        simp [matching]

section Local

variable {edit : MemoryLimitationEntry → List MemoryLimitationEntry} (keeps : KeepsPid edit)

include keeps

theorem KeepsPid.part_self (entry : MemoryLimitationEntry) :
    part MemoryLimitationEntry.pid entry.pid (edit entry) = edit entry := by
  apply List.filter_eq_self.mpr
  intro edited member
  exact decide_eq_true (keeps entry edited member)

theorem KeepsPid.part_of_ne {entry : MemoryLimitationEntry} {pid : PidT}
    (different : entry.pid ≠ pid) : part MemoryLimitationEntry.pid pid (edit entry) = [] := by
  apply List.filter_eq_nil_iff.mpr
  intro edited member
  rw [keeps entry edited member]
  simpa using different

theorem part_editFirst_self (pid : PidT) (entries : List MemoryLimitationEntry) :
    part MemoryLimitationEntry.pid pid (editFirst pid edit entries).2 =
      (editFirst pid edit (part MemoryLimitationEntry.pid pid entries)).2 := by
  induction entries with
  | nil => rfl
  | cons entry rest inductionHypothesis =>
      by_cases matching : entry.pid = pid
      · subst matching
        rw [part_cons_self _ rfl]
        simp only [editFirst, if_true, part_append, keeps.part_self]
      · rw [part_cons_of_ne _ matching]
        simp only [editFirst, if_neg matching]
        rw [part_cons_of_ne _ matching, inductionHypothesis]

theorem part_editFirst_of_ne {pid other : PidT} (different : other ≠ pid)
    (entries : List MemoryLimitationEntry) :
    part MemoryLimitationEntry.pid other (editFirst pid edit entries).2 =
      part MemoryLimitationEntry.pid other entries := by
  induction entries with
  | nil => rfl
  | cons entry rest inductionHypothesis =>
      by_cases matching : entry.pid = pid
      · have notOther : entry.pid ≠ other := matching.trans_ne different.symm
        simp only [editFirst, if_pos matching, part_append, keeps.part_of_ne notOther]
        rw [part_cons_of_ne _ notOther, List.nil_append]
      · simp only [editFirst, if_neg matching]
        by_cases isOther : entry.pid = other
        · rw [part_cons_self _ isOther, part_cons_self _ isOther, inductionHypothesis]
        · rw [part_cons_of_ne _ isOther, part_cons_of_ne _ isOther, inductionHypothesis]

/-- A walk concerns the entries with its own pid only. -/
theorem editFirst_local (pid : PidT) :
    LocalEdit MemoryLimitationEntry.pid pid (editFirst pid edit) where
  output := by
    intro left right same
    simp only [editFirst_code, listed_iff_part, same]
  inside := by
    intro left right same
    rw [part_editFirst_self keeps, part_editFirst_self keeps, same]
  outside := by
    intro entries other different
    exact part_editFirst_of_ne keeps different entries

end Local

theorem withLimit_keepsPid (memoryLimit : SizeT) :
    KeepsPid fun entry => [withLimit memoryLimit entry] := by
  intro entry edited member
  obtain rfl := List.mem_singleton.mp member
  exact withLimit_pid memoryLimit entry

theorem delete_keepsPid : KeepsPid fun _ => [] :=
  fun _ _ member => absurd member List.not_mem_nil

/-! ### The two walks -/

theorem updateWalk_local (processPid : PidT) (memoryLimit : SizeT) :
    LocalEdit MemoryLimitationEntry.pid processPid (updateWalk processPid memoryLimit) := by
  rw [funext (updateWalk_eq_editFirst processPid memoryLimit)]
  exact editFirst_local (withLimit_keepsPid memoryLimit) processPid

theorem removeWalk_local (processPid : PidT) :
    LocalEdit MemoryLimitationEntry.pid processPid (removeWalk processPid) := by
  rw [funext (removeWalk_eq_editFirst processPid)]
  exact editFirst_local delete_keepsPid processPid

theorem updateWalk_pids (processPid : PidT) (memoryLimit : SizeT)
    (entries : List MemoryLimitationEntry) :
    (updateWalk processPid memoryLimit entries).2.map MemoryLimitationEntry.pid =
      entries.map MemoryLimitationEntry.pid := by
  rw [updateWalk_eq_editFirst]
  by_cases listed : Listed entries processPid
  · obtain ⟨before, entry, after, rfl, matching, absent⟩ := exists_split listed
    rw [editFirst_split _ absent matching]
    simp
  · rw [editFirst_unlisted _ listed]

theorem removeWalk_sublist (processPid : PidT) (entries : List MemoryLimitationEntry) :
    (removeWalk processPid entries).2.Sublist entries := by
  rw [removeWalk_eq_editFirst]
  by_cases listed : Listed entries processPid
  · obtain ⟨before, entry, after, rfl, matching, absent⟩ := exists_split listed
    rw [editFirst_split _ absent matching]
    exact (List.sublist_cons_self entry after).append_left before
  · rw [editFirst_unlisted _ listed]

/-- After a removal from a list with distinct pids the pid has no entry. -/
theorem not_listed_removeWalk {entries : List MemoryLimitationEntry}
    (distinct : (entries.map MemoryLimitationEntry.pid).Nodup) (processPid : PidT) :
    ¬ Listed (removeWalk processPid entries).2 processPid := by
  rw [removeWalk_eq_editFirst]
  by_cases listed : Listed entries processPid
  · obtain ⟨before, entry, after, rfl, rfl, absent⟩ := exists_split listed
    rw [editFirst_split _ absent rfl, List.nil_append, listed_append]
    exact not_or.mpr (not_listed_of_split distinct)
  · rwa [editFirst_unlisted _ listed]

/-- What the walks of `update_memory_limit` and `remove_memory_limit` do to the
list they traverse. -/
structure WalkLaws (entries : List MemoryLimitationEntry) (processPid : PidT)
    (memoryLimit : SizeT) : Prop where
  update_code : (updateWalk processPid memoryLimit entries).1 = 0 ↔ Listed entries processPid
  update_entry : ∀ before entry after, entries = before ++ entry :: after →
    entry.pid = processPid →
      updateWalk processPid memoryLimit entries =
        (0, before ++ { entry with memoryLimit := memoryLimit } :: after)
  remove_code : (removeWalk processPid entries).1 = 0 ↔ Listed entries processPid
  remove_entry : ∀ before entry after, entries = before ++ entry :: after →
    entry.pid = processPid → removeWalk processPid entries = (0, before ++ after)
  unlisted : ¬ Listed entries processPid →
    updateWalk processPid memoryLimit entries = (-esrch, entries) ∧
      removeWalk processPid entries = (-esrch, entries)
  update_distinct :
    ((updateWalk processPid memoryLimit entries).2.map MemoryLimitationEntry.pid).Nodup
  remove_distinct : ((removeWalk processPid entries).2.map MemoryLimitationEntry.pid).Nodup
  update_update : ∀ later,
    updateWalk processPid later (updateWalk processPid memoryLimit entries).2 =
      updateWalk processPid later entries
  remove_update : removeWalk processPid (updateWalk processPid memoryLimit entries).2 =
    removeWalk processPid entries
  remove_remove : removeWalk processPid (removeWalk processPid entries).2 =
    (-esrch, (removeWalk processPid entries).2)
  remove_cons : ¬ Listed entries processPid →
    removeWalk processPid (⟨processPid, memoryLimit⟩ :: entries) = (0, entries)

/-- On a list with distinct pids each walk edits the one entry with the pid, or
returns `-ESRCH` and edits nothing. -/
theorem walks_edit_one_entry (entries : List MemoryLimitationEntry)
    (distinct : (entries.map MemoryLimitationEntry.pid).Nodup) (processPid : PidT)
    (memoryLimit : SizeT) : WalkLaws entries processPid memoryLimit where
  update_code := by
    rw [updateWalk_eq_editFirst]
    exact editFirst_code_eq_zero _ entries
  update_entry := by
    rintro before entry after rfl rfl
    obtain ⟨absent, -⟩ := not_listed_of_split distinct
    rw [updateWalk_eq_editFirst]
    exact editFirst_split _ absent rfl
  remove_code := by
    rw [removeWalk_eq_editFirst]
    exact editFirst_code_eq_zero _ entries
  remove_entry := by
    rintro before entry after rfl rfl
    obtain ⟨absent, -⟩ := not_listed_of_split distinct
    rw [removeWalk_eq_editFirst]
    exact editFirst_split _ absent rfl
  unlisted := by
    intro unlisted
    rw [updateWalk_eq_editFirst, removeWalk_eq_editFirst]
    exact ⟨editFirst_unlisted _ unlisted, editFirst_unlisted _ unlisted⟩
  update_distinct := by
    rwa [updateWalk_pids]
  remove_distinct := distinct.sublist ((removeWalk_sublist processPid entries).map _)
  update_update := by
    intro later
    simp only [updateWalk_eq_editFirst]
    exact editFirst_editFirst _ (withLimit_pid memoryLimit) entries
  remove_update := by
    simp only [updateWalk_eq_editFirst, removeWalk_eq_editFirst]
    exact editFirst_editFirst _ (withLimit_pid memoryLimit) entries
  remove_remove := by
    have absent := not_listed_removeWalk distinct processPid
    conv_lhs => rw [removeWalk_eq_editFirst]
    exact editFirst_unlisted _ absent
  remove_cons := by
    intro _
    unfold removeWalk
    exact if_pos rfl

/-- The entry for pid 8 is in the middle of the list. -/
theorem walks_edit_middle_entry :
    WalkLaws [⟨7, 8192⟩, ⟨8, 4096⟩, ⟨9, 16384⟩] 8 12288 ∧
      updateWalk 8 12288 [⟨7, 8192⟩, ⟨8, 4096⟩, ⟨9, 16384⟩] =
        (0, [⟨7, 8192⟩, ⟨8, 12288⟩, ⟨9, 16384⟩]) ∧
      removeWalk 8 [⟨7, 8192⟩, ⟨8, 4096⟩, ⟨9, 16384⟩] = (0, [⟨7, 8192⟩, ⟨9, 16384⟩]) :=
  ⟨walks_edit_one_entry _ (by decide) 8 12288, by decide, by decide⟩

end UsacSyscalls.Project3
