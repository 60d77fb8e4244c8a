import UsacSyscalls.Credentials.SetIds

/-!
Contract: what sequences of id changes can reach.

Owns the confinement of unprivileged tasks to the ids they started with and the
users such a task can become, the permanence of a drop to a single id, and the
agreement of the `user_struct` and the filesystem ids with the others over every
run.

Does not own the calls; they are in `SetIds`.
-/

set_option autoImplicit false

namespace UsacSyscalls.Credentials

open UsacSyscalls.Foundation
open UsacSyscalls.Kernel

/-! ### One attempt -/

section Steps

variable (task : Task) (attempt : Attempt)

def Attempt.isSetfsuid : Bool :=
  match attempt.call with
  | .user call => call.isFs
  | .group _ => false

def Attempt.isSetfsgid : Bool :=
  match attempt.call with
  | .user _ => false
  | .group call => call.isFs

theorem step_users :
    (attempt.step task).2.cred.users = task.cred.users ∨
      Installable attempt.kernel.capSetuid attempt.isSetfsuid task.cred.users
        (attempt.step task).2.cred.users := by
  obtain ⟨kernel, call⟩ := attempt
  cases call with
  | user call => exact (userCall_outcome kernel task call).users
  | group call => exact .inl (groupCall_outcome kernel task call).users

theorem step_groups :
    (attempt.step task).2.cred.groups = task.cred.groups ∨
      Installable attempt.kernel.capSetgid attempt.isSetfsgid task.cred.groups
        (attempt.step task).2.cred.groups := by
  obtain ⟨kernel, call⟩ := attempt
  cases call with
  | user call => exact .inl (userCall_outcome kernel task call).groups
  | group call => exact (groupCall_outcome kernel task call).groups

/-- Credentials that are charged to their real uid stay so. -/
theorem step_user (charged : task.cred.user = task.cred.users.real) :
    (attempt.step task).2.cred.user = (attempt.step task).2.cred.users.real := by
  obtain ⟨kernel, call⟩ := attempt
  cases call with
  | user call =>
      have outcome := userCall_outcome kernel task call
      show (call.step kernel task).2.cred.user = (call.step kernel task).2.cred.users.real
      rw [outcome.user]
      split
      next => rfl
      next same => rw [charged, not_not.mp same]
  | group call =>
      have outcome := groupCall_outcome kernel task call
      show (call.step kernel task).2.cred.user = (call.step kernel task).2.cred.users.real
      rw [outcome.user, outcome.users]
      exact charged

end Steps

theorem permitted_of_stepped {capable fs : Bool} {old new : Ids}
    (stepped : new = old ∨ Installable capable fs old new) : Permitted capable old new := by
  rcases stepped with rfl | ids
  · exact permitted_refl capable new
  · exact ids.permitted

/-! ### Confinement -/

/-- All ids are among those that the task had at the start. -/
abbrev Confined (start now : Ids) : Prop := Permitted false start now

theorem mem_of_confined {start now : Ids} (confined : Confined start now) {id : Id}
    (own : id ∈ [now.real, now.effective, now.saved]) :
    id ∈ [start.real, start.effective, start.saved] := by
  have real := confined.real.resolve_left Bool.false_ne_true
  have effective := confined.effective.resolve_left Bool.false_ne_true
  have saved := confined.saved.resolve_left Bool.false_ne_true
  simp only [List.mem_cons, List.not_mem_nil, or_false] at own
  rcases own with rfl | rfl | rfl
  · exact real
  · exact effective
  · exact saved

theorem Confined.trans {start between now : Ids} (early : Confined start between)
    (late : Confined between now) : Confined start now where
  real := late.real.imp_right (mem_of_confined early)
  effective := late.effective.imp_right (mem_of_confined early)
  saved := late.saved.imp_right (mem_of_confined early)
  filesystem := by
    right
    have own := late.filesystem.resolve_left Bool.false_ne_true
    have earlier := early.filesystem.resolve_left Bool.false_ne_true
    have split : now.filesystem ∈
        [between.real, between.effective, between.saved] ++ [between.filesystem] := own
    rcases List.mem_append.mp split with known | same
    · exact List.mem_append_left [start.filesystem] (mem_of_confined early known)
    · rw [List.mem_singleton.mp same]
      exact earlier

/-- Ids that every step keeps within its own are kept over a whole run. -/
theorem confined_final {ids : Task → Ids} {capable : Attempt → Bool}
    (steps : ∀ task attempt, Permitted (capable attempt) (ids task) (ids (attempt.step task).2))
    (task : Task) {attempts : List Attempt}
    (unprivileged : ∀ attempt ∈ attempts, capable attempt = false) :
    Confined (ids task) (ids (Transition.final Attempt.step task attempts)) := by
  apply Transition.invariant_final Attempt.step (fun _ attempt => capable attempt = false)
    (fun now => Confined (ids task) (ids now))
  · intro now attempt confined unable
    have next := steps now attempt
    rw [unable] at next
    exact Confined.trans confined next
  · exact permitted_refl false (ids task)
  · exact Transition.along_of_mem Attempt.step unprivileged task

theorem users_confined (task : Task) {attempts : List Attempt}
    (unprivileged : ∀ attempt ∈ attempts, attempt.kernel.capSetuid = false) :
    Confined task.cred.users (Transition.final Attempt.step task attempts).cred.users := by
  have steps : ∀ (task : Task) (attempt : Attempt), Permitted attempt.kernel.capSetuid
      task.cred.users (attempt.step task).2.cred.users := by
    intro task attempt
    exact permitted_of_stepped (step_users task attempt)
  exact confined_final steps task unprivileged

theorem groups_confined (task : Task) {attempts : List Attempt}
    (unprivileged : ∀ attempt ∈ attempts, attempt.kernel.capSetgid = false) :
    Confined task.cred.groups (Transition.final Attempt.step task attempts).cred.groups := by
  have steps : ∀ (task : Task) (attempt : Attempt), Permitted attempt.kernel.capSetgid
      task.cred.groups (attempt.step task).2.cred.groups := by
    intro task attempt
    exact permitted_of_stepped (step_groups task attempt)
  exact confined_final steps task unprivileged

/-- Without the capability no sequence of calls, in whatever order and with
whatever arguments, gives a task an id that it did not have at the start. A
filesystem id alone never becomes any other id. -/
theorem unprivileged_ids_confined (task : Task) {attempts : List Attempt}
    (unprivileged : ∀ attempt ∈ attempts,
      attempt.kernel.capSetuid = false ∧ attempt.kernel.capSetgid = false) :
    Confined task.cred.users (Transition.final Attempt.step task attempts).cred.users ∧
      Confined task.cred.groups (Transition.final Attempt.step task attempts).cred.groups :=
  ⟨users_confined task fun attempt member => (unprivileged attempt member).1,
    groups_confined task fun attempt member => (unprivileged attempt member).2⟩

/-- A kernel that maps ids to themselves and refuses nothing but the
capabilities. -/
def unprivilegedKernel : Answers where
  makeKuid := id
  makeKgid := id
  fromKuidMunged := id
  fromKgidMunged := id
  prepareCreds := true
  capSetuid := false
  capSetgid := false
  allocUid := true
  fixSetuid := 0
  fixSetgid := 0
  setCredUcounts := 0
  sameUcounts := true
  overlimit := false
  initUser := false

/-- A program of user 0, started by user 1000 of group 100. -/
def setuidProgram : Task := ⟨⟨⟨1000, 0, 0, 0⟩, ⟨100, 100, 100, 100⟩, 1000⟩, false⟩

/-- It exchanges its ids, asks for a foreign user and a foreign group in vain,
takes its effective id back and sets its filesystem ids. -/
def sixAttempts : List Attempt :=
  [⟨unprivilegedKernel, .user (.setreuid 0 1000)⟩, ⟨unprivilegedKernel, .user (.setuid 5)⟩,
    ⟨unprivilegedKernel, .group (.setgid 7)⟩,
    ⟨unprivilegedKernel, .user (.setresuid unchanged 0 unchanged)⟩,
    ⟨unprivilegedKernel, .user (.setfsuid 1000)⟩, ⟨unprivilegedKernel, .group (.setfsgid 100)⟩]

theorem setuidProgram_ids_confined :
    Transition.outputs Attempt.step setuidProgram sixAttempts = [0, -1, -1, 0, 0, 100] ∧
      Confined ⟨1000, 0, 0, 0⟩
        (Transition.final Attempt.step setuidProgram sixAttempts).cred.users ∧
      Confined ⟨100, 100, 100, 100⟩
        (Transition.final Attempt.step setuidProgram sixAttempts).cred.groups := by
  have unprivileged : ∀ attempt ∈ sixAttempts,
      attempt.kernel.capSetuid = false ∧ attempt.kernel.capSetgid = false := by decide
  exact ⟨by decide, unprivileged_ids_confined setuidProgram unprivileged⟩

/-! ### The users a task can become -/

theorem requested_of_valid {id : Id} (valid : id ≠ invalid) :
    requested unprivilegedKernel.makeKuid id = .ok (some id) := by
  have given : id ≠ unchanged := valid
  unfold requested
  rw [if_neg given]
  exact if_neg valid

theorem setresIds_of_known {old : Ids} {real effective saved : Id}
    (known : ∀ id ∈ [real, effective, saved], id ∈ [old.real, old.effective, old.saved]) :
    (setresIds true false old (some real) (some effective) (some saved) = .ok none ∧
        old.real = real ∧ old.effective = effective ∧ old.saved = saved) ∨
      setresIds true false old (some real) (some effective) (some saved) =
        .ok (some ⟨real, effective, saved, effective⟩) := by
  have own : ∀ id ∈ [real, effective, saved], isNew old (some id) = false := by
    intro id member
    have listed := known id member
    simp only [List.mem_cons, List.not_mem_nil, or_false] at listed
    rcases listed with rfl | rfl | rfl
    · simp [isNew]
    · simp [isNew]
    · simp [isNew]
  unfold setresIds
  split
  next same =>
    simp only [Option.all_some, Bool.and_eq_true, decide_eq_true_eq] at same
    obtain ⟨⟨sameReal, sameEffective, -⟩, sameSaved⟩ := same
    exact .inl ⟨rfl, sameReal.symm, sameEffective.symm, sameSaved.symm⟩
  next =>
    right
    rw [own real (by simp), own effective (by simp), own saved (by simp)]
    rfl

theorem commitUsers_unprivileged (task : Task) (new : Ids) :
    ∃ after, commitUsers unprivilegedKernel task new = .ok after ∧ after.cred.users = new := by
  have charged : ∃ user, chargeUser unprivilegedKernel task.cred new =
      .ok { task.cred with users := new, user := user } := by
    by_cases changed : new.real ≠ task.cred.users.real
    · exact ⟨new.real, if_pos changed⟩
    · exact ⟨task.cred.user, if_neg changed⟩
  obtain ⟨user, charged⟩ := charged
  refine ⟨⟨{ task.cred with users := new, user := user }, task.nprocExceeded⟩, ?_, rfl⟩
  unfold commitUsers
  rw [charged]
  rfl

theorem setresuid_unprivileged {task : Task} {real effective saved : Id}
    (valid : ∀ id ∈ [real, effective, saved], id ≠ invalid)
    (known : ∀ id ∈ [real, effective, saved],
      id ∈ [task.cred.users.real, task.cred.users.effective, task.cred.users.saved]) :
    ∃ after, sysSetresuid unprivilegedKernel task real effective saved = .ok after ∧
      after.cred.users.real = real ∧ after.cred.users.effective = effective ∧
      after.cred.users.saved = saved := by
  unfold sysSetresuid
  rw [requested_of_valid (valid real (by simp)), requested_of_valid (valid effective (by simp)),
    requested_of_valid (valid saved (by simp))]
  rcases setresIds_of_known known with ⟨nothing, same⟩ | installed
  · refine ⟨task, ?_, same⟩
    show (setresIds true false task.cred.users _ _ _ >>= _) = _
    rw [nothing]
    rfl
  · obtain ⟨after, done, users⟩ :=
      commitUsers_unprivileged task ⟨real, effective, saved, effective⟩
    refine ⟨after, ?_, by rw [users], by rw [users], by rw [users]⟩
    show (setresIds true false task.cred.users _ _ _ >>= _) = _
    rw [installed]
    exact done

/-- Without the capability a task can become, with any number of calls, exactly
the users whose ids are all among its real, effective and saved one. -/
theorem unprivileged_users_reachable_iff (task : Task)
    (valid : ∀ id ∈ [task.cred.users.real, task.cred.users.effective, task.cred.users.saved],
      id ≠ invalid)
    (real effective saved : Id) :
    (∃ attempts : List Attempt, (∀ attempt ∈ attempts, attempt.kernel.capSetuid = false) ∧
        (Transition.final Attempt.step task attempts).cred.users.real = real ∧
        (Transition.final Attempt.step task attempts).cred.users.effective = effective ∧
        (Transition.final Attempt.step task attempts).cred.users.saved = saved) ↔
      ∀ id ∈ [real, effective, saved],
        id ∈ [task.cred.users.real, task.cred.users.effective, task.cred.users.saved] := by
  constructor
  · rintro ⟨attempts, unprivileged, rfl, rfl, rfl⟩ id member
    exact mem_of_confined (users_confined task unprivileged) member
  · -- One `setresuid` that names all three ids is enough.
    intro known
    obtain ⟨after, done, became⟩ :=
      setresuid_unprivileged (fun id member => valid id (known id member)) known
    have stepped : (Transition.final Attempt.step task
        [⟨unprivilegedKernel, .user (.setresuid real effective saved)⟩]) = after := by
      show (finish task (sysSetresuid unprivilegedKernel task real effective saved)).2 = after
      rw [done]
      rfl
    refine ⟨[⟨unprivilegedKernel, .user (.setresuid real effective saved)⟩], ?_, ?_⟩
    · intro attempt member
      rw [List.mem_singleton.mp member]
      rfl
    · rw [stepped]
      exact became

/-- The program can exchange its ids, and cannot become user 5 in any of them. -/
theorem setuidProgram_users_reachable :
    (∃ attempts : List Attempt, (∀ attempt ∈ attempts, attempt.kernel.capSetuid = false) ∧
        (Transition.final Attempt.step setuidProgram attempts).cred.users.real = 0 ∧
        (Transition.final Attempt.step setuidProgram attempts).cred.users.effective = 1000 ∧
        (Transition.final Attempt.step setuidProgram attempts).cred.users.saved = 0) ∧
      ¬ ∃ attempts : List Attempt, (∀ attempt ∈ attempts, attempt.kernel.capSetuid = false) ∧
        (Transition.final Attempt.step setuidProgram attempts).cred.users.real = 0 ∧
        (Transition.final Attempt.step setuidProgram attempts).cred.users.effective = 0 ∧
        (Transition.final Attempt.step setuidProgram attempts).cred.users.saved = 5 := by
  have reachable := unprivileged_users_reachable_iff setuidProgram
    (by simp [setuidProgram, invalid])
  exact ⟨(reachable 0 1000 0).mpr (by simp [setuidProgram]),
    mt (reachable 0 0 5).mp (by simp [setuidProgram])⟩

/-! ### Agreement with the real and the effective ids -/

/-- The user structure that is charged is the real user's, and accesses to files
are made with the effective ids. -/
structure Coherent (cred : Cred) : Prop where
  charged : cred.user = cred.users.real
  users : cred.users.filesystem = cred.users.effective
  groups : cred.groups.filesystem = cred.groups.effective

/-- Filesystem ids that every ordinary step leaves with the effective ones stay
there over a run of such steps. -/
theorem shadowed_final (ids : Task → Ids) {capable fs : Attempt → Bool}
    (steps : ∀ task attempt, ids (attempt.step task).2 = ids task ∨
      Installable (capable attempt) (fs attempt) (ids task) (ids (attempt.step task).2))
    {task : Task} (shadowed : (ids task).filesystem = (ids task).effective)
    {attempts : List Attempt} (ordinary : ∀ attempt ∈ attempts, fs attempt = false) :
    (ids (Transition.final Attempt.step task attempts)).filesystem =
      (ids (Transition.final Attempt.step task attempts)).effective := by
  apply Transition.invariant_final Attempt.step (fun _ attempt => fs attempt = false)
    (fun now => (ids now).filesystem = (ids now).effective)
  · intro now attempt before other
    rcases steps now attempt with same | installed
    · rw [same]
      exact before
    · exact installed.shadows other
  · exact shadowed
  · exact Transition.along_of_mem Attempt.step ordinary task

/-- Coherent credentials stay charged to their real user whatever is called.
Their filesystem ids keep following the effective ones unless `setfsuid`, or for
groups `setfsgid`, parts them. -/
theorem coherent_final (task : Task) (coherent : Coherent task.cred) (attempts : List Attempt) :
    (Transition.final Attempt.step task attempts).cred.user =
        (Transition.final Attempt.step task attempts).cred.users.real ∧
      ((∀ attempt ∈ attempts, attempt.isSetfsuid = false) →
        (Transition.final Attempt.step task attempts).cred.users.filesystem =
          (Transition.final Attempt.step task attempts).cred.users.effective) ∧
      ((∀ attempt ∈ attempts, attempt.isSetfsgid = false) →
        (Transition.final Attempt.step task attempts).cred.groups.filesystem =
          (Transition.final Attempt.step task attempts).cred.groups.effective) := by
  refine ⟨?_, ?_, ?_⟩
  · apply Transition.invariant_final Attempt.step (fun _ _ => True)
      (fun now => now.cred.user = now.cred.users.real)
    · intro now attempt charged _
      exact step_user now attempt charged
    · exact coherent.charged
    · exact Transition.along_of_mem Attempt.step (fun _ _ => trivial) task
  · exact shadowed_final (fun now => now.cred.users) step_users coherent.users
  · exact shadowed_final (fun now => now.cred.groups) step_groups coherent.groups

/-- A change of user, a change of group in vain, a filesystem group of its own
and another change of user. -/
def fourAttempts : List Attempt :=
  [⟨unprivilegedKernel, .user (.setreuid 0 7)⟩, ⟨unprivilegedKernel, .group (.setgid 8)⟩,
    ⟨unprivilegedKernel, .group (.setfsgid 100)⟩, ⟨unprivilegedKernel, .user (.setuid 0)⟩]

theorem coherent_after_fourAttempts :
    ∃ final : Task,
      final = Transition.final Attempt.step
        ⟨⟨⟨1000, 0, 7, 0⟩, ⟨100, 50, 50, 50⟩, 1000⟩, false⟩ fourAttempts ∧
      final.cred = ⟨⟨0, 0, 7, 0⟩, ⟨100, 50, 50, 100⟩, 0⟩ ∧
      final.cred.user = final.cred.users.real ∧
      final.cred.users.filesystem = final.cred.users.effective := by
  have coherent := coherent_final ⟨⟨⟨1000, 0, 7, 0⟩, ⟨100, 50, 50, 50⟩, 1000⟩, false⟩
    ⟨rfl, rfl, rfl⟩ fourAttempts
  exact ⟨_, rfl, by decide, coherent.1, coherent.2.1 (by decide)⟩

/-! ### Errors -/

/-- A failure is a negative code. -/
def Negative {α : Type} (result : Except Int α) : Prop := ∀ code, result = .error code → code < 0

theorem negative_ok {α : Type} (value : α) : Negative (.ok value) := by
  intro code absurdity
  cases absurdity

theorem negative_error {α : Type} {code : Int} (below : code < 0) :
    Negative (.error code : Except Int α) := by
  intro other same
  cases same
  exact below

theorem negative_bind {α β : Type} {first : Except Int α} {next : α → Except Int β}
    (negative : Negative first) (rest : ∀ value, Negative (next value)) :
    Negative (first >>= next) := by
  cases first with
  | error code => exact negative_error (negative code rfl)
  | ok value => exact rest value

theorem negative_ite {α : Type} {condition : Prop} [Decidable condition]
    {left right : Except Int α} (yes : condition → Negative left) (no : Negative right) :
    Negative (if condition then left else right) := by
  by_cases holds : condition
  · rw [if_pos holds]
    exact yes holds
  · rw [if_neg holds]
    exact no

section Negative

theorem negative_requested (make : Id → Id) (id : Id) : Negative (requested make id) :=
  negative_ite (fun _ => negative_ok _)
    (negative_ite (fun _ => negative_error (by decide)) (negative_ok _))

theorem negative_required (make : Id → Id) (id : Id) : Negative (required make id) :=
  negative_ite (fun _ => negative_error (by decide)) (negative_ok _)

variable (prepared capable : Bool) (old : Ids)

theorem negative_setreIds (real effective : Option Id) :
    Negative (setreIds prepared capable old real effective) :=
  negative_ite (fun _ => negative_error (by decide))
    (negative_ite (fun _ => negative_error (by decide))
      (negative_ite (fun _ => negative_error (by decide)) (negative_ok _)))

theorem negative_setIds (id : Id) : Negative (setIds prepared capable old id) :=
  negative_ite (fun _ => negative_error (by decide))
    (negative_ite (fun _ => negative_ok _)
      (negative_ite (fun _ => negative_ok _) (negative_error (by decide))))

theorem negative_setresIds (real effective saved : Option Id) :
    Negative (setresIds prepared capable old real effective saved) :=
  negative_ite (fun _ => negative_ok _)
    (negative_ite (fun _ => negative_error (by decide))
      (negative_ite (fun _ => negative_error (by decide)) (negative_ok _)))

theorem negative_commitUsers (kernel : Answers) (task : Task) (new : Ids) :
    Negative (commitUsers kernel task new) := by
  apply negative_bind
  · exact negative_ite
      (fun _ => negative_ite (fun _ => negative_ok _) (negative_error (by decide)))
      (negative_ok _)
  · intro cred
    exact negative_ite negative_error (negative_ite negative_error (negative_ok _))

end Negative

/-- A call that returns 0 has committed. -/
theorem ok_of_zero {task : Task} {result : Except Int Task} (negative : Negative result)
    (zero : (finish task result).1 = 0) : ∃ after, result = .ok after := by
  cases result with
  | error code =>
      have below := negative code rfl
      have same : code = 0 := zero
      omega
  | ok after => exact ⟨after, rfl⟩

/-! ### Dropping an identity -/

def single (id : Id) : Ids := ⟨id, id, id, id⟩

/-- The calls that name one uid for everything. -/
def drops (uid : Id) : List UserCall :=
  [.setuid uid, .setreuid uid uid, .setresuid uid uid uid]

theorem confined_single {id : Id} {now : Ids} (confined : Confined (single id) now) :
    now = single id := by
  have real := confined.real.resolve_left Bool.false_ne_true
  have effective := confined.effective.resolve_left Bool.false_ne_true
  have saved := confined.saved.resolve_left Bool.false_ne_true
  have filesystem := confined.filesystem.resolve_left Bool.false_ne_true
  simp only [single, List.mem_cons, List.not_mem_nil, or_false, or_self] at *
  cases now
  simp_all

section Drop

variable {kernel : Answers} {task : Task} {uid : Id}

theorem users_of_commit {new : Ids} {after : Task}
    (done : commitUsers kernel task new = .ok after) : after.cred.users = new := by
  obtain ⟨cred, charged, installed⟩ := commitUsers_ok done
  rw [installed, chargeUser_ok charged]

theorem requested_ok {make : Id → Id} {found : Option Id} (given : uid ≠ unchanged)
    (done : requested make uid = .ok found) : found = some (make uid) := by
  unfold requested at done
  rw [if_neg given] at done
  split at done
  next => cases done
  next =>
    cases done
    rfl

theorem setuid_installs {after : Task} (privileged : kernel.capSetuid = true)
    (done : sysSetuid kernel task uid = .ok after) :
    after.cred.users = single (kernel.makeKuid uid) := by
  obtain ⟨kuid, valid, done⟩ := ok_of_bind done
  obtain ⟨new, ids, done⟩ := ok_of_bind done
  have argument : kuid = kernel.makeKuid uid := by
    unfold required at valid
    split at valid
    next => cases valid
    next =>
      cases valid
      rfl
  rcases setIds_ok ids with ⟨-, same⟩ | ⟨unable, -, -⟩
  · rw [users_of_commit done, same, argument]
    rfl
  · rw [privileged] at unable
    cases unable

theorem setreuid_installs {after : Task} (given : uid ≠ unchanged)
    (done : sysSetreuid kernel task uid uid = .ok after) :
    after.cred.users = single (kernel.makeKuid uid) := by
  obtain ⟨kruid, real, done⟩ := ok_of_bind done
  obtain ⟨keuid, effective, done⟩ := ok_of_bind done
  obtain ⟨new, ids, done⟩ := ok_of_bind done
  rw [users_of_commit done, (setreIds_ok ids).1, requested_ok given real,
    requested_ok given effective]
  rfl

theorem setresIds_none {prepared capable : Bool} {old : Ids} {id : Id}
    (nothing : setresIds prepared capable old (some id) (some id) (some id) = .ok none) :
    old = single id := by
  unfold setresIds at nothing
  split at nothing
  next same =>
    simp only [Option.all_some, Bool.and_eq_true, decide_eq_true_eq] at same
    obtain ⟨⟨real, effective, filesystem⟩, saved⟩ := same
    cases old
    simp_all [single]
  next =>
    split at nothing
    next => cases nothing
    next =>
      split at nothing
      next => cases nothing
      next => cases nothing

theorem setresuid_installs {after : Task} (given : uid ≠ unchanged)
    (done : sysSetresuid kernel task uid uid uid = .ok after) :
    after.cred.users = single (kernel.makeKuid uid) := by
  obtain ⟨kruid, real, done⟩ := ok_of_bind done
  obtain ⟨keuid, effective, done⟩ := ok_of_bind done
  obtain ⟨ksuid, saved, done⟩ := ok_of_bind done
  obtain ⟨found, ids, done⟩ := ok_of_bind done
  rw [requested_ok given real, requested_ok given effective, requested_ok given saved] at ids
  cases found with
  | none =>
      cases done
      exact setresIds_none ids
  | some new =>
      rw [users_of_commit done, setresIds_ok ids]
      rfl

theorem drop_installs {call : UserCall} (given : uid ≠ unchanged) (drop : call ∈ drops uid)
    (privileged : call = .setuid uid → kernel.capSetuid = true)
    (zero : (call.step kernel task).1 = 0) :
    (call.step kernel task).2.cred.users = single (kernel.makeKuid uid) := by
  simp only [drops, List.mem_cons, List.not_mem_nil, or_false] at drop
  rcases drop with rfl | rfl | rfl
  · have negative : Negative (sysSetuid kernel task uid) :=
      negative_bind (negative_required _ _) fun _ =>
        negative_bind (negative_setIds _ _ _ _) fun _ => negative_commitUsers _ _ _
    obtain ⟨after, done⟩ := ok_of_zero negative zero
    simp only [UserCall.step, done, finish]
    exact setuid_installs (privileged rfl) done
  · have negative : Negative (sysSetreuid kernel task uid uid) :=
      negative_bind (negative_requested _ _) fun _ =>
        negative_bind (negative_requested _ _) fun _ =>
          negative_bind (negative_setreIds _ _ _ _ _) fun _ => negative_commitUsers _ _ _
    obtain ⟨after, done⟩ := ok_of_zero negative zero
    simp only [UserCall.step, done, finish]
    exact setreuid_installs given done
  · have negative : Negative (sysSetresuid kernel task uid uid uid) := by
      apply negative_bind (negative_requested _ _)
      intro _
      apply negative_bind (negative_requested _ _)
      intro _
      apply negative_bind (negative_requested _ _)
      intro _
      apply negative_bind (negative_setresIds _ _ _ _ _ _)
      intro found
      cases found with
      | none => exact negative_ok _
      | some new => exact negative_commitUsers _ _ _
    obtain ⟨after, done⟩ := ok_of_zero negative zero
    simp only [UserCall.step, done, finish]
    exact setresuid_installs given done

end Drop

/-- A drop that returned 0 is for good: from then on all four user ids are the
one that was named, whatever is called, as long as the capability stays away. A
plain `setuid` drops only with the capability. -/
theorem drop_is_permanent {kernel : Answers} {task : Task} {uid : Id} {call : UserCall}
    (given : uid ≠ unchanged) (drop : call ∈ drops uid)
    (privileged : call = .setuid uid → kernel.capSetuid = true)
    (zero : (call.step kernel task).1 = 0) {attempts : List Attempt}
    (unprivileged : ∀ attempt ∈ attempts, attempt.kernel.capSetuid = false) :
    (Transition.final Attempt.step (call.step kernel task).2 attempts).cred.users =
      single (kernel.makeKuid uid) := by
  have confined := users_confined (call.step kernel task).2 unprivileged
  rw [drop_installs given drop privileged zero] at confined
  exact confined_single confined

def requestsForRoot : List Attempt :=
  [⟨unprivilegedKernel, .user (.setuid 0)⟩, ⟨unprivilegedKernel, .user (.setreuid 0 0)⟩,
    ⟨unprivilegedKernel, .user (.setresuid unchanged 0 unchanged)⟩,
    ⟨unprivilegedKernel, .user (.setfsuid 0)⟩]

/-- A task of root that has dropped to user 1000 asks in vain for root. -/
theorem drop_is_permanent_for_root :
    ∃ dropped : Task,
      dropped = (UserCall.step { unprivilegedKernel with capSetuid := true }
        ⟨⟨single 0, single 0, 0⟩, false⟩ (.setresuid 1000 1000 1000)).2 ∧
      Transition.outputs Attempt.step dropped requestsForRoot = [-1, -1, -1, 1000] ∧
      (Transition.final Attempt.step dropped requestsForRoot).cred.users = single 1000 := by
  refine ⟨_, rfl, by decide, ?_⟩
  exact drop_is_permanent (by decide) (by simp [drops]) (by simp) (by decide) (by decide)

end UsacSyscalls.Credentials
