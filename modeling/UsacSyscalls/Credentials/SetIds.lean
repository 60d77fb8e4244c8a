import UsacSyscalls.Foundation.Transition
import UsacSyscalls.Kernel.Data

/-!
Contract: the calls of `kernel/sys.c` that change the user and group ids of a
task.

Owns the eight calls with `set_user` and `flag_nproc_exceeded`, the answers of
the rest of the kernel that they depend on, one step for each call, and the law
of a step: which ids it can install, and what it leaves alone.

Does not own runs of several calls; those are in `Privileges`.
-/

set_option autoImplicit false

namespace UsacSyscalls.Credentials

open UsacSyscalls.Foundation
open UsacSyscalls.Kernel

/-! ### Ids -/

/-- `uid_t` and `gid_t`, and the value of a `kuid_t` or `kgid_t`. -/
abbrev Id := BitVec 32

/-- `(uid_t) -1` in an argument. -/
def unchanged : Id := -1

/-- `INVALID_UID` and `INVALID_GID`. -/
def invalid : Id := -1

def eagain : Int := 11

/-- The four ids of one kind: for users `uid`, `euid`, `suid` and `fsuid`. -/
structure Ids where
  real : Id
  effective : Id
  saved : Id
  filesystem : Id
deriving DecidableEq, Repr

/-- `user` stands for the `user_struct` of that uid. -/
structure Cred where
  users : Ids
  groups : Ids
  user : Id
deriving DecidableEq, Repr

/-- The current task; `nprocExceeded` is its flag `PF_NPROC_EXCEEDED`. -/
structure Task where
  cred : Cred
  nprocExceeded : Bool
deriving DecidableEq, Repr

/-- What the rest of the kernel answers during one call. The two `fix` members
are the results of the security hooks, `capSetuid` and `capSetgid` those of
`ns_capable_setid`. -/
structure Answers where
  makeKuid : Id → Id
  makeKgid : Id → Id
  fromKuidMunged : Id → Id
  fromKgidMunged : Id → Id
  prepareCreds : Bool
  capSetuid : Bool
  capSetgid : Bool
  allocUid : Bool
  fixSetuid : Int
  fixSetgid : Int
  setCredUcounts : Int
  sameUcounts : Bool
  overlimit : Bool
  initUser : Bool

/-! ### The part that users and groups share -/

/-- An argument that may be `-1`. -/
def requested (make : Id → Id) (id : Id) : Except Int (Option Id) :=
  if id = unchanged then .ok none
  else if make id = invalid then .error (-einval)
  else .ok (some (make id))

/-- An argument that must be an id. -/
def required (make : Id → Id) (id : Id) : Except Int Id :=
  if make id = invalid then .error (-einval) else .ok (make id)

/-- The assignments of `setreuid` and `setregid`: the saved id follows the
effective one if a real id is given or the effective id leaves the old real
one. -/
def setreNew (old : Ids) (real effective : Option Id) : Ids :=
  let new := { old with real := real.getD old.real, effective := effective.getD old.effective }
  let new :=
    if real.isSome || effective.any (· ≠ old.real) then { new with saved := new.effective }
    else new
  { new with filesystem := new.effective }

/-- The ids that `setreuid` and `setregid` install. -/
def setreIds (prepared capable : Bool) (old : Ids) (real effective : Option Id) :
    Except Int Ids :=
  if prepared = false then .error (-enomem)
  else if real.any fun id => id ≠ old.real && id ≠ old.effective && !capable then .error (-eperm)
  else if effective.any fun id =>
      id ≠ old.real && id ≠ old.effective && id ≠ old.saved && !capable then .error (-eperm)
  else .ok (setreNew old real effective)

/-- The ids that `setuid` and `setgid` install. -/
def setIds (prepared capable : Bool) (old : Ids) (id : Id) : Except Int Ids :=
  if prepared = false then .error (-enomem)
  else if capable then .ok ⟨id, id, id, id⟩
  else if id = old.real || id = old.saved then .ok { old with effective := id, filesystem := id }
  else .error (-eperm)

/-- An id that the task does not have yet. -/
def isNew (old : Ids) (id : Option Id) : Bool :=
  id.any fun id => id ≠ old.real && id ≠ old.effective && id ≠ old.saved

/-- The ids that `setresuid` and `setresgid` install, if there is anything to
do. -/
def setresIds (prepared capable : Bool) (old : Ids) (real effective saved : Option Id) :
    Except Int (Option Ids) :=
  if real.all (· = old.real) &&
      effective.all (fun id => id = old.effective && id = old.filesystem) &&
      saved.all (· = old.saved) then .ok none
  else if (isNew old real || isNew old effective || isNew old saved) && !capable then
    .error (-eperm)
  else if prepared = false then .error (-enomem)
  else
    .ok (some
      { real := real.getD old.real
        effective := effective.getD old.effective
        saved := saved.getD old.saved
        filesystem := effective.getD old.effective })

/-- The ids after `setfsuid` or `setfsgid`; these calls have no error. -/
def setfsIds (prepared capable : Bool) (fix : Int) (old : Ids) (id : Id) : Ids :=
  if id = invalid then old
  else if prepared = false then old
  else if id = old.real || id = old.effective || id = old.saved || id = old.filesystem ||
      capable then
    if id ≠ old.filesystem then
      if fix = 0 then { old with filesystem := id } else old
    else old
  else old

/-! ### The calls -/

def setUser (kernel : Answers) (new : Cred) : Except Int Cred :=
  if kernel.allocUid then .ok { new with user := new.users.real } else .error (-eagain)

def flagNprocExceeded (kernel : Answers) (flag : Bool) : Bool :=
  if kernel.sameUcounts then flag else kernel.overlimit && !kernel.initUser

/-- The new credentials, with the `user_struct` replaced if the uid is. -/
def chargeUser (kernel : Answers) (old : Cred) (new : Ids) : Except Int Cred :=
  if new.real ≠ old.users.real then setUser kernel { old with users := new }
  else .ok { old with users := new }

/-- The second half of the user calls, from `set_user` on. -/
def commitUsers (kernel : Answers) (task : Task) (new : Ids) : Except Int Task := do
  let cred ← chargeUser kernel task.cred new
  if kernel.fixSetuid < 0 then .error kernel.fixSetuid
  else if kernel.setCredUcounts < 0 then .error kernel.setCredUcounts
  else .ok ⟨cred, flagNprocExceeded kernel task.nprocExceeded⟩

/-- The second half of the group calls. -/
def commitGroups (kernel : Answers) (task : Task) (new : Ids) : Except Int Task :=
  if kernel.fixSetgid < 0 then .error kernel.fixSetgid
  else .ok { task with cred := { task.cred with groups := new } }

section Calls

variable (kernel : Answers) (task : Task)

def sysSetreuid (ruid euid : Id) : Except Int Task := do
  let kruid ← requested kernel.makeKuid ruid
  let keuid ← requested kernel.makeKuid euid
  let new ← setreIds kernel.prepareCreds kernel.capSetuid task.cred.users kruid keuid
  commitUsers kernel task new

def sysSetregid (rgid egid : Id) : Except Int Task := do
  let krgid ← requested kernel.makeKgid rgid
  let kegid ← requested kernel.makeKgid egid
  let new ← setreIds kernel.prepareCreds kernel.capSetgid task.cred.groups krgid kegid
  commitGroups kernel task new

def sysSetuid (uid : Id) : Except Int Task := do
  let kuid ← required kernel.makeKuid uid
  let new ← setIds kernel.prepareCreds kernel.capSetuid task.cred.users kuid
  commitUsers kernel task new

def sysSetgid (gid : Id) : Except Int Task := do
  let kgid ← required kernel.makeKgid gid
  let new ← setIds kernel.prepareCreds kernel.capSetgid task.cred.groups kgid
  commitGroups kernel task new

def sysSetresuid (ruid euid suid : Id) : Except Int Task := do
  let kruid ← requested kernel.makeKuid ruid
  let keuid ← requested kernel.makeKuid euid
  let ksuid ← requested kernel.makeKuid suid
  match ← setresIds kernel.prepareCreds kernel.capSetuid task.cred.users kruid keuid ksuid with
  | none => .ok task
  | some new => commitUsers kernel task new

def sysSetresgid (rgid egid sgid : Id) : Except Int Task := do
  let krgid ← requested kernel.makeKgid rgid
  let kegid ← requested kernel.makeKgid egid
  let ksgid ← requested kernel.makeKgid sgid
  match ← setresIds kernel.prepareCreds kernel.capSetgid task.cred.groups krgid kegid ksgid with
  | none => .ok task
  | some new => commitGroups kernel task new

/-- The returned value is the old id, whether or not it was replaced. -/
def sysSetfsuid (uid : Id) : Int × Task :=
  ((kernel.fromKuidMunged task.cred.users.filesystem).toNat,
    { task with cred := { task.cred with
      users := setfsIds kernel.prepareCreds kernel.capSetuid kernel.fixSetuid task.cred.users
        (kernel.makeKuid uid) } })

def sysSetfsgid (gid : Id) : Int × Task :=
  ((kernel.fromKgidMunged task.cred.groups.filesystem).toNat,
    { task with cred := { task.cred with
      groups := setfsIds kernel.prepareCreds kernel.capSetgid kernel.fixSetgid task.cred.groups
        (kernel.makeKgid gid) } })

end Calls

/-! ### Steps -/

inductive UserCall where
  | setreuid (ruid euid : Id)
  | setuid (uid : Id)
  | setresuid (ruid euid suid : Id)
  | setfsuid (uid : Id)
deriving DecidableEq, Repr

inductive GroupCall where
  | setregid (rgid egid : Id)
  | setgid (gid : Id)
  | setresgid (rgid egid sgid : Id)
  | setfsgid (gid : Id)
deriving DecidableEq, Repr

inductive CredCall where
  | user (call : UserCall)
  | group (call : GroupCall)
deriving DecidableEq, Repr

/-- `commit_creds` returns 0, and after `abort_creds` the old credentials stand. -/
def finish (task : Task) : Except Int Task → Int × Task
  | .ok new => (0, new)
  | .error code => (code, task)

def UserCall.step (kernel : Answers) (task : Task) : UserCall → Int × Task
  | .setreuid ruid euid => finish task (sysSetreuid kernel task ruid euid)
  | .setuid uid => finish task (sysSetuid kernel task uid)
  | .setresuid ruid euid suid => finish task (sysSetresuid kernel task ruid euid suid)
  | .setfsuid uid => sysSetfsuid kernel task uid

def GroupCall.step (kernel : Answers) (task : Task) : GroupCall → Int × Task
  | .setregid rgid egid => finish task (sysSetregid kernel task rgid egid)
  | .setgid gid => finish task (sysSetgid kernel task gid)
  | .setresgid rgid egid sgid => finish task (sysSetresgid kernel task rgid egid sgid)
  | .setfsgid gid => sysSetfsgid kernel task gid

/-- A call, and the kernel it meets. -/
structure Attempt where
  kernel : Answers
  call : CredCall

def Attempt.step (task : Task) (attempt : Attempt) : Int × Task :=
  match attempt.call with
  | .user call => call.step attempt.kernel task
  | .group call => call.step attempt.kernel task

/-! ### Which ids are installed -/

/-- The new ids that a call may install: those the task has, unless it is
capable. The filesystem id gives no right to any other. -/
structure Permitted (capable : Bool) (old new : Ids) : Prop where
  real : capable = true ∨ new.real ∈ [old.real, old.effective, old.saved]
  effective : capable = true ∨ new.effective ∈ [old.real, old.effective, old.saved]
  saved : capable = true ∨ new.saved ∈ [old.real, old.effective, old.saved]
  filesystem : capable = true ∨
    new.filesystem ∈ [old.real, old.effective, old.saved, old.filesystem]

theorem permitted_refl (capable : Bool) (ids : Ids) : Permitted capable ids ids := by
  constructor <;> simp

theorem permitted_of_capable {capable : Bool} (able : capable = true) (old new : Ids) :
    Permitted capable old new :=
  ⟨.inl able, .inl able, .inl able, .inl able⟩

/-- An argument that passes a check against `known` ids is absent or one of
them. -/
theorem known_of_check {argument : Option Id} {check : Id → Bool} {known : List Id}
    (passed : ¬ argument.any check = true) (strict : ∀ id, id ∉ known → check id = true) :
    ∀ id ∈ argument, id ∈ known := by
  intro id given
  by_contra other
  cases given
  exact passed (strict id other)

theorem getD_mem {argument : Option Id} {known : List Id} {current : Id}
    (fine : ∀ id ∈ argument, id ∈ known) (own : current ∈ known) :
    argument.getD current ∈ known := by
  cases argument with
  | none => exact own
  | some id => exact fine id rfl

section SetreNew

variable (old : Ids) (real effective : Option Id)

theorem setreNew_real : (setreNew old real effective).real = real.getD old.real := by
  unfold setreNew
  split
  · rfl
  · rfl

theorem setreNew_effective :
    (setreNew old real effective).effective = effective.getD old.effective := by
  unfold setreNew
  split
  · rfl
  · rfl

theorem setreNew_filesystem :
    (setreNew old real effective).filesystem = (setreNew old real effective).effective := by
  unfold setreNew
  rfl

theorem setreNew_saved :
    (setreNew old real effective).saved =
      if real.isSome || effective.any (· ≠ old.real) then effective.getD old.effective
      else old.saved := by
  unfold setreNew
  split
  · rfl
  · rfl

end SetreNew

theorem setreIds_ok {prepared capable : Bool} {old new : Ids} {real effective : Option Id}
    (done : setreIds prepared capable old real effective = .ok new) :
    new = setreNew old real effective ∧
      (¬ real.any fun id => id ≠ old.real && id ≠ old.effective && !capable) ∧
      ¬ effective.any fun id =>
        id ≠ old.real && id ≠ old.effective && id ≠ old.saved && !capable := by
  unfold setreIds at done
  split at done
  next => cases done
  next =>
    split at done
    next => cases done
    next realPassed =>
      split at done
      next => cases done
      next effectivePassed =>
        cases done
        exact ⟨rfl, realPassed, effectivePassed⟩

theorem setreIds_permitted {prepared capable : Bool} {old new : Ids} {real effective : Option Id}
    (done : setreIds prepared capable old real effective = .ok new) :
    Permitted capable old new := by
  cases capable with
  | true => exact permitted_of_capable rfl old new
  | false =>
      obtain ⟨rfl, realPassed, effectivePassed⟩ := setreIds_ok done
      have realKnown : ∀ id ∈ real, id ∈ [old.real, old.effective, old.saved] := by
        apply known_of_check realPassed
        intro id other
        simp at other
        simp [other]
      have effectiveKnown : ∀ id ∈ effective, id ∈ [old.real, old.effective, old.saved] := by
        apply known_of_check effectivePassed
        intro id other
        simp at other
        simp [other]
      have newEffective := getD_mem effectiveKnown (by simp : old.effective ∈ _)
      constructor
      · right
        rw [setreNew_real]
        exact getD_mem realKnown (by simp)
      · right
        rw [setreNew_effective]
        exact newEffective
      · right
        rw [setreNew_saved]
        split
        · exact newEffective
        · simp
      · right
        rw [setreNew_filesystem, setreNew_effective]
        exact List.mem_append_left [old.filesystem] newEffective

theorem setIds_ok {prepared capable : Bool} {old new : Ids} {id : Id}
    (done : setIds prepared capable old id = .ok new) :
    (capable = true ∧ new = ⟨id, id, id, id⟩) ∨
      (capable = false ∧ (id = old.real ∨ id = old.saved) ∧
        new = { old with effective := id, filesystem := id }) := by
  unfold setIds at done
  split at done
  next => cases done
  next =>
    split at done
    next able =>
      cases done
      exact .inl ⟨able, rfl⟩
    next unable =>
      split at done
      next own =>
        cases done
        exact .inr ⟨Bool.not_eq_true _ ▸ unable, by simpa using own, rfl⟩
      next => cases done

theorem setIds_permitted {prepared capable : Bool} {old new : Ids} {id : Id}
    (done : setIds prepared capable old id = .ok new) : Permitted capable old new := by
  rcases setIds_ok done with ⟨able, -⟩ | ⟨-, own, rfl⟩
  · exact permitted_of_capable able old new
  · have known : id ∈ [old.real, old.effective, old.saved] := by
      rcases own with rfl | rfl
      · simp
      · simp
    have kept := permitted_refl capable old
    exact ⟨kept.real, .inr known, kept.saved, .inr (List.mem_append_left [old.filesystem] known)⟩

/-- The assignments of `setresuid` and `setresgid`. -/
theorem setresIds_ok {prepared capable : Bool} {old new : Ids} {real effective saved : Option Id}
    (done : setresIds prepared capable old real effective saved = .ok (some new)) :
    new = ⟨real.getD old.real, effective.getD old.effective, saved.getD old.saved,
      effective.getD old.effective⟩ := by
  unfold setresIds at done
  split at done
  next => cases done
  next =>
    split at done
    next => cases done
    next =>
      split at done
      next => cases done
      next =>
        cases done
        rfl

theorem setresIds_checked {prepared capable : Bool} {old new : Ids}
    {real effective saved : Option Id}
    (done : setresIds prepared capable old real effective saved = .ok (some new)) :
    ¬ ((isNew old real || isNew old effective || isNew old saved) && !capable) = true := by
  unfold setresIds at done
  split at done
  next => cases done
  next =>
    split at done
    next => cases done
    next passed => exact passed

theorem setresIds_permitted {prepared capable : Bool} {old new : Ids}
    {real effective saved : Option Id}
    (done : setresIds prepared capable old real effective saved = .ok (some new)) :
    Permitted capable old new := by
  cases capable with
  | true => exact permitted_of_capable rfl old new
  | false =>
      have passed := setresIds_checked done
      have known : ∀ argument, isNew old argument = false →
          ∀ id ∈ argument, id ∈ [old.real, old.effective, old.saved] := by
        intro argument fine
        have passed : ¬ isNew old argument = true := by simp [fine]
        apply known_of_check passed
        intro id other
        simp at other
        simp [other]
      simp only [Bool.not_false, Bool.and_true, Bool.not_eq_true, Bool.or_eq_false_iff] at passed
      obtain ⟨⟨realFine, effectiveFine⟩, savedFine⟩ := passed
      have newEffective := getD_mem (known effective effectiveFine) (by simp : old.effective ∈ _)
      rw [setresIds_ok done]
      constructor
      · exact .inr (getD_mem (known real realFine) (by simp))
      · exact .inr newEffective
      · exact .inr (getD_mem (known saved savedFine) (by simp))
      · exact .inr (List.mem_append_left [old.filesystem] newEffective)

theorem setfsIds_cases (prepared capable : Bool) (fix : Int) (old : Ids) (id : Id) :
    setfsIds prepared capable fix old id = old ∨
      (setfsIds prepared capable fix old id = { old with filesystem := id } ∧
        (capable = true ∨ id ∈ [old.real, old.effective, old.saved, old.filesystem])) := by
  unfold setfsIds
  split
  · exact .inl rfl
  · split
    · exact .inl rfl
    · split
      next allowed =>
        have known : id ∈ [old.real, old.effective, old.saved, old.filesystem] ∨
            capable = true := by
          simpa [or_assoc] using allowed
        split
        · split
          · exact .inr ⟨rfl, known.symm⟩
          · exact .inl rfl
        · exact .inl rfl
      next => exact .inl rfl

theorem setfsIds_permitted (prepared capable : Bool) (fix : Int) (old : Ids) (id : Id) :
    Permitted capable old (setfsIds prepared capable fix old id) := by
  have kept := permitted_refl capable old
  rcases setfsIds_cases prepared capable fix old id with same | ⟨changed, known⟩
  · rw [same]
    exact kept
  · rw [changed]
    exact ⟨kept.real, kept.effective, kept.saved, known⟩

theorem setfsIds_real (prepared capable : Bool) (fix : Int) (old : Ids) (id : Id) :
    (setfsIds prepared capable fix old id).real = old.real := by
  rcases setfsIds_cases prepared capable fix old id with same | ⟨changed, -⟩
  · rw [same]
  · rw [changed]

/-! ### The law of a step -/

/-- `bind` succeeds if both parts do. -/
theorem ok_of_bind {α β : Type} {first : Except Int α} {next : α → Except Int β} {value : β}
    (done : first >>= next = .ok value) :
    ∃ between, first = .ok between ∧ next between = .ok value := by
  cases first with
  | error code => cases done
  | ok between => exact ⟨between, rfl, done⟩

/-- Ids that a call may install. Only `setfsuid` and `setfsgid` part the
filesystem id from the effective one. -/
structure Installable (capable fs : Bool) (old new : Ids) : Prop where
  permitted : Permitted capable old new
  shadows : fs = false → new.filesystem = new.effective

section Installable

variable {prepared capable fs : Bool} {old new : Ids}

theorem setreIds_installable {real effective : Option Id}
    (done : setreIds prepared capable old real effective = .ok new) :
    Installable capable fs old new where
  permitted := setreIds_permitted done
  shadows := by
    intro _
    rw [(setreIds_ok done).1, setreNew_filesystem]

theorem setIds_installable {id : Id} (done : setIds prepared capable old id = .ok new) :
    Installable capable fs old new where
  permitted := setIds_permitted done
  shadows := by
    intro _
    rcases setIds_ok done with ⟨-, rfl⟩ | ⟨-, -, rfl⟩
    · rfl
    · rfl

theorem setresIds_installable {real effective saved : Option Id}
    (done : setresIds prepared capable old real effective saved = .ok (some new)) :
    Installable capable fs old new where
  permitted := setresIds_permitted done
  shadows := by
    intro _
    rw [setresIds_ok done]

theorem setfsIds_installable (prepared capable : Bool) (fix : Int) (old : Ids) (id : Id) :
    Installable capable true old (setfsIds prepared capable fix old id) where
  permitted := setfsIds_permitted prepared capable fix old id
  shadows := by
    intro absurdity
    cases absurdity

end Installable

/-- All that a user call can do. A new uid is charged to its own
`user_struct`. -/
structure UserOutcome (kernel : Answers) (fs : Bool) (task after : Task) : Prop where
  users : after.cred.users = task.cred.users ∨
    Installable kernel.capSetuid fs task.cred.users after.cred.users
  groups : after.cred.groups = task.cred.groups
  user : after.cred.user =
    if after.cred.users.real ≠ task.cred.users.real then after.cred.users.real
    else task.cred.user

/-- All that a group call can do. -/
structure GroupOutcome (kernel : Answers) (fs : Bool) (task after : Task) : Prop where
  groups : after.cred.groups = task.cred.groups ∨
    Installable kernel.capSetgid fs task.cred.groups after.cred.groups
  users : after.cred.users = task.cred.users
  user : after.cred.user = task.cred.user

def UserCall.isFs : UserCall → Bool
  | .setfsuid _ => true
  | _ => false

def GroupCall.isFs : GroupCall → Bool
  | .setfsgid _ => true
  | _ => false

section Outcomes

variable {kernel : Answers} {fs : Bool} {task after : Task} {new : Ids}

theorem userOutcome_refl : UserOutcome kernel fs task task :=
  ⟨.inl rfl, rfl, (if_neg (not_not_intro rfl)).symm⟩

theorem groupOutcome_refl : GroupOutcome kernel fs task task :=
  ⟨.inl rfl, rfl, rfl⟩

theorem chargeUser_ok {old cred : Cred} (done : chargeUser kernel old new = .ok cred) :
    cred = { old with
      users := new, user := if new.real ≠ old.users.real then new.real else old.user } := by
  unfold chargeUser at done
  by_cases changed : new.real ≠ old.users.real
  · rw [if_pos changed] at done ⊢
    unfold setUser at done
    split at done
    next =>
      cases done
      rfl
    next => cases done
  · rw [if_neg changed] at done ⊢
    cases done
    rfl

theorem commitUsers_ok (done : commitUsers kernel task new = .ok after) :
    ∃ cred, chargeUser kernel task.cred new = .ok cred ∧ after.cred = cred := by
  obtain ⟨cred, charged, done⟩ := ok_of_bind done
  refine ⟨cred, charged, ?_⟩
  split at done
  next => cases done
  next =>
    split at done
    next => cases done
    next =>
      cases done
      rfl

theorem userOutcome_of_commit (ids : Installable kernel.capSetuid fs task.cred.users new)
    (done : commitUsers kernel task new = .ok after) : UserOutcome kernel fs task after := by
  obtain ⟨cred, charged, installed⟩ := commitUsers_ok done
  rw [chargeUser_ok charged] at installed
  constructor
  · rw [installed]
    exact .inr ids
  · rw [installed]
  · rw [installed]

theorem commitGroups_ok (done : commitGroups kernel task new = .ok after) :
    after = { task with cred := { task.cred with groups := new } } := by
  unfold commitGroups at done
  split at done
  next => cases done
  next =>
    cases done
    rfl

theorem groupOutcome_of_commit (ids : Installable kernel.capSetgid fs task.cred.groups new)
    (done : commitGroups kernel task new = .ok after) : GroupOutcome kernel fs task after := by
  rw [commitGroups_ok done]
  exact ⟨.inr ids, rfl, rfl⟩

theorem userOutcome_of_ok {result : Except Int Task}
    (law : ∀ after, result = .ok after → UserOutcome kernel fs task after) :
    UserOutcome kernel fs task (finish task result).2 := by
  cases result with
  | error code => exact userOutcome_refl
  | ok after => exact law after rfl

theorem groupOutcome_of_ok {result : Except Int Task}
    (law : ∀ after, result = .ok after → GroupOutcome kernel fs task after) :
    GroupOutcome kernel fs task (finish task result).2 := by
  cases result with
  | error code => exact groupOutcome_refl
  | ok after => exact law after rfl

variable (kernel task)

/-- One law for all four user calls. -/
theorem userCall_outcome (call : UserCall) :
    UserOutcome kernel call.isFs task (call.step kernel task).2 := by
  cases call with
  | setreuid ruid euid =>
      apply userOutcome_of_ok
      intro after done
      obtain ⟨kruid, -, done⟩ := ok_of_bind done
      obtain ⟨keuid, -, done⟩ := ok_of_bind done
      obtain ⟨new, ids, done⟩ := ok_of_bind done
      exact userOutcome_of_commit (setreIds_installable ids) done
  | setuid uid =>
      apply userOutcome_of_ok
      intro after done
      obtain ⟨kuid, -, done⟩ := ok_of_bind done
      obtain ⟨new, ids, done⟩ := ok_of_bind done
      exact userOutcome_of_commit (setIds_installable ids) done
  | setresuid ruid euid suid =>
      apply userOutcome_of_ok
      intro after done
      obtain ⟨kruid, -, done⟩ := ok_of_bind done
      obtain ⟨keuid, -, done⟩ := ok_of_bind done
      obtain ⟨ksuid, -, done⟩ := ok_of_bind done
      obtain ⟨found, ids, done⟩ := ok_of_bind done
      cases found with
      | none =>
          cases done
          exact userOutcome_refl
      | some new => exact userOutcome_of_commit (setresIds_installable ids) done
  | setfsuid uid =>
      constructor
      · exact .inr (setfsIds_installable _ _ _ _ _)
      · rfl
      · exact (if_neg (not_not_intro (setfsIds_real _ _ _ _ _))).symm

theorem groupCall_outcome (call : GroupCall) :
    GroupOutcome kernel call.isFs task (call.step kernel task).2 := by
  cases call with
  | setregid rgid egid =>
      apply groupOutcome_of_ok
      intro after done
      obtain ⟨krgid, -, done⟩ := ok_of_bind done
      obtain ⟨kegid, -, done⟩ := ok_of_bind done
      obtain ⟨new, ids, done⟩ := ok_of_bind done
      exact groupOutcome_of_commit (setreIds_installable ids) done
  | setgid gid =>
      apply groupOutcome_of_ok
      intro after done
      obtain ⟨kgid, -, done⟩ := ok_of_bind done
      obtain ⟨new, ids, done⟩ := ok_of_bind done
      exact groupOutcome_of_commit (setIds_installable ids) done
  | setresgid rgid egid sgid =>
      apply groupOutcome_of_ok
      intro after done
      obtain ⟨krgid, -, done⟩ := ok_of_bind done
      obtain ⟨kegid, -, done⟩ := ok_of_bind done
      obtain ⟨ksgid, -, done⟩ := ok_of_bind done
      obtain ⟨found, ids, done⟩ := ok_of_bind done
      cases found with
      | none =>
          cases done
          exact groupOutcome_refl
      | some new => exact groupOutcome_of_commit (setresIds_installable ids) done
  | setfsgid gid => exact ⟨.inr (setfsIds_installable _ _ _ _ _), rfl, rfl⟩

end Outcomes

end UsacSyscalls.Credentials
