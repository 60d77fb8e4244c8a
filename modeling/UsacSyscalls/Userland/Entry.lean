import UsacSyscalls.Project2.TamallocStats
import UsacSyscalls.Project3.DeliveredPrefix
import UsacSyscalls.Project3.Exits
import UsacSyscalls.Project3.Registry
import UsacSyscalls.Project3.WriteFrame
import UsacSyscalls.Statistics

/-!
Contract: the way from a syscall number with its argument registers to one of
the nine bodies, and from the returned register to the C library.

Owns the rows of `syscall_64.tbl`, the casts that `SYSCALL_DEFINEn` makes, the
state that all nine calls share, one step for each entry, and the laws of a
run: what a caller is told about success and failure, and which bytes of its
memory a call can change.

Does not own the bodies, nor what one kind of call learns about another; that is
`Isolation`.
-/

set_option autoImplicit false

namespace UsacSyscalls.Userland

open UsacSyscalls.Foundation
open UsacSyscalls.Kernel
open UsacSyscalls.Project1
open UsacSyscalls.Project2
open UsacSyscalls.Project3

/-! ### The table -/

inductive Entry where
  | captureMemorySnapshot
  | getIoThrottle
  | tamalloc
  | memoryAllocationStatistics
  | tamallocStats
  | addMemoryLimit
  | getMemoryLimits
  | updateMemoryLimit
  | removeMemoryLimit
deriving DecidableEq, Repr

/-- The rows of `syscall_64.tbl` that name a call of this project. -/
def syscallTable : List (Nat × Entry) :=
  [(548, .captureMemorySnapshot),
    (549, .getIoThrottle),
    (550, .tamalloc),
    (551, .memoryAllocationStatistics),
    (552, .tamallocStats),
    (557, .addMemoryLimit),
    (558, .getMemoryLimits),
    (559, .updateMemoryLimit),
    (560, .removeMemoryLimit)]

/-- The first three argument registers; no call has a fourth argument. -/
structure Registers where
  di : UnsignedLong
  si : UnsignedLong
  dx : UnsignedLong
deriving DecidableEq, Repr

/-- A call whose body works on the machine, with its arguments cast. -/
inductive MachineCall where
  | stats (call : StatsCall)
  | edit (arguments : Edit)
  | get (uProcessesBuffer : Nat) (maxEntries : SizeT) (processesReturned : Nat)
deriving DecidableEq, Repr

inductive Invocation where
  | machine (call : MachineCall)
  | map (size : SizeT)
deriving DecidableEq, Repr

/-- The casts of `SYSCALL_DEFINEn`: an `int` or `pid_t` is the low half of its
register. -/
def Entry.invocation (registers : Registers) : Entry → Invocation
  | .captureMemorySnapshot => .machine (.stats (.captureMemorySnapshot registers.di.toNat))
  | .getIoThrottle =>
      .machine (.stats (.getIoThrottle (registers.di.setWidth 32) registers.si.toNat))
  | .tamalloc => .machine (.stats (.tamalloc registers.di.toNat))
  | .memoryAllocationStatistics =>
      .machine (.stats (.memoryAllocationStatistics (registers.di.setWidth 32)
        registers.si.toNat))
  | .tamallocStats => .map registers.di
  | .addMemoryLimit => .machine (.edit (.add (registers.di.setWidth 32) registers.si))
  | .getMemoryLimits =>
      .machine (.get registers.di.toNat registers.si registers.dx.toNat)
  | .updateMemoryLimit => .machine (.edit (.update (registers.di.setWidth 32) registers.si))
  | .removeMemoryLimit => .machine (.edit (.remove (registers.di.setWidth 32)))

def MachineCall.body : MachineCall → Syscall Int
  | .stats call => call.body
  | .edit (.add processPid memoryLimit) => Project3.addMemoryLimit processPid memoryLimit
  | .edit (.update processPid memoryLimit) => Project3.updateMemoryLimit processPid memoryLimit
  | .edit (.remove processPid) => Project3.removeMemoryLimit processPid
  | .get buffer maxEntries returned => Project3.getMemoryLimits buffer maxEntries returned

/-! ### One entry -/

/-- The machine with the caller's memory, and the caller's mappings. -/
structure System where
  machine : Machine
  space : AddressSpace

/-- What the rest of the kernel answers during one entry; `contents` is what
newly mapped pages hold. -/
structure Moment where
  env : Environment
  answer : UnsignedLong
  contents : ByteMemory

structure Trap where
  moment : Moment
  entry : Entry
  registers : Registers

def Trap.invocation (trap : Trap) : Invocation := trap.entry.invocation trap.registers

/-- The range of user memory that a statistics call fills. -/
def window : StatsCall → Region
  | .captureMemorySnapshot userSnap => ⟨userSnap, sizeofMemorySnapshot⟩
  | .getIoThrottle _ userStats => ⟨userStats, sizeofIoStatsUser⟩
  | .memoryAllocationStatistics _ info => ⟨info, sizeofTamallocProcInfo⟩
  | .tamalloc info => ⟨info, sizeofTamallocGlobalInfo⟩

/-- What a call that returned `code` has written for its caller; the number of
records takes the eight bytes that `get_memory_limits` stores. -/
def MachineCall.handed (call : MachineCall) (code : Int) (user : ByteMemory) : List Byte :=
  match call with
  | .stats call => if code = 0 then user.load (window call).base (window call).length else []
  | .edit _ => []
  | .get buffer _ returned =>
      if code < 0 then []
      else user.load buffer (sizeofMemoryLimitation * code.toNat) ++ user.load returned 8

/-- The register a call returns, and what it handed over. -/
structure Seen where
  result : UnsignedLong
  handed : List Byte
deriving DecidableEq, Repr

def newPages (user contents : ByteMemory) (region : Region) : ByteMemory :=
  fun address =>
    if region.base ≤ address ∧ address < region.base + region.length then contents address
    else user address

def enterMachine (env : Environment) (call : MachineCall) (system : System) : Seen × System :=
  let outcome := complete env call.body system.machine
  (⟨BitVec.ofInt 64 outcome.1, call.handed outcome.1 outcome.2.user⟩,
    { system with machine := outcome.2 })

def enterMap (moment : Moment) (size : SizeT) (system : System) : Seen × System :=
  let outcome := mapStep system.space ⟨size, moment.answer⟩
  (⟨outcome.1, []⟩,
    { machine :=
        { system.machine with
          user := if IsErrValue outcome.1 then system.machine.user
            else newPages system.machine.user moment.contents
              ⟨outcome.1.toNat, (pageAlign size).toNat⟩ }
      space := outcome.2 })

def enter (moment : Moment) (invocation : Invocation) (system : System) : Seen × System :=
  match invocation with
  | .machine call => enterMachine moment.env call system
  | .map size => enterMap moment size system

def Trap.step (system : System) (trap : Trap) : Seen × System :=
  enter trap.moment trap.invocation system

theorem step_machine {trap : Trap} {call : MachineCall} (made : trap.invocation = .machine call)
    (system : System) : trap.step system = enterMachine trap.moment.env call system := by
  unfold Trap.step
  rw [made]
  rfl

theorem step_map {trap : Trap} {size : SizeT} (made : trap.invocation = .map size)
    (system : System) : trap.step system = enterMap trap.moment size system := by
  unfold Trap.step
  rw [made]
  rfl

/-- `errno` after a call that the C library reports as failed. -/
def errnoOf (result : UnsignedLong) : Int := -result.toInt

/-! ### The convention of the C library -/

theorem isErrValue_iff (result : UnsignedLong) :
    IsErrValue result ↔ -4095 ≤ result.toInt ∧ result.toInt < 0 := by
  have start : (-maxErrno).toNat = 2 ^ 64 - 4095 := by decide
  have bound := result.isLt
  have signed := BitVec.toInt_eq_toNat_cond result
  show (-maxErrno).toNat ≤ result.toNat ↔ _
  split at signed <;> omega

theorem libcSyscall_of_nonneg {code : Int} (nonneg : 0 ≤ code) (small : code < 2 ^ 63) :
    libcSyscall (BitVec.ofInt 64 code) = code := by
  have value : (BitVec.ofInt 64 code).toInt = code :=
    BitVec.toInt_ofInt_eq_self (by decide) (by omega) small
  unfold libcSyscall
  rw [if_neg, value]
  rw [isErrValue_iff, value]
  omega

theorem libcSyscall_of_errno {errno : Int} (positive : 0 < errno) (small : errno ≤ 4095) :
    libcSyscall (BitVec.ofInt 64 (-errno)) = -1 ∧ errnoOf (BitVec.ofInt 64 (-errno)) = errno := by
  have value : (BitVec.ofInt 64 (-errno)).toInt = -errno :=
    BitVec.toInt_ofInt_eq_self (by decide) (by omega) (by omega)
  constructor
  · unfold libcSyscall
    rw [if_pos]
    rw [isErrValue_iff, value]
    omega
  · unfold errnoOf
    rw [value, Int.neg_neg]

/-! ### How a call ends -/

/-- The numbers with which a call can fail. -/
def MachineCall.errors : MachineCall → List Int
  | .stats (.captureMemorySnapshot _) => [efault]
  | .stats (.getIoThrottle _ _) => [esrch, efault]
  | .stats (.memoryAllocationStatistics _ _) => [esrch, einval, efault]
  | .stats (.tamalloc _) => [efault]
  | .edit (.add _ _) => [einval, eperm, esrch, 100, 101, enomem]
  | .edit (.update _ _) => [einval, eperm, esrch]
  | .edit (.remove _) => [einval, eperm, esrch]
  | .get _ _ _ => [einval, efault]

/-- What a call returns when it does not fail. -/
def MachineCall.success (machine : Machine) : MachineCall → Int
  | .get _ maxEntries _ => (delivered machine maxEntries).length
  | _ => 0

/-- A failure leaves the lists alone, and the caller's memory unless a copy
faulted. -/
structure FailedCleanly (before after : Machine) (errno : Int) : Prop where
  heads : after.heads = before.heads
  user : errno ≠ efault → after.user = before.user

/-- The two ways in which a call ends. -/
def Ends (call : MachineCall) (before : Machine) (outcome : Int × Machine) : Prop :=
  outcome.1 = call.success before ∨
    ∃ errno ∈ call.errors, outcome.1 = -errno ∧ FailedCleanly before outcome.2 errno

theorem failedCleanly_refl (machine : Machine) (errno : Int) :
    FailedCleanly machine machine errno :=
  ⟨rfl, fun _ => rfl⟩

theorem ends_of_copyOut (env : Environment) (machine : Machine) {call : StatsCall}
    (destination : Nat) (bytes : List Byte) (listed : efault ∈ (MachineCall.stats call).errors) :
    Ends (.stats call) machine (complete env (copyOut destination bytes) machine) := by
  rw [complete_copyOut]
  by_cases copied : (env.copyToUser destination bytes machine.user).1 = 0
  · left
    exact if_pos copied
  · right
    refine ⟨efault, listed, if_neg copied, rfl, ?_⟩
    intro other
    exact absurd rfl other

theorem stats_errors (call : StatsCall) : efault ∈ (MachineCall.stats call).errors := by
  cases call <;> simp [MachineCall.errors]

theorem collected_error {env : Environment} {call : StatsCall} {code : Int}
    (refused : call.collected env = .error code) : -code ∈ (MachineCall.stats call).errors := by
  cases call with
  | captureMemorySnapshot userSnap => cases refused
  | tamalloc info => cases refused
  | getIoThrottle pid userStats =>
      simp only [StatsCall.collected] at refused
      split at refused
      · cases refused
        simp [MachineCall.errors]
      · cases refused
  | memoryAllocationStatistics pid info =>
      simp only [StatsCall.collected] at refused
      split at refused
      · cases refused
        simp [MachineCall.errors]
      · split at refused
        · cases refused
          simp [MachineCall.errors]
        · cases refused

theorem stats_ends (env : Environment) (machine : Machine) (call : StatsCall) :
    Ends (.stats call) machine (complete env call.body machine) := by
  rw [complete_body]
  cases collected : call.collected env with
  | error code =>
      right
      exact ⟨-code, collected_error collected, (Int.neg_neg code).symm,
        failedCleanly_refl machine _⟩
  | ok copied => exact ends_of_copyOut env machine _ _ (stats_errors call)

theorem add_ends (env : Environment) (machine : Machine) (processPid : PidT)
    (memoryLimit : SizeT) :
    Ends (.edit (.add processPid memoryLimit)) machine
      (complete env (addMemoryLimit processPid memoryLimit) machine) := by
  rw [complete_addMemoryLimit]
  cases admitted : admission env processPid memoryLimit with
  | error code =>
      have listed : ∀ exit ∈ [-einval, -eperm, -esrch, -100],
          -exit ∈ (MachineCall.edit (.add processPid memoryLimit)).errors := by
        simp [MachineCall.errors]
      right
      exact ⟨-code, listed code (admission_error_code admitted), (Int.neg_neg code).symm,
        failedCleanly_refl machine _⟩
  | ok task =>
      by_cases present : Listed (machine.heads .shared) processPid
      · simp only [if_pos present]
        exact .inr ⟨101, by simp [MachineCall.errors], rfl, failedCleanly_refl machine _⟩
      · simp only [if_neg present]
        by_cases allocated : env.kmalloc = true
        · rw [if_pos allocated]
          exact .inl rfl
        · rw [if_neg allocated]
          exact .inr ⟨enomem, by simp [MachineCall.errors], rfl, failedCleanly_refl machine _⟩

theorem edit_ends {machine : Machine} (empty : StaticsEmpty machine) (env : Environment)
    (arguments : Edit) :
    Ends (.edit arguments) machine (complete env (MachineCall.edit arguments).body machine) := by
  have refused : ∀ (call : MachineCall) (errno : Int), errno ∈ call.errors →
      Ends call machine (-errno, machine) := by
    intro call errno listed
    exact .inr ⟨errno, listed, rfl, failedCleanly_refl machine _⟩
  cases arguments with
  | add processPid memoryLimit => exact add_ends env machine processPid memoryLimit
  | update processPid memoryLimit =>
      have outcome := complete_updateMemoryLimit env machine processPid memoryLimit
      simp only [empty.updateStatic, updateWalk, setHead_self machine empty.updateStatic] at outcome
      show Ends _ machine (complete env (updateMemoryLimit processPid memoryLimit) machine)
      rw [outcome]
      split
      · exact refused _ einval (by simp [MachineCall.errors])
      · split
        · exact refused _ eperm (by simp [MachineCall.errors])
        · exact refused _ esrch (by simp [MachineCall.errors])
  | remove processPid =>
      have outcome := complete_removeMemoryLimit env machine processPid
      simp only [empty.removeStatic, removeWalk, setHead_self machine empty.removeStatic] at outcome
      show Ends _ machine (complete env (removeMemoryLimit processPid) machine)
      rw [outcome]
      split
      · exact refused _ einval (by simp [MachineCall.errors])
      · split
        · exact refused _ eperm (by simp [MachineCall.errors])
        · exact refused _ esrch (by simp [MachineCall.errors])

/-- The count of a machine with fewer than `2 ^ 31` entries is not negative. -/
theorem get_ends {machine : Machine} (bounded : (machine.heads .shared).length < 2 ^ 31)
    (env : Environment) (buffer : Nat) (maxEntries : SizeT) (returned : Nat) :
    Ends (.get buffer maxEntries returned) machine
      (complete env (getMemoryLimits buffer maxEntries returned) machine) := by
  have faulted : ∀ user : ByteMemory, Ends (.get buffer maxEntries returned) machine
      (-efault, { machine with user := user }) := by
    intro user
    refine .inr ⟨efault, by simp [MachineCall.errors], rfl, rfl, ?_⟩
    intro other
    exact absurd rfl other
  by_cases accepted : Accepted buffer maxEntries returned
  · rcases copies_or_first_failing env buffer (delivered machine maxEntries).length with
      copies | ⟨failing, inside, before, fails⟩
    · rw [getMemoryLimits_copied env machine accepted copies]
      split
      · left
        apply toInt_ofNat_of_small
        have short := delivered_length machine maxEntries
        omega
      · exact faulted _
    · rw [getMemoryLimits_faulted env machine accepted (List.getElem?_eq_getElem inside) before
        fails]
      exact faulted _
  · rw [getMemoryLimits_refused env machine accepted]
    exact .inr ⟨einval, by simp [MachineCall.errors], rfl, failedCleanly_refl machine _⟩

theorem machineCall_ends {machine : Machine} (invariant : RegistryInvariant machine)
    (env : Environment) (call : MachineCall) :
    Ends call machine (complete env call.body machine) := by
  cases call with
  | stats call => exact stats_ends env machine call
  | edit arguments => exact edit_ends invariant.statics env arguments
  | get buffer maxEntries returned =>
      exact get_ends invariant.shared.length_lt env buffer maxEntries returned

/-- A mapping that is granted was asked for with a size that can be rounded,
starts where `vm_mmap` answered, and is the only change of the mappings. -/
theorem mapStep_granted {space : AddressSpace} {call : MapCall}
    (granted : ¬ IsErrValue (mapStep space call).1) :
    call.size ≠ 0 ∧ Roundable call.size ∧ ¬ IsErrValue call.answer ∧
      (mapStep space call).1 = call.answer ∧
      (mapStep space call).2.regions =
        ⟨call.answer.toNat, (pageAlign call.size).toNat⟩ :: space.regions := by
  have errors : IsErrValue (failure einval) ∧ IsErrValue (failure enomem) := by decide
  by_cases zero : call.size = 0
  · rw [mapStep_zero space zero] at granted
    exact absurd errors.1 granted
  · by_cases roundable : Roundable call.size
    · rw [mapStep_roundable space zero roundable] at granted ⊢
      by_cases failed : IsErrValue call.answer
      · rw [if_pos failed] at granted
        exact absurd errors.2 granted
      · rw [if_neg failed]
        exact ⟨zero, roundable, failed, rfl, rfl⟩
    · rw [mapStep_unroundable space zero roundable] at granted
      exact absurd errors.2 granted

/-- A mapping that is refused, as the caller sees it. -/
structure Refused (size : SizeT) (before : System) (after : Seen × System) : Prop where
  failed : IsErrValue after.1.result
  result : libcSyscall after.1.result = -1
  errno : errnoOf after.1.result = if size = 0 then einval else enomem
  regions : after.2.space.regions = before.space.regions
  machine : after.2.machine = before.machine

/-- A mapping that is granted, as the caller sees it: a range apart from all it
had before, with the contents of fresh pages. -/
structure Granted (moment : Moment) (size : SizeT) (before : System) (base : Nat)
    (after : Seen × System) : Prop where
  nonempty : 0 < size.toNat
  covers : size.toNat ≤ (pageAlign size).toNat
  below : base + (pageAlign size).toNat ≤ 2 ^ 56
  fresh : ∀ region ∈ before.space.regions,
    Disjoint (Region.addresses ⟨base, (pageAlign size).toNat⟩) region.addresses
  succeeded : ¬ IsErrValue after.1.result
  result : libcSyscall after.1.result = base
  regions : after.2.space.regions = ⟨base, (pageAlign size).toNat⟩ :: before.space.regions
  user : after.2.machine.user =
    newPages before.machine.user moment.contents ⟨base, (pageAlign size).toNat⟩

theorem refused_of_failure {moment : Moment} {size : SizeT} {system : System}
    {space : AddressSpace} {errno : Int}
    (number : errno = if size = 0 then einval else enomem)
    (same : space.regions = system.space.regions)
    (outcome : mapStep system.space ⟨size, moment.answer⟩ = (failure errno, space)) :
    Refused size system (enterMap moment size system) := by
  have range : 0 < errno ∧ errno ≤ 4095 := by
    rw [number]
    split <;> decide
  have value : (failure errno).toInt = -errno :=
    BitVec.toInt_ofInt_eq_self (by decide) (by omega) (by omega)
  have failed : IsErrValue (failure errno) := by
    rw [isErrValue_iff, value]
    omega
  obtain ⟨reported, errnoSeen⟩ := libcSyscall_of_errno range.1 range.2
  unfold enterMap
  simp only [outcome, if_pos failed]
  exact ⟨failed, reported, errnoSeen.trans number, same, rfl⟩

/-- All an entry that maps can do. -/
theorem enterMap_cases {moment : Moment} {size : SizeT} {system : System}
    (answered : AnsweredThroughout system.space ⟨size, moment.answer⟩) :
    Refused size system (enterMap moment size system) ∨
      Granted moment size system moment.answer.toNat (enterMap moment size system) := by
  by_cases failed : IsErrValue (mapStep system.space ⟨size, moment.answer⟩).1
  · left
    by_cases zero : size = 0
    · exact refused_of_failure (by rw [if_pos zero]) rfl (mapStep_zero system.space zero)
    · by_cases roundable : Roundable size
      · have outcome : mapStep system.space ⟨size, moment.answer⟩ = _ :=
          mapStep_roundable system.space zero roundable
        by_cases refused : IsErrValue moment.answer
        · rw [if_pos refused] at outcome
          exact refused_of_failure (by rw [if_neg zero]) (by rfl) outcome
        · rw [if_neg refused] at outcome
          rw [outcome] at failed
          exact absurd failed refused
      · exact refused_of_failure (by rw [if_neg zero]) rfl
          (mapStep_unroundable system.space zero roundable)
  · right
    obtain ⟨nonzero, roundable, valid, base, regions⟩ := mapStep_granted failed
    obtain ⟨below, fresh⟩ := answered.fresh nonzero roundable valid
    have small : 2 * moment.answer.toNat < 2 ^ 64 := by
      have sum : moment.answer.toNat + (pageAlign size).toNat ≤ 2 ^ 56 := below
      omega
    have positive : size.toNat ≠ 0 := by
      intro zero
      exact nonzero (BitVec.eq_of_toNat_eq zero)
    refine ⟨Nat.pos_of_ne_zero positive, (pageAlign_isLeast roundable).1.2, below, fresh, failed,
      ?_, regions, ?_⟩
    · show libcSyscall (mapStep system.space ⟨size, moment.answer⟩).1 = _
      unfold libcSyscall
      rw [if_neg failed, base]
      exact BitVec.toInt_eq_toNat_of_lt small
    · simp only [enterMap, if_neg failed]
      rw [base]

/-! ### The lists over a run -/

theorem stats_heads (env : Environment) (machine : Machine) (call : StatsCall) :
    (complete env call.body machine).2.heads = machine.heads := by
  rw [complete_body]
  cases call.collected env with
  | error code => rfl
  | ok copied =>
      simp only [complete_copyOut]

theorem machineCall_invariant {machine : Machine} (invariant : RegistryInvariant machine)
    (env : Environment) (call : MachineCall) :
    RegistryInvariant (complete env call.body machine).2 := by
  cases call with
  | stats call => exact invariant.of_heads (stats_heads env machine call)
  | edit arguments =>
      cases arguments with
      | add processPid memoryLimit =>
          exact step_invariant invariant (.add env processPid memoryLimit)
      | update processPid memoryLimit =>
          exact step_invariant invariant (.update env processPid memoryLimit)
      | remove processPid => exact step_invariant invariant (.remove env processPid)
  | get buffer maxEntries returned =>
      exact step_invariant invariant (.get env buffer maxEntries returned)

theorem trap_invariant {system : System} (invariant : RegistryInvariant system.machine)
    (trap : Trap) : RegistryInvariant (trap.step system).2.machine := by
  unfold Trap.step
  cases trap.invocation with
  | machine call => exact machineCall_invariant invariant trap.moment.env call
  | map size => exact invariant.of_heads rfl

/-! ### What the caller is told -/

def Invocation.errors : Invocation → List Int
  | .machine call => call.errors
  | .map _ => [einval, enomem]

/-- The value that tells a caller of success. -/
def Trap.success (system : System) (trap : Trap) : Int :=
  match trap.invocation with
  | .machine call => call.success system.machine
  | .map _ => trap.moment.answer.toInt

/-- What is assumed of the `vm_mmap` that an entry makes, if it makes one. -/
def Trap.Assumed (system : System) (trap : Trap) : Prop :=
  match trap.invocation with
  | .machine _ => True
  | .map size => AnsweredThroughout system.space ⟨size, trap.moment.answer⟩

/-- The C library reports the success value, which is never negative, or it
reports `-1` with an `errno` of the call. Then lists and mappings are as they
were, and so is the caller's memory unless the number is `EFAULT`. -/
def Reported (system : System) (trap : Trap) : Prop :=
  let result := (trap.step system).1.result
  let after := (trap.step system).2
  (libcSyscall result = trap.success system ∧ 0 ≤ trap.success system) ∨
    (libcSyscall result = -1 ∧ errnoOf result ∈ trap.invocation.errors ∧
      FailedCleanly system.machine after.machine (errnoOf result) ∧
      after.space.regions = system.space.regions)

theorem errors_in_range (invocation : Invocation) :
    ∀ errno ∈ invocation.errors, 0 < errno ∧ errno ≤ 4095 := by
  cases invocation with
  | map size =>
      show ∀ errno ∈ [einval, enomem], _
      decide
  | machine call =>
      cases call with
      | stats call =>
          cases call <;>
          · simp only [Invocation.errors, MachineCall.errors]
            decide
      | edit arguments =>
          cases arguments <;>
          · simp only [Invocation.errors, MachineCall.errors]
            decide
      | get buffer maxEntries returned =>
          show ∀ errno ∈ [einval, efault], _
          decide

theorem success_in_range {machine : Machine} (invariant : RegistryInvariant machine)
    (call : MachineCall) : 0 ≤ call.success machine ∧ call.success machine < 2 ^ 63 := by
  have room := invariant.shared.length_lt
  cases call with
  | stats call => simp [MachineCall.success]
  | edit arguments => simp [MachineCall.success]
  | get buffer maxEntries returned =>
      have short := delivered_length machine maxEntries
      simp only [MachineCall.success]
      omega

theorem enterMachine_reported {system : System} (invariant : RegistryInvariant system.machine)
    (trap : Trap) {call : MachineCall} (made : trap.invocation = .machine call) :
    Reported system trap := by
  have success : trap.success system = call.success system.machine := by
    unfold Trap.success
    rw [made]
  unfold Reported
  rw [step_machine made, success, made]
  obtain ⟨nonneg, small⟩ := success_in_range invariant call
  rcases machineCall_ends invariant trap.moment.env call with
    succeeded | ⟨errno, listed, code, clean⟩
  · left
    unfold enterMachine
    simp only [succeeded]
    exact ⟨libcSyscall_of_nonneg nonneg small, nonneg⟩
  · right
    obtain ⟨positive, bounded⟩ := errors_in_range (.machine call) errno listed
    obtain ⟨reported, number⟩ := libcSyscall_of_errno positive bounded
    unfold enterMachine
    simp only [code, number]
    exact ⟨reported, listed, clean, trivial⟩

theorem enterMap_reported {system : System} (trap : Trap) {size : SizeT}
    (made : trap.invocation = .map size)
    (answered : AnsweredThroughout system.space ⟨size, trap.moment.answer⟩) :
    Reported system trap := by
  have success : trap.success system = trap.moment.answer.toInt := by
    unfold Trap.success
    rw [made]
  unfold Reported
  rw [step_map made, success, made]
  rcases enterMap_cases answered with refused | granted
  · right
    refine ⟨refused.result, ?_, ⟨by rw [refused.machine], fun _ => by rw [refused.machine]⟩,
      refused.regions⟩
    rw [refused.errno]
    split
    · exact List.mem_cons_self
    · exact List.mem_cons_of_mem _ List.mem_cons_self
  · left
    have below := granted.below
    have value : trap.moment.answer.toInt = trap.moment.answer.toNat :=
      BitVec.toInt_eq_toNat_of_lt (by omega)
    rw [granted.result, value]
    exact ⟨rfl, Int.natCast_nonneg _⟩

theorem reported_of_assumed {system : System} (invariant : RegistryInvariant system.machine)
    (trap : Trap) (assumed : trap.Assumed system) : Reported system trap := by
  cases made : trap.invocation with
  | machine call => exact enterMachine_reported invariant trap made
  | map size =>
      unfold Trap.Assumed at assumed
      rw [made] at assumed
      exact enterMap_reported trap made assumed

/-- In every run of entries from boot, with whatever registers, the C library
tells every caller truly how its call ended. -/
theorem traps_reported_truly (user : ByteMemory) (space : AddressSpace) (traps : List Trap)
    (assumed : Transition.Along Trap.step Trap.Assumed ⟨.boot user, space⟩ traps) :
    Transition.Along Trap.step Reported ⟨.boot user, space⟩ traps := by
  have every : ∀ (system : System) (rest : List Trap), RegistryInvariant system.machine →
      Transition.Along Trap.step Trap.Assumed system rest →
      Transition.Along Trap.step Reported system rest := by
    intro system rest
    induction rest generalizing system with
    | nil =>
        intro _ _
        trivial
    | cons trap rest inductionHypothesis =>
        intro invariant along
        exact ⟨reported_of_assumed invariant trap along.1,
          inductionHypothesis _ (trap_invariant invariant trap) along.2⟩
  exact every _ traps (boot_invariant user) assumed

/-- A quiet moment: mappings go to `0x10000` and hold zeros. -/
def quietMoment : Moment := ⟨.quiet 7, 0x10000, fun _ => 0⟩

/-- A registration, a mapping of 5000 bytes, a listing and a removal. -/
def fourTraps : List Trap :=
  [⟨quietMoment, .addMemoryLimit, ⟨7, 8192, 0⟩⟩,
    ⟨quietMoment, .tamallocStats, ⟨5000, 0, 0⟩⟩,
    ⟨quietMoment, .getMemoryLimits, ⟨0x20000, 4, 0x21000⟩⟩,
    ⟨quietMoment, .removeMemoryLimit, ⟨7, 0, 0⟩⟩]

theorem fourTraps_reported_truly :
    Transition.Along Trap.step Reported ⟨.boot fun _ => 0, ⟨[], [], []⟩⟩ fourTraps := by
  apply traps_reported_truly
  have roundable : Roundable 5000 := ⟨8192, by decide⟩
  refine ⟨trivial, ?_, trivial, trivial, trivial⟩
  apply answeredThroughout_of_free (by decide) roundable (by decide) (by decide)
  intro region absent
  cases absent

/-! ### What a run can write -/

def sizeofInt : Nat := 4

/-- The ranges of user memory that an entry is handed, as its parameters declare
them, and the range it maps. -/
def Trap.windows (system : System) (trap : Trap) : List Region :=
  match trap.invocation with
  | .machine (.stats call) => [window call]
  | .machine (.edit _) => []
  | .machine (.get buffer maxEntries returned) =>
      [⟨buffer, sizeofMemoryLimitation * (delivered system.machine maxEntries).length⟩,
        ⟨returned, sizeofInt⟩]
  | .map size => [⟨trap.moment.answer.toNat, (pageAlign size).toNat⟩]

/-- What an entry can write beyond them: `get_memory_limits` stores a `size_t`
where it was handed an `int`. -/
def Trap.overrun (trap : Trap) : List Region :=
  match trap.invocation with
  | .machine (.get _ _ returned) => [⟨returned + sizeofInt, sizeofInt⟩]
  | _ => []

def Trap.Avoids (address : Nat) (system : System) (trap : Trap) : Prop :=
  ∀ region ∈ trap.windows system ++ trap.overrun, address ∉ region.addresses

theorem not_mem_addresses {region : Region} {address : Nat} (avoids : address ∉ region.addresses) :
    address < region.base ∨ region.base + region.length ≤ address := by
  unfold Region.addresses at avoids
  rw [Set.mem_Ico] at avoids
  omega

theorem collected_window {env : Environment} {call : StatsCall} {destination : Nat}
    {bytes : List Byte} (collected : call.collected env = .ok (destination, bytes)) :
    window call = ⟨destination, bytes.length⟩ := by
  cases call with
  | captureMemorySnapshot userSnap =>
      cases collected
      rw [snapshotBytes_length]
      rfl
  | tamalloc info =>
      cases collected
      rw [globalInfoBytes_length]
      rfl
  | getIoThrottle pid userStats =>
      simp only [StatsCall.collected] at collected
      split at collected
      · cases collected
      · cases collected
        simp [window, ioStatsBytes, sizeofIoStatsUser]
  | memoryAllocationStatistics pid info =>
      simp only [StatsCall.collected] at collected
      split at collected
      · cases collected
      · split at collected
        · cases collected
        · cases collected
          rw [procInfoBytes_length]
          rfl

theorem stats_frame {env : Environment} {machine : Machine} {call : StatsCall} {address : Nat}
    (avoids : address ∉ (window call).addresses) :
    (complete env call.body machine).2.user address = machine.user address := by
  rw [complete_body]
  cases collected : call.collected env with
  | error code => rfl
  | ok copied =>
      have outside := not_mem_addresses avoids
      rw [collected_window collected] at outside
      simp only [complete_copyOut]
      exact Environment.copyToUser_outside outside machine.user

theorem newPages_outside {user contents : ByteMemory} {region : Region} {address : Nat}
    (outside : address < region.base ∨ region.base + region.length ≤ address) :
    newPages user contents region address = user address := by
  unfold newPages
  rw [if_neg (by omega)]

theorem enterMap_frame {moment : Moment} {size : SizeT} {system : System} {address : Nat}
    (avoids : address ∉ Region.addresses ⟨moment.answer.toNat, (pageAlign size).toNat⟩) :
    (enterMap moment size system).2.machine.user address = system.machine.user address := by
  unfold enterMap
  by_cases failed : IsErrValue (mapStep system.space ⟨size, moment.answer⟩).1
  · simp only [if_pos failed]
  · obtain ⟨-, -, -, base, -⟩ := mapStep_granted failed
    simp only [if_neg failed]
    rw [base]
    exact newPages_outside (not_mem_addresses avoids)

/-- Edits never touch the caller's memory. -/
theorem edit_user (env : Environment) (machine : Machine) (arguments : Edit) :
    (complete env (MachineCall.edit arguments).body machine).2.user = machine.user := by
  cases arguments with
  | add processPid memoryLimit =>
      simp only [MachineCall.body, complete_addMemoryLimit]
      split
      · rfl
      · split
        · rfl
        · split <;> rfl
  | update processPid memoryLimit =>
      simp only [MachineCall.body, complete_updateMemoryLimit]
      split
      · rfl
      · split <;> rfl
  | remove processPid =>
      simp only [MachineCall.body, complete_removeMemoryLimit]
      split
      · rfl
      · split <;> rfl

theorem trap_frame {system : System} {trap : Trap} {address : Nat}
    (avoids : trap.Avoids address system) :
    (trap.step system).2.machine.user address = system.machine.user address := by
  unfold Trap.Avoids Trap.windows Trap.overrun at avoids
  unfold Trap.step
  cases made : trap.invocation with
  | map size =>
      simp only [made, List.append_nil, List.forall_mem_singleton] at avoids
      exact enterMap_frame avoids
  | machine call =>
      cases call with
      | stats call =>
          simp only [made, List.append_nil, List.forall_mem_singleton] at avoids
          exact stats_frame avoids
      | edit arguments =>
          exact congrFun (edit_user trap.moment.env system.machine arguments) address
      | get buffer maxEntries returned =>
          simp only [made, List.cons_append, List.nil_append, List.forall_mem_cons] at avoids
          obtain ⟨records, number, beyond, -⟩ := avoids
          by_cases accepted : Accepted buffer maxEntries returned
          · have outside : address < returned ∨ returned + 8 ≤ address := by
              have before := not_mem_addresses number
              have behind := not_mem_addresses beyond
              simp only [sizeofInt] at before behind
              omega
            exact getMemoryLimits_frame accepted (not_mem_addresses records) outside
          · show (complete trap.moment.env (getMemoryLimits buffer maxEntries returned)
              system.machine).2.user address = _
            rw [getMemoryLimits_refused trap.moment.env system.machine accepted]

/-- A byte that no entry of a run is handed or maps, and that is not one of the
four behind an `int` handed to `get_memory_limits`, keeps its value. -/
theorem traps_keep_other_memory {system : System} {traps : List Trap} {address : Nat}
    (avoids : Transition.Along Trap.step (Trap.Avoids address) system traps) :
    (Transition.final Trap.step system traps).machine.user address =
      system.machine.user address := by
  apply Transition.invariant_final Trap.step (Trap.Avoids address)
    (fun state => state.machine.user address = system.machine.user address) _ rfl avoids
  intro state trap same avoidsHere
  exact (trap_frame avoidsHere).trans same

/-- The removal and the registration reach no memory, the listing its buffer and
the eight bytes at its counter. -/
theorem fourTraps_keep_page_before_buffer :
    (Transition.final Trap.step ⟨.boot fun _ => 1, ⟨[], [], []⟩⟩ fourTraps).machine.user 0x1ffff =
      1 := by
  have aligned : (pageAlign 5000).toNat = 8192 := by decide
  apply traps_keep_other_memory
  refine ⟨?_, ?_, ?_, ?_, trivial⟩
  · intro region absent
    cases absent
  · intro region member
    obtain rfl := List.mem_singleton.mp member
    rintro ⟨-, above⟩
    have distance : 0x1ffff < 0x10000 + (pageAlign 5000).toNat := above
    omega
  · intro region member
    rcases List.mem_cons.mp member with rfl | member
    · rintro ⟨below, -⟩
      exact absurd below (by decide)
    · rcases List.mem_cons.mp member with rfl | member
      · rintro ⟨below, -⟩
        exact absurd below (by decide)
      · obtain rfl := List.mem_singleton.mp member
        rintro ⟨below, -⟩
        exact absurd below (by decide)
  · intro region absent
    cases absent

/-- The four bytes behind the counter are written: a byte there that the caller
did not hand over changes. -/
example :
    (Transition.final Trap.step ⟨.boot fun _ => 1, ⟨[], [], []⟩⟩
      [⟨quietMoment, .getMemoryLimits, ⟨0x20000, 4, 0x21000⟩⟩]).machine.user 0x21004 = 0 := by
  decide

end UsacSyscalls.Userland
