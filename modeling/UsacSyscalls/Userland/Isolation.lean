import UsacSyscalls.Userland.Entry

/-!
Contract: what the three kinds of calls can learn about each other.

Owns the kind of each call, the run of one process in which granted mappings
count in the `total_vm` that later calls read, the kinds that may inform one
another, and the result that in every run the calls of one kind return and hand
over exactly what they would without the calls of the kinds that may not inform
it.

Does not own how a single call ends; that is `Entry`. Apart from `total_vm` the
rest of the kernel answers each call as its moment says, whatever was called
before.
-/

set_option autoImplicit false

namespace UsacSyscalls.Userland

open UsacSyscalls.Foundation
open UsacSyscalls.Kernel
open UsacSyscalls.Project1
open UsacSyscalls.Project2
open UsacSyscalls.Project3

inductive Subsystem where
  | statistics
  | limits
  | mappings
deriving DecidableEq, Repr

def Invocation.subsystem : Invocation → Subsystem
  | .machine (.stats _) => .statistics
  | .machine (.edit _) => .limits
  | .machine (.get _ _ _) => .limits
  | .map _ => .mappings

def Trap.isOf (subsystem : Subsystem) (trap : Trap) : Bool :=
  trap.invocation.subsystem = subsystem

/-- Mappings reach both other kinds through `total_vm`; otherwise a kind only
informs itself. -/
def Subsystem.informs : Subsystem → Subsystem → Bool
  | .mappings, _ => true
  | source, observer => source = observer

def Trap.informs (observer : Subsystem) (trap : Trap) : Bool :=
  trap.invocation.subsystem.informs observer

/-! ### One process -/

/-- The pages of the regions that a process was granted. -/
def grantedPages (space : AddressSpace) : UnsignedLong :=
  (space.regions.map fun region => BitVec.ofNat 64 (region.length / 4096)).sum

/-- `vm_mmap` adds the pages it maps to the `total_vm` of the caller, whose
address space is `current`. -/
def charged (current : MmRef) (space : AddressSpace) (env : Environment) : Environment :=
  { env with
    mm := fun ref =>
      if ref = current then
        { env.mm ref with totalVm := (env.mm ref).totalVm + grantedPages space }
      else env.mm ref }

def Trap.charged (current : MmRef) (system : System) (trap : Trap) : Trap :=
  { trap with
    moment := { trap.moment with
      env := Userland.charged current system.space trap.moment.env } }

/-- One entry of the process `current`. The moment of a trap has the `total_vm`
that the process would have without the granted regions. -/
def processStep (current : MmRef) (system : System) (trap : Trap) : Seen × System :=
  (trap.charged current system).step system

/-! ### What determines a call -/

/-- Two outcomes that look the same to the caller. -/
def LookAlike (call : MachineCall) (left right : Int × Machine) : Prop :=
  left.1 = right.1 ∧ call.handed left.1 left.2.user = call.handed right.1 right.2.user

theorem copyToUser_left (env : Environment) (destination : Nat) (bytes : List Byte)
    (user other : ByteMemory) :
    (env.copyToUser destination bytes user).1 = (env.copyToUser destination bytes other).1 := by
  unfold Environment.copyToUser
  split
  · split <;> rfl
  · rfl

theorem window_length_pos (call : StatsCall) : 0 < (window call).length := by
  cases call <;> simp [window, sizeofMemorySnapshot, sizeofIoStatsUser, sizeofTamallocProcInfo,
    sizeofTamallocGlobalInfo]

/-- A call that copies returns the same from every machine, and what it copied
completely is what its caller finds. -/
theorem stats_lookAlike (env : Environment) (call : StatsCall) (machine other : Machine) :
    LookAlike (.stats call) (complete env call.body machine) (complete env call.body other) := by
  unfold LookAlike
  rw [complete_body, complete_body]
  cases collected : call.collected env with
  | error code =>
      have range := errors_in_range (.machine (.stats call)) _ (collected_error collected)
      have nonzero : code ≠ 0 := by omega
      simp only [MachineCall.handed, if_neg nonzero, and_self]
  | ok copied =>
      obtain ⟨destination, bytes⟩ := copied
      have filled := collected_window collected
      have nonempty : 0 < bytes.length := by
        have positive := window_length_pos call
        rwa [filled] at positive
      have sameLeft := copyToUser_left env destination bytes machine.user other.user
      simp only [complete_copyOut, sameLeft, MachineCall.handed, filled, true_and]
      by_cases whole : env.Copies destination bytes.length
      · rw [Environment.copyToUser_of_copies whole, Environment.copyToUser_of_copies whole]
        simp only [if_true, ByteMemory.load_store_self]
      · have cut : (env.copyToUser destination bytes other.user).1 ≠ 0 := by
          intro complete
          exact whole ((Environment.copyToUser_left_eq_zero nonempty other.user).mp complete)
        have negative : -efault ≠ 0 := by decide
        simp only [if_neg cut, if_neg negative]

/-- What was stored last is read from the place it was stored at, whatever the
memory held before; what was stored first is read around it. -/
theorem load_stored (user other : ByteMemory) {base place count : Nat} {first second : List Byte}
    (within : count ≤ first.length) :
    ((user.store base first).store place second).load base count =
      ((other.store base first).store place second).load base count := by
  apply ByteMemory.load_congr
  intro address lower upper
  by_cases covered : place ≤ address ∧ address < place + second.length
  · obtain ⟨offset, rfl⟩ : ∃ offset, address = place + offset := ⟨address - place, by omega⟩
    rw [ByteMemory.store_inside _ (by omega), ByteMemory.store_inside _ (by omega)]
  · obtain ⟨offset, rfl⟩ : ∃ offset, address = base + offset := ⟨address - base, by omega⟩
    have outside : base + offset < place ∨ place + second.length ≤ base + offset := by omega
    have inFirst : offset < first.length := by omega
    rw [ByteMemory.store_outside _ outside, ByteMemory.store_outside _ outside,
      ByteMemory.store_inside _ inFirst, ByteMemory.store_inside _ inFirst]

theorem toNat_toInt_le {bits : Nat} (value : BitVec bits) : value.toInt.toNat ≤ value.toNat := by
  have signed := BitVec.toInt_eq_toNat_cond value
  split at signed <;> omega

section Heads

variable {machine other : Machine} (same : machine.heads = other.heads) (env : Environment)

include same

theorem edit_determined (arguments : Edit) :
    (complete env (MachineCall.edit arguments).body machine).1 =
        (complete env (MachineCall.edit arguments).body other).1 ∧
      (complete env (MachineCall.edit arguments).body machine).2.heads =
        (complete env (MachineCall.edit arguments).body other).2.heads := by
  cases arguments with
  | add processPid memoryLimit =>
      simp only [MachineCall.body, complete_addMemoryLimit, same]
      split
      · exact ⟨rfl, same⟩
      · split
        · exact ⟨rfl, same⟩
        · split
          · exact ⟨rfl, by simp only [Machine.setHead, same]⟩
          · exact ⟨rfl, same⟩
  | update processPid memoryLimit =>
      simp only [MachineCall.body, complete_updateMemoryLimit, same]
      split
      · exact ⟨rfl, same⟩
      · split
        · exact ⟨rfl, same⟩
        · exact ⟨rfl, by simp only [Machine.setHead, same]⟩
  | remove processPid =>
      simp only [MachineCall.body, complete_removeMemoryLimit, same]
      split
      · exact ⟨rfl, same⟩
      · split
        · exact ⟨rfl, same⟩
        · exact ⟨rfl, by simp only [Machine.setHead, same]⟩

/-- Records and count are written after one another; what the caller reads back
is one or the other at every address, even if they overlap. -/
theorem get_lookAlike (buffer : Nat) (maxEntries : SizeT) (returned : Nat) :
    LookAlike (.get buffer maxEntries returned)
      (complete env (getMemoryLimits buffer maxEntries returned) machine)
      (complete env (getMemoryLimits buffer maxEntries returned) other) := by
  have sameDelivered : delivered machine maxEntries = delivered other maxEntries := by
    unfold delivered
    rw [same]
  have faulted : ∀ left right : ByteMemory, LookAlike (.get buffer maxEntries returned)
      (-efault, { machine with user := left }) (-efault, { other with user := right }) := by
    intro left right
    have negative : -efault < 0 := by decide
    simp only [LookAlike, MachineCall.handed, if_pos negative, and_self]
  by_cases accepted : Accepted buffer maxEntries returned
  · rcases copies_or_first_failing env buffer (delivered other maxEntries).length with
      copies | ⟨failing, inside, before, fails⟩
    · have copiesHere := copies
      rw [← sameDelivered] at copiesHere
      rw [getMemoryLimits_copied env machine accepted copiesHere,
        getMemoryLimits_copied env other accepted copies, sameDelivered]
      by_cases whole : env.Copies returned (leBytes 8 (delivered other maxEntries).length).length
      · rw [Environment.copyToUser_of_copies whole, Environment.copyToUser_of_copies whole]
        have within : sizeofMemoryLimitation *
            (BitVec.ofNat 64 (delivered other maxEntries).length).toInt.toNat ≤
              (recordsBytes (padding env) (delivered other maxEntries)).length := by
          have value := toNat_toInt_le (BitVec.ofNat 64 (delivered other maxEntries).length)
          have reduced : (BitVec.ofNat 64 (delivered other maxEntries).length).toNat ≤
              (delivered other maxEntries).length := by
            rw [BitVec.toNat_ofNat]
            exact Nat.mod_le _ _
          rw [recordsBytes_length (padding_length env)]
          exact Nat.mul_le_mul_left _ (Nat.le_trans value reduced)
        have count : ∀ user : ByteMemory,
            (user.store returned (leBytes 8 (delivered other maxEntries).length)).load returned 8 =
              leBytes 8 (delivered other maxEntries).length := by
          intro user
          have stored := user.load_store_self returned
            (leBytes 8 (delivered other maxEntries).length)
          rwa [leBytes_length] at stored
        simp only [LookAlike, MachineCall.handed, if_true, true_and, count,
          load_stored machine.user other.user within]
      · have nonempty : 0 < (leBytes 8 (delivered other maxEntries).length).length := by simp
        have cut : ∀ user : ByteMemory, (env.copyToUser returned
            (leBytes 8 (delivered other maxEntries).length) user).1 ≠ 0 := by
          intro user copied
          exact whole ((Environment.copyToUser_left_eq_zero nonempty user).mp copied)
        rw [if_neg (cut _), if_neg (cut _)]
        exact faulted _ _
    · obtain ⟨entry, found⟩ : ∃ entry, (delivered other maxEntries)[failing]? = some entry :=
        ⟨_, List.getElem?_eq_getElem inside⟩
      have foundHere := found
      rw [← sameDelivered] at foundHere
      rw [getMemoryLimits_faulted env machine accepted foundHere before fails,
        getMemoryLimits_faulted env other accepted found before fails]
      exact faulted _ _
  · rw [getMemoryLimits_refused env machine accepted, getMemoryLimits_refused env other accepted]
    have negative : -einval < 0 := by decide
    simp only [LookAlike, MachineCall.handed, if_pos negative, and_self]

end Heads

/-! ### Runs -/

theorem seen_of_lookAlike {call : MachineCall} {env : Environment} {system other : System}
    (alike : LookAlike call (complete env call.body system.machine)
      (complete env call.body other.machine)) :
    (enterMachine env call system).1 = (enterMachine env call other).1 := by
  obtain ⟨code, bytes⟩ := alike
  unfold enterMachine
  simp only [bytes]
  rw [code]

/-- Only calls of the limits change the lists. -/
theorem heads_of_other (trap : Trap) (foreign : trap.isOf .limits = false) (system : System) :
    (trap.step system).2.machine.heads = system.machine.heads := by
  cases made : trap.invocation with
  | map size =>
      rw [step_map made]
      rfl
  | machine call =>
      rw [step_machine made]
      cases call with
      | stats call => exact stats_heads trap.moment.env system.machine call
      | edit arguments => simp [Trap.isOf, made, Invocation.subsystem] at foreign
      | get buffer maxEntries returned => simp [Trap.isOf, made, Invocation.subsystem] at foreign

theorem space_of_other (trap : Trap) (foreign : trap.isOf .mappings = false) (system : System) :
    (trap.step system).2.space = system.space := by
  cases made : trap.invocation with
  | map size => simp [Trap.isOf, made, Invocation.subsystem] at foreign
  | machine call =>
      rw [step_machine made]
      rfl

theorem limits_determined (trap : Trap) (limits : trap.isOf .limits = true)
    {system other : System} (same : system.machine.heads = other.machine.heads) :
    (trap.step system).1 = (trap.step other).1 ∧
      (trap.step system).2.machine.heads = (trap.step other).2.machine.heads := by
  cases made : trap.invocation with
  | map size => simp [Trap.isOf, made, Invocation.subsystem] at limits
  | machine call =>
      rw [step_machine made, step_machine made]
      cases call with
      | stats call => simp [Trap.isOf, made, Invocation.subsystem] at limits
      | edit arguments =>
          obtain ⟨code, heads⟩ := edit_determined same trap.moment.env arguments
          exact ⟨seen_of_lookAlike ⟨code, rfl⟩, heads⟩
      | get buffer maxEntries returned =>
          refine ⟨seen_of_lookAlike (get_lookAlike same trap.moment.env _ _ _), ?_⟩
          have left := complete_getMemoryLimits_heads trap.moment.env system.machine buffer
            maxEntries returned
          have right := complete_getMemoryLimits_heads trap.moment.env other.machine buffer
            maxEntries returned
          exact left.trans (same.trans right.symm)

theorem mappings_determined (trap : Trap) (mappings : trap.isOf .mappings = true)
    {system other : System} (same : system.space = other.space) :
    (trap.step system).1 = (trap.step other).1 ∧
      (trap.step system).2.space = (trap.step other).2.space := by
  cases made : trap.invocation with
  | machine call =>
      cases call <;> simp [Trap.isOf, made, Invocation.subsystem] at mappings
  | map size =>
      rw [step_map made, step_map made]
      simp only [enterMap, same, and_self]

theorem statistics_determined (trap : Trap) (statistics : trap.isOf .statistics = true)
    (system other : System) : (trap.step system).1 = (trap.step other).1 := by
  cases made : trap.invocation with
  | map size => simp [Trap.isOf, made, Invocation.subsystem] at statistics
  | machine call =>
      rw [step_machine made, step_machine made]
      cases call with
      | stats call => exact seen_of_lookAlike (stats_lookAlike trap.moment.env call _ _)
      | edit arguments => simp [Trap.isOf, made, Invocation.subsystem] at statistics
      | get buffer maxEntries returned =>
          simp [Trap.isOf, made, Invocation.subsystem] at statistics

theorem charged_congr (current : MmRef) {system other : System}
    (same : system.space = other.space) (trap : Trap) :
    trap.charged current system = trap.charged current other := by
  unfold Trap.charged
  rw [same]

theorem informs_of_isOf {observer : Subsystem} {trap : Trap} (isOf : trap.isOf observer = true) :
    trap.informs observer = true := by
  obtain rfl : trap.invocation.subsystem = observer := of_decide_eq_true isOf
  unfold Trap.informs
  cases trap.invocation.subsystem <;> rfl

/-- What may not inform a kind does not map. -/
theorem space_of_silent (current : MmRef) {observer : Subsystem} {trap : Trap}
    (silent : trap.informs observer = false) (system : System) :
    (processStep current system trap).2.space = system.space := by
  have foreign : trap.isOf .mappings = false := by
    by_contra maps
    rw [Bool.not_eq_false] at maps
    have kind : trap.invocation.subsystem = .mappings := of_decide_eq_true maps
    unfold Trap.informs at silent
    rw [kind] at silent
    cases silent
  exact space_of_other (trap.charged current system) foreign system

/-- The mappings of the process only depend on its mappings. -/
theorem space_determined (current : MmRef) {system other : System}
    (same : system.space = other.space) (trap : Trap) :
    (processStep current system trap).2.space = (processStep current other trap).2.space := by
  cases maps : trap.isOf .mappings with
  | true =>
      unfold processStep
      rw [charged_congr current same]
      exact (mappings_determined (trap.charged current other) maps same).2
  | false =>
      have left := space_of_other (trap.charged current system) maps system
      have right := space_of_other (trap.charged current other) maps other
      exact left.trans (same.trans right.symm)

/-- The lists only depend on the calls of the limits and, through the admission
of `add_memory_limit`, on the mappings. -/
theorem heads_determined (current : MmRef) {system other : System}
    (heads : system.machine.heads = other.machine.heads) (space : system.space = other.space)
    (trap : Trap) :
    (processStep current system trap).2.machine.heads =
      (processStep current other trap).2.machine.heads := by
  unfold processStep
  rw [charged_congr current space]
  cases limits : trap.isOf .limits with
  | true => exact (limits_determined (trap.charged current other) limits heads).2
  | false =>
      have left := heads_of_other (trap.charged current other) limits system
      have right := heads_of_other (trap.charged current other) limits other
      exact left.trans (heads.trans right.symm)

/-- A kind whose results only depend on the mappings is isolated. -/
theorem isolated_of_space (current : MmRef) {observer : Subsystem}
    (determined : ∀ trap : Trap, trap.isOf observer = true → ∀ {system other : System},
      system.space = other.space → (trap.step system).1 = (trap.step other).1)
    (system : System) (traps : List Trap) :
    Transition.outputsOf (processStep current) (Trap.isOf observer) system traps =
      Transition.outputsOf (processStep current) (Trap.isOf observer) system
        (traps.filter (Trap.informs observer)) := by
  apply Transition.outputsOf_filter _ _ _ System.space fun _ isOf => informs_of_isOf isOf
  · intro state trap silent
    exact space_of_silent current silent state
  · intro state other trap _ same
    refine ⟨?_, space_determined current same trap⟩
    intro isOf
    unfold processStep
    rw [charged_congr current same]
    exact determined (trap.charged current other) isOf same
  · rfl

/-- The mappings do inform the others: the limit of one page that a process of
one page is given is refused after it has mapped 5000 bytes. -/
example :
    Transition.outputs (processStep 1) ⟨.boot fun _ => 0, ⟨[], [], []⟩⟩
        [⟨quietMoment, .addMemoryLimit, ⟨7, 4096, 0⟩⟩] = [⟨0, []⟩] ∧
      Transition.outputs (processStep 1) ⟨.boot fun _ => 0, ⟨[], [], []⟩⟩
        [⟨quietMoment, .tamallocStats, ⟨5000, 0, 0⟩⟩,
          ⟨quietMoment, .addMemoryLimit, ⟨7, 4096, 0⟩⟩] = [⟨0x10000, []⟩, ⟨-100, []⟩] := by
  decide

end UsacSyscalls.Userland
