import UsacSyscalls.Foundation.Decimal
import UsacSyscalls.Userland.Entry

/-!
Contract: the calls that the test programs make, and what a process meets when
it makes them.

Owns the operations of a user program, the world that answers them, the handler
that runs a program on a process, the number parsing of the C library, and the
condition that every load and store goes to mapped memory.

Does not own any program.
-/

set_option autoImplicit false

namespace UsacSyscalls.Userland

open UsacSyscalls.Foundation
open UsacSyscalls.Kernel
open UsacSyscalls.Project2

/-! ### Numbers in arguments and names -/

def isspace (char : Char) : Bool := [' ', '\t', '\n', '\x0b', '\x0c', '\r'].contains char

/-- `strtol(text, NULL, 10)`: it stops at the first character that is no digit,
and at the limits of a `long`. -/
def strtol (text : List Char) : Int :=
  let rest := text.dropWhile isspace
  let sign := rest.head?
  let digits := if sign = some '-' ∨ sign = some '+' then rest.tail else rest
  let magnitude : Int := Nat.ofDigitChars 10 (digits.takeWhile Char.isDigit) 0
  let value := if sign = some '-' then -magnitude else magnitude
  max (-2 ^ 63) (min value (2 ^ 63 - 1))

/-- The value of `strtol`, converted to `int`. -/
def atoi (text : List Char) : BitVec 32 := BitVec.ofInt 32 (strtol text)

def atol (text : List Char) : BitVec 64 := BitVec.ofInt 64 (strtol text)

theorem not_isspace_of_isDigit {char : Char} (digit : char.isDigit = true) :
    isspace char = false := by
  have apart : [' ', '\t', '\n', '\x0b', '\x0c', '\r'].all (fun space => !space.isDigit) = true :=
    rfl
  cases spaced : isspace char with
  | false => rfl
  | true =>
      have other := List.all_eq_true.mp apart char (List.contains_iff_mem.mp spaced)
      rw [digit] at other
      exact absurd other Bool.false_ne_true

/-- Digits alone are read as the number they stand for. -/
theorem strtol_decimal {value : Nat} (small : value < 2 ^ 63) : strtol (decimal value) = value := by
  have every : ∀ digit ∈ decimal value, digit.isDigit = true := fun _ => isDigit_of_mem_decimal
  have noSpace : (decimal value).dropWhile isspace = decimal value := by
    cases digits : decimal value with
    | nil => rfl
    | cons first later =>
        apply List.dropWhile_cons_of_neg
        rw [not_isspace_of_isDigit (every first (by simp [digits]))]
        exact Bool.false_ne_true
  have noSign : ∀ sign : Char, sign.isDigit = false → (decimal value).head? ≠ some sign := by
    intro sign other first
    have digit := every sign (List.mem_of_mem_head? first)
    rw [other] at digit
    exact absurd digit Bool.false_ne_true
  have minus := noSign '-' (by decide)
  have plus := noSign '+' (by decide)
  have number : Nat.ofDigitChars 10 ((decimal value).takeWhile Char.isDigit) 0 = value := by
    have whole := takeWhile_decimal value stops_nil
    rw [List.append_nil] at whole
    rw [whole, ofDigitChars_decimal]
  simp only [strtol, noSpace, minus, plus, or_self, if_false, number]
  omega

/-! ### Operations -/

/-- Calls whose result the programs ignore. `srand` stands for
`srand(time(NULL))`, `clear` for `system("clear")`, and `signal` for the
installation of the `SIGINT` handler. -/
inductive Idle where
  | getchar
  | srand
  | clear
  | signal
  | closedir
  | sleep (seconds : Nat)
  | usleep (microseconds : Nat)
  | nanosleep (seconds nanoseconds : Nat)
deriving DecidableEq, Repr

/-- The members of `struct dirent` that are read. -/
structure Dirent where
  dType : Byte
  dName : List Char
deriving DecidableEq, Repr

def dtDir : Byte := 4

/-- `passInt` is an `int` argument of the variadic `syscall`: the register it
travels in has an upper half that nobody sets. A `load` reads `width` bytes, and
`rand` draws a number up to `RAND_MAX`. `opendir` replies whether the stream is
there. -/
inductive UserOp where
  | syscall (number : Nat) (registers : Registers)
  | passInt (value : BitVec 32)
  | load (address width bits : Nat)
  | store (address : Nat) (bytes : List Byte)
  | printf (text : String)
  | perror (message : String)
  | getpid
  | rand
  | opendir (name : String)
  | readdir
  | idle (call : Idle)

@[reducible] def UserReply : UserOp → Type
  | .syscall _ _ => Int
  | .passInt _ => UnsignedLong
  | .load _ _ bits => BitVec bits
  | .store _ _ => Unit
  | .printf _ => Unit
  | .perror _ => Unit
  | .getpid => PidT
  | .rand => Fin (2 ^ 31)
  | .opendir _ => Bool
  | .readdir => Option Dirent
  | .idle _ => Unit

abbrev User (α : Type) := Program UserOp UserReply α

def syscall (number : Nat) (registers : Registers) : User Int :=
  .perform (UserOp.syscall number registers)
def passInt (value : BitVec 32) : User UnsignedLong := .perform (UserOp.passInt value)
def load (address width bits : Nat) : User (BitVec bits) :=
  .perform (UserOp.load address width bits)
def store (address : Nat) (bytes : List Byte) : User Unit := .perform (UserOp.store address bytes)
def printf (text : String) : User Unit := .perform (UserOp.printf text)
def perror (message : String) : User Unit := .perform (UserOp.perror message)
def getpid : User PidT := .perform UserOp.getpid
def rand : User (Fin (2 ^ 31)) := .perform UserOp.rand
def opendir (name : String) : User Bool := .perform (UserOp.opendir name)
def readdir : User (Option Dirent) := .perform UserOp.readdir
def idle (call : Idle) : User Unit := .perform (UserOp.idle call)

/-! ### The world of a process -/

/-- What a process meets: the kernel at each of its syscalls, the upper halves
of its `int` arguments, the numbers it draws, its own pid, and what `opendir`
fails with or `readdir` then returns for `/proc`, entry by entry. -/
structure World where
  moment : Nat → Moment
  upper : Nat → BitVec 32
  random : Nat → Fin (2 ^ 31)
  pid : PidT
  directory : Except Int (List Dirent)

inductive Event where
  | printed (text : String)
  | failed (message : String) (errno : Int)
  | idled (call : Idle)
deriving DecidableEq, Repr

/-- A running process: the system it runs on, how many syscalls it has made and
numbers it has drawn, what its directory stream still holds, and what it has
shown. -/
structure Process where
  system : System
  errno : Int
  calls : Nat
  draws : Nat
  stream : List Dirent
  log : List Event

namespace Process

variable (process : Process)

def user : ByteMemory := process.system.machine.user

def shown (events : List Event) : Process := { process with log := process.log ++ events }

def written (user : ByteMemory) : Process :=
  { process with
    system := { process.system with machine := { process.system.machine with user := user } } }

/-- The process after a syscall. -/
def returned (outcome : Seen × System) : Process :=
  { process with
    system := outcome.2
    errno := if IsErrValue outcome.1.result then errnoOf outcome.1.result else process.errno
    calls := process.calls + 1 }

/-- The bytes lie in one mapping of the process. -/
def Mapped (address length : Nat) : Prop :=
  ∃ region ∈ process.system.space.regions,
    region.base ≤ address ∧ address + length ≤ region.base + region.length

@[simp] theorem shown_shown (first second : List Event) :
    (process.shown first).shown second = process.shown (first ++ second) := by
  simp [shown]

@[simp] theorem shown_nil : process.shown [] = process := by
  simp [shown]

@[simp] theorem written_user (user : ByteMemory) : (process.written user).user = user := rfl

@[simp] theorem shown_user (events : List Event) : (process.shown events).user = process.user := rfl

@[simp] theorem written_written (first second : ByteMemory) :
    (process.written first).written second = process.written second := rfl

theorem written_self : process.written process.user = process := rfl

end Process

/-- What a stretch of a run that works on one buffer does to a process: it shows
`events`, makes `calls` syscalls, and changes neither the mappings nor any
memory outside the buffer. -/
structure Advanced (buffer : Region) (events : List Event) (calls : Nat)
    (before after : Process) : Prop where
  log : after.log = before.log ++ events
  calls : after.calls = before.calls + calls
  space : after.system.space = before.system.space
  memory : ∀ address, address < buffer.base ∨ buffer.base + buffer.length ≤ address →
    after.user address = before.user address

namespace Advanced

variable {buffer : Region} {before between after : Process}

theorem shown (process : Process) (events : List Event) :
    Advanced buffer events 0 process (process.shown events) :=
  ⟨rfl, rfl, rfl, fun _ _ => rfl⟩

theorem trans {first second : List Event} {early late : Nat}
    (head : Advanced buffer first early before between)
    (tail : Advanced buffer second late between after) :
    Advanced buffer (first ++ second) (early + late) before after where
  log := by rw [tail.log, head.log, List.append_assoc]
  calls := by rw [tail.calls, head.calls, Nat.add_assoc]
  space := tail.space.trans head.space
  memory := by
    intro address outside
    rw [tail.memory address outside, head.memory address outside]

theorem mapped {events : List Event} {calls address length : Nat}
    (advanced : Advanced buffer events calls before after) (room : before.Mapped address length) :
    after.Mapped address length := by
  unfold Process.Mapped at room ⊢
  rwa [advanced.space]

end Advanced

/-- A local variable that is handed to syscalls: it is mapped, and the kernel
can always copy to it. -/
structure LocalVariable (world : World) (process : Process) (address size : Nat) : Prop where
  mapped : process.Mapped address size
  copies : ∀ time, (world.moment time).env.Copies address size

theorem LocalVariable.advance {world : World} {before after : Process} {address size : Nat}
    {buffer : Region} {events : List Event} {calls : Nat}
    (held : LocalVariable world before address size)
    (advanced : Advanced buffer events calls before after) :
    LocalVariable world after address size :=
  ⟨advanced.mapped held.mapped, held.copies⟩

def enoent : Int := 2
def enosys : Int := 38

/-- How the world answers. A number outside the table is no call of this
project, and no program here uses one. -/
def userland (world : World) : Program.Handler UserOp UserReply Process
  | .syscall number registers, process =>
      match syscallTable.lookup number with
      | none => (-1, { process with errno := enosys, calls := process.calls + 1 })
      | some entry =>
          let outcome := enter (world.moment process.calls) (entry.invocation registers)
            process.system
          (libcSyscall outcome.1.result, process.returned outcome)
  | .passInt value, process => (world.upper process.calls ++ value, process)
  | .load address width bits, process => (getField process.user address width bits, process)
  | .store address bytes, process => ((), process.written (process.user.store address bytes))
  | .printf text, process => ((), process.shown [.printed text])
  | .perror message, process => ((), process.shown [.failed message process.errno])
  | .getpid, process => (world.pid, process)
  | .rand, process =>
      (world.random process.draws, { process with draws := process.draws + 1 })
  | .opendir _, process =>
      match world.directory with
      | .error errno => (false, { process with errno := errno })
      | .ok entries => (true, { process with stream := entries })
  | .readdir, process => (process.stream.head?, { process with stream := process.stream.tail })
  | .idle call, process => ((), process.shown [.idled call])

/-- Loads and stores go to mapped memory. -/
def AccessSafe (process : Process) : UserOp → Prop
  | .load address width _ => process.Mapped address width
  | .store address bytes => process.Mapped address bytes.length
  | _ => True

/-- The program runs safely from one process to the other, with this value. -/
abbrev Behaves {α : Type} (world : World) (program : User α) (process : Process) (value : α)
    (after : Process) : Prop :=
  Program.Runs (userland world) AccessSafe program process (value, after)

section Rules

variable {world : World} {process : Process}

theorem Behaves.ends {α : Type} {program : User α} {value : α} {after last : Process}
    (run : Behaves world program process value after) (same : after = last) :
    Behaves world program process value last :=
  same ▸ run

theorem behaves_syscall {number : Nat} {entry : Entry}
    (found : syscallTable.lookup number = some entry) (registers : Registers) :
    Behaves world (syscall number registers) process
      (libcSyscall (enter (world.moment process.calls) (entry.invocation registers)
        process.system).1.result)
      (process.returned (enter (world.moment process.calls) (entry.invocation registers)
        process.system)) := by
  have performed : Behaves world (syscall number registers) process _ _ :=
    Program.Runs.perform trivial
  simpa only [userland, found] using performed

/-! `tamalloc_stats` as a process meets it. -/

/-- The process after the call. -/
def afterMap (world : World) (size : SizeT) (process : Process) : Process :=
  process.returned (enterMap (world.moment process.calls) size process.system)

def MapRefused (world : World) (size : SizeT) (process : Process) : Prop :=
  Refused size process.system (enterMap (world.moment process.calls) size process.system)

def MapGranted (world : World) (size : SizeT) (process : Process) (base : Nat) : Prop :=
  Granted (world.moment process.calls) size process.system base
    (enterMap (world.moment process.calls) size process.system)

theorem map_cases {size : SizeT}
    (answered : AnsweredThroughout process.system.space
      ⟨size, (world.moment process.calls).answer⟩) :
    MapRefused world size process ∨
      MapGranted world size process (world.moment process.calls).answer.toNat :=
  enterMap_cases answered

theorem behaves_tamallocStats (size : SizeT) :
    Behaves world (syscall 552 ⟨size, 0, 0⟩) process
      (libcSyscall (enterMap (world.moment process.calls) size process.system).1.result)
      (afterMap world size process) := by
  have found : syscallTable.lookup 552 = some .tamallocStats := rfl
  exact behaves_syscall found _

theorem behaves_map_refused {size : SizeT} (refused : MapRefused world size process) :
    Behaves world (syscall 552 ⟨size, 0, 0⟩) process (-1) (afterMap world size process) := by
  rw [← refused.result]
  exact behaves_tamallocStats size

theorem behaves_map_granted {size : SizeT} {base : Nat}
    (granted : MapGranted world size process base) :
    Behaves world (syscall 552 ⟨size, 0, 0⟩) process base (afterMap world size process) := by
  rw [← granted.result]
  exact behaves_tamallocStats size

theorem afterMap_errno {size : SizeT} (refused : MapRefused world size process) :
    (afterMap world size process).errno = if size = 0 then einval else enomem := by
  rw [← refused.errno]
  exact if_pos refused.failed

theorem afterMap_user_of_refused {size : SizeT} (refused : MapRefused world size process) :
    (afterMap world size process).user = process.user :=
  congrArg Machine.user refused.machine

/-! The statistics calls as a process meets them. -/

def afterStats (world : World) (call : StatsCall) (process : Process) : Process :=
  process.returned (enterMachine (world.moment process.calls).env (.stats call) process.system)

theorem advanced_afterStats (call : StatsCall) :
    Advanced (window call) [] 1 process (afterStats world call process) where
  log := (List.append_nil _).symm
  calls := rfl
  space := rfl
  memory := by
    intro address outside
    apply stats_frame
    intro inside
    have bounds : (window call).base ≤ address ∧
        address < (window call).base + (window call).length := inside
    omega

section StatsOutcome

variable {number : Nat} {entry : Entry} {registers : Registers} {call : StatsCall}
  (found : syscallTable.lookup number = some entry)
  (invoked : entry.invocation registers = .machine (.stats call))

include found invoked

theorem behaves_stats :
    Behaves world (syscall number registers) process
      (libcSyscall (enterMachine (world.moment process.calls).env (.stats call)
        process.system).1.result)
      (afterStats world call process) := by
  have run : Behaves world (syscall number registers) process _ _ := behaves_syscall found registers
  rwa [invoked] at run

theorem behaves_stats_ok {user : ByteMemory}
    (outcome : complete (world.moment process.calls).env call.body process.system.machine =
      (0, { process.system.machine with user := user })) :
    Behaves world (syscall number registers) process 0 (afterStats world call process) ∧
      (afterStats world call process).user = user := by
  have run : Behaves world (syscall number registers) process _ _ := behaves_stats found invoked
  have zero : libcSyscall (BitVec.ofInt 64 0) = 0 := libcSyscall_of_nonneg (by decide) (by decide)
  have code : libcSyscall (enterMachine (world.moment process.calls).env (.stats call)
      process.system).1.result = 0 := by
    show libcSyscall (BitVec.ofInt 64 (complete _ call.body _).1) = 0
    rw [outcome, zero]
  rw [code] at run
  constructor
  · exact run
  · show (complete _ call.body _).2.user = user
    rw [outcome]

theorem behaves_stats_error {errno : Int}
    (outcome : complete (world.moment process.calls).env call.body process.system.machine =
      (-errno, process.system.machine))
    (positive : 0 < errno) (small : errno ≤ 4095) :
    Behaves world (syscall number registers) process (-1) (afterStats world call process) ∧
      (afterStats world call process).errno = errno := by
  have run : Behaves world (syscall number registers) process _ _ := behaves_stats found invoked
  have register : (enterMachine (world.moment process.calls).env (.stats call)
      process.system).1.result = BitVec.ofInt 64 (-errno) := by
    show BitVec.ofInt 64 (complete _ call.body _).1 = _
    rw [outcome]
  have failed : IsErrValue (BitVec.ofInt 64 (-errno)) := by
    have value : (BitVec.ofInt 64 (-errno)).toInt = -errno :=
      BitVec.toInt_ofInt_eq_self (by decide) (by omega) (by omega)
    rw [isErrValue_iff, value]
    omega
  obtain ⟨code, number⟩ := libcSyscall_of_errno positive small
  rw [register, code] at run
  constructor
  · exact run
  · show (if IsErrValue (enterMachine _ _ _).1.result then errnoOf (enterMachine _ _ _).1.result
      else process.errno) = errno
    rw [register, if_pos failed, number]

end StatsOutcome

theorem behaves_passInt (value : BitVec 32) :
    Behaves world (passInt value) process (world.upper process.calls ++ value) process :=
  Program.Runs.perform trivial

theorem behaves_load {address width bits : Nat} (mapped : process.Mapped address width) :
    Behaves world (load address width bits) process (getField process.user address width bits)
      process :=
  Program.Runs.perform mapped

theorem behaves_store {address : Nat} {bytes : List Byte}
    (mapped : process.Mapped address bytes.length) :
    Behaves world (store address bytes) process ()
      (process.written (process.user.store address bytes)) :=
  Program.Runs.perform mapped

theorem behaves_printf (text : String) :
    Behaves world (printf text) process () (process.shown [.printed text]) :=
  Program.Runs.perform trivial

theorem behaves_perror (message : String) :
    Behaves world (perror message) process () (process.shown [.failed message process.errno]) :=
  Program.Runs.perform trivial

theorem behaves_getpid : Behaves world getpid process world.pid process :=
  Program.Runs.perform trivial

theorem behaves_rand :
    Behaves world rand process (world.random process.draws)
      { process with draws := process.draws + 1 } :=
  Program.Runs.perform trivial

theorem behaves_opendir_error {name : String} {errno : Int}
    (failed : world.directory = .error errno) :
    Behaves world (opendir name) process false { process with errno := errno } := by
  have performed : Behaves world (opendir name) process _ _ := Program.Runs.perform trivial
  simpa only [userland, failed] using performed

theorem behaves_opendir_ok {name : String} {entries : List Dirent}
    (opened : world.directory = .ok entries) :
    Behaves world (opendir name) process true { process with stream := entries } := by
  have performed : Behaves world (opendir name) process _ _ := Program.Runs.perform trivial
  simpa only [userland, opened] using performed

theorem behaves_readdir :
    Behaves world readdir process process.stream.head?
      { process with stream := process.stream.tail } :=
  Program.Runs.perform trivial

theorem behaves_idle (call : Idle) :
    Behaves world (idle call) process () (process.shown [.idled call]) :=
  Program.Runs.perform trivial

end Rules

theorem getField_byte (user : ByteMemory) (address : Nat) :
    getField user address 1 8 = user address := by
  simp [getField, ByteMemory.loadLE, ByteMemory.load, leValue]

/-- The upper half of a register does not reach an `int` parameter. -/
theorem setWidth_passInt (upper value : BitVec 32) :
    (upper ++ value : BitVec 64).setWidth 32 = value := by
  apply BitVec.eq_of_getLsbD_eq
  intro index below
  rw [BitVec.getLsbD_setWidth, BitVec.getLsbD_append]
  simp [below]

/-- A world without a `/proc` in which every syscall is answered quietly. -/
def quietWorld : World := ⟨fun _ => quietMoment, fun _ => 0, fun _ => 0, 7, .error enoent⟩

/-- A process without mappings that has done nothing yet. -/
def newProcess : Process := ⟨⟨.boot fun _ => 0, ⟨[], [], []⟩⟩, 0, 0, 0, [], []⟩

end UsacSyscalls.Userland
