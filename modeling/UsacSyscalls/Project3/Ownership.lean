import UsacSyscalls.Project3.Registry

/-!
Contract: the registry next to the process table.

Owns runs that mix completed memory-limit calls with process creation and
exit, where a freed pid may be given to a new process, and the result on which
process an entry was made for when a later `add_memory_limit` finds it.

Does not own page counts or scheduling of the processes.
-/

set_option autoImplicit false

namespace UsacSyscalls.Project3

open UsacSyscalls.Foundation
open UsacSyscalls.Kernel

/-! ### Processes and calls

A `TaskRef` stands for one process and is never used again after its exit, a
pid may be. `limitedFor` is a history variable: it remembers for which process
the last successful `add` of each pid was made, until a `remove` of the pid
succeeds. -/

structure World where
  machine : Machine
  alive : List TaskRef
  created : List TaskRef
  pidOf : TaskRef → PidT
  limitedFor : PidT → Option TaskRef

inductive WorldEvent where
  | call (call : Call)
  | fork (task : TaskRef) (pid : PidT)
  | exit (task : TaskRef)

def World.boot (user : ByteMemory) : World where
  machine := .boot user
  alive := []
  created := []
  pidOf := fun _ => 0
  limitedFor := fun _ => none

def Call.env : Call → Environment
  | .add env _ _ => env
  | .update env _ _ => env
  | .remove env _ => env
  | .get env _ _ _ => env

def noteLimit (limitedFor : PidT → Option TaskRef) :
    Call → Observation → PidT → Option TaskRef
  | .add env processPid _, observation =>
      if observation.code = 0 then Function.update limitedFor processPid (env.lookup processPid)
      else limitedFor
  | .remove _ processPid, observation =>
      if observation.code = 0 then Function.update limitedFor processPid none else limitedFor
  | _, _ => limitedFor

def World.step (world : World) : WorldEvent → Option Observation × World
  | .call call =>
      let outcome := call.step world.machine
      (some outcome.1,
        { world with
          machine := outcome.2
          limitedFor := noteLimit world.limitedFor call outcome.1 })
  | .fork task pid =>
      (none,
        { world with
          alive := task :: world.alive
          created := task :: world.created
          pidOf := Function.update world.pidOf task pid })
  | .exit task => (none, { world with alive := world.alive.filter (· ≠ task) })

/-- The process list of a call is that of the world, in some order. -/
structure Shows (env : Environment) (world : World) : Prop where
  processes : env.processes.Perm world.alive
  pids : ∀ task ∈ world.alive, (env.task task).pid = world.pidOf task

instance (env : Environment) (world : World) : Decidable (Shows env world) :=
  decidable_of_iff (env.processes.Perm world.alive ∧
      ∀ task ∈ world.alive, (env.task task).pid = world.pidOf task)
    ⟨fun both => ⟨both.1, both.2⟩, fun shows => ⟨shows.processes, shows.pids⟩⟩

/-- What the kernel promises of the events: calls see the living processes, and
a new process gets a pid that no living process has. -/
def Possible (world : World) : WorldEvent → Prop
  | .call call => Shows call.env world
  | .fork task pid => task ∉ world.created ∧ ∀ other ∈ world.alive, world.pidOf other ≠ pid
  | .exit task => task ∈ world.alive

instance (world : World) (event : WorldEvent) : Decidable (Possible world event) :=
  match event with
  | .call call => inferInstanceAs (Decidable (Shows call.env world))
  | .fork _ _ => inferInstanceAs (Decidable (_ ∧ _))
  | .exit _ => inferInstanceAs (Decidable (_ ∈ _))

/-! ### Invariant -/

structure WorldInvariant (world : World) : Prop where
  registry : RegistryInvariant world.machine
  owners : ∀ first ∈ world.alive, ∀ second ∈ world.alive,
    world.pidOf first = world.pidOf second → first = second
  created : ∀ task ∈ world.alive, task ∈ world.created
  limited : ∀ pid, Listed (world.machine.heads .shared) pid →
    ∃ task ∈ world.created, world.limitedFor pid = some task ∧ world.pidOf task = pid

theorem boot_worldInvariant (user : ByteMemory) : WorldInvariant (.boot user) where
  registry := boot_invariant user
  owners := by simp [World.boot]
  created := by simp [World.boot]
  limited := by simp [World.boot, Machine.boot, Listed]

/-- The task a call finds under a pid is the living process that owns it. -/
theorem mem_alive_of_lookup {env : Environment} {world : World} (shows : Shows env world)
    {pid : PidT} {task : TaskRef} (found : env.lookup pid = some task) :
    task ∈ world.alive ∧ world.pidOf task = pid := by
  have listed := List.mem_of_find?_eq_some found
  have matching := List.find?_some found
  have alive := shows.processes.mem_iff.mp listed
  refine ⟨alive, ?_⟩
  rw [← shows.pids task alive]
  exact eq_of_beq matching

theorem lookup_of_mem_alive {env : Environment} {world : World} (invariant : WorldInvariant world)
    (shows : Shows env world) {task : TaskRef} (alive : task ∈ world.alive) :
    env.lookup (world.pidOf task) = some task := by
  cases found : env.lookup (world.pidOf task) with
  | none =>
      have absent := List.find?_eq_none.mp found task (shows.processes.mem_iff.mpr alive)
      rw [shows.pids task alive] at absent
      exact absurd (beq_self_eq_true _) absent
  | some other =>
      obtain ⟨otherAlive, samePid⟩ := mem_alive_of_lookup shows found
      rw [invariant.owners other otherAlive task alive samePid]

theorem admission_ok_lookup {env : Environment} {processPid : PidT} {memoryLimit : SizeT}
    {task : TaskRef} (admitted : admission env processPid memoryLimit = .ok task) :
    env.lookup processPid = some task := by
  unfold admission at admitted
  split at admitted
  · contradiction
  · split at admitted
    · contradiction
    · split at admitted
      · contradiction
      · split at admitted
        · contradiction
        · obtain rfl := Except.ok.inj admitted
          assumption

/-- Only a successful `add` changes the history while the static lists are
empty. -/
theorem noteLimit_of_not_added {machine : Machine} (empty : StaticsEmpty machine) {call : Call}
    (notAdded : addedEntry (call, (call.step machine).1) = none)
    (limitedFor : PidT → Option TaskRef) :
    noteLimit limitedFor call (call.step machine).1 = limitedFor := by
  cases call with
  | add env processPid memoryLimit =>
      apply if_neg
      intro zero
      simp only [addedEntry, if_pos zero] at notAdded
      contradiction
  | update env processPid memoryLimit => rfl
  | remove env processPid =>
      apply if_neg
      rw [step_remove empty]
      split
      · exact show -einval ≠ 0 by decide
      · split
        · exact show -eperm ≠ 0 by decide
        · exact show -esrch ≠ 0 by decide
  | get env buffer maxEntries returned => rfl

section Step

variable {world : World} (invariant : WorldInvariant world)

include invariant

theorem call_worldInvariant {call : Call} (shows : Shows call.env world) :
    WorldInvariant (world.step (.call call)).2 where
  registry := step_invariant invariant.registry call
  owners := invariant.owners
  created := invariant.created
  limited := by
    intro pid listed
    simp only [World.step] at listed ⊢
    rcases step_heads invariant.registry.statics call with
      ⟨same, notAdded⟩ | ⟨env, processPid, memoryLimit, task, rfl, admitted, -, outcome⟩
    · rw [same] at listed
      rw [noteLimit_of_not_added invariant.registry.statics notAdded]
      exact invariant.limited pid listed
    · rw [outcome, setHead_shared] at listed
      rw [outcome]
      have found := admission_ok_lookup admitted
      have noted : noteLimit world.limitedFor (.add env processPid memoryLimit) ⟨0, []⟩ =
          Function.update world.limitedFor processPid (some task) := by
        simp [noteLimit, found]
      rw [noted]
      by_cases samePid : pid = processPid
      · obtain ⟨alive, pidOfTask⟩ := mem_alive_of_lookup shows found
        subst samePid
        exact ⟨task, invariant.created task alive, Function.update_self _ _ _, pidOfTask⟩
      · unfold Listed at listed
        rw [List.map_cons, List.mem_cons] at listed
        obtain ⟨earlier, wasCreated, limited, pidOfEarlier⟩ :=
          invariant.limited pid (listed.resolve_left samePid)
        refine ⟨earlier, wasCreated, ?_, pidOfEarlier⟩
        rw [Function.update_of_ne samePid, limited]

theorem fork_worldInvariant {task : TaskRef} {pid : PidT} (fresh : task ∉ world.created)
    (unowned : ∀ other ∈ world.alive, world.pidOf other ≠ pid) :
    WorldInvariant (world.step (.fork task pid)).2 := by
  have older : ∀ other ∈ world.created, Function.update world.pidOf task pid other =
      world.pidOf other := by
    intro other wasCreated
    apply Function.update_of_ne
    rintro rfl
    exact fresh wasCreated
  have oldAlive : ∀ other ∈ world.alive, Function.update world.pidOf task pid other =
      world.pidOf other := fun other alive => older other (invariant.created other alive)
  constructor
  case registry => exact invariant.registry
  case owners =>
    intro first firstAlive second secondAlive samePid
    simp only [World.step] at firstAlive secondAlive samePid
    rcases List.mem_cons.mp firstAlive with rfl | firstOld
    · rcases List.mem_cons.mp secondAlive with rfl | secondOld
      · rfl
      · rw [Function.update_self, oldAlive second secondOld] at samePid
        exact absurd samePid.symm (unowned second secondOld)
    · rcases List.mem_cons.mp secondAlive with rfl | secondOld
      · rw [Function.update_self, oldAlive first firstOld] at samePid
        exact absurd samePid (unowned first firstOld)
      · rw [oldAlive first firstOld, oldAlive second secondOld] at samePid
        exact invariant.owners first firstOld second secondOld samePid
  case created =>
    intro other alive
    rcases List.mem_cons.mp alive with rfl | old
    · exact List.mem_cons_self
    · exact List.mem_cons_of_mem _ (invariant.created other old)
  case limited =>
    intro listedPid listed
    obtain ⟨earlier, wasCreated, limited, pidOfEarlier⟩ := invariant.limited listedPid listed
    refine ⟨earlier, List.mem_cons_of_mem _ wasCreated, limited, ?_⟩
    exact (older earlier wasCreated).trans pidOfEarlier

theorem exit_worldInvariant (task : TaskRef) :
    WorldInvariant (world.step (.exit task)).2 where
  registry := invariant.registry
  owners := by
    intro first firstAlive second secondAlive samePid
    exact invariant.owners first (List.mem_of_mem_filter firstAlive) second
      (List.mem_of_mem_filter secondAlive) samePid
  created := by
    intro other alive
    exact invariant.created other (List.mem_of_mem_filter alive)
  limited := invariant.limited

end Step

theorem reachable_worldInvariant (user : ByteMemory) {events : List WorldEvent}
    (possible : Transition.Along World.step Possible (.boot user) events) :
    WorldInvariant (Transition.final World.step (.boot user) events) := by
  refine Transition.invariant_final World.step Possible WorldInvariant ?_
    (boot_worldInvariant user) possible
  intro world event invariant possible
  cases event with
  | call call => exact call_worldInvariant invariant possible
  | fork task pid => exact fork_worldInvariant invariant possible.1 possible.2
  | exit task => exact exit_worldInvariant invariant task

theorem listed_of_duplicate {env : Environment} {processPid : PidT} {memoryLimit : SizeT}
    {machine : Machine}
    (duplicate : (complete env (addMemoryLimit processPid memoryLimit) machine).1 = -101) :
    Listed (machine.heads .shared) processPid := by
  by_contra unlisted
  rw [complete_addMemoryLimit] at duplicate
  cases admitted : admission env processPid memoryLimit with
  | error code =>
      simp only [admitted] at duplicate
      subst duplicate
      exact absurd (admission_error_code admitted) (by decide)
  | ok task =>
      simp only [admitted, if_neg unlisted] at duplicate
      split at duplicate
      · exact absurd duplicate (show (0 : Int) ≠ -101 by decide)
      · exact absurd duplicate (show -enomem ≠ -101 by decide)

/-- Over every run of calls, process creation and exit from boot: when an
`add_memory_limit` returns -101, an earlier `add` of the same number returned 0
for the process that owned it then, and no `remove` of it succeeded since. If
that process is still alive, it is the one that owns the pid now. -/
theorem duplicate_limit_was_set_for_owner (user : ByteMemory) (events : List WorldEvent)
    (possible : Transition.Along World.step Possible (.boot user) events)
    (env : Environment) (processPid : PidT) (memoryLimit : SizeT)
    (shows : Shows env (Transition.final World.step (.boot user) events))
    (duplicate : (complete env (addMemoryLimit processPid memoryLimit)
      (Transition.final World.step (.boot user) events).machine).1 = -101) :
    ∃ process,
      (Transition.final World.step (.boot user) events).limitedFor processPid = some process ∧
        (process ∈ (Transition.final World.step (.boot user) events).alive →
          env.lookup processPid = some process) := by
  have invariant := reachable_worldInvariant user possible
  obtain ⟨process, -, limited, pidOfProcess⟩ :=
    invariant.limited processPid (listed_of_duplicate duplicate)
  refine ⟨process, limited, ?_⟩
  intro alive
  rw [← pidOfProcess]
  exact lookup_of_mem_alive invariant shows alive

theorem duplicate_limit_of_living_owner :
    let events : List WorldEvent := [.fork 1 7, .call (.add (.quiet 7) 7 8192)]
    let world := Transition.final World.step (.boot fun _ => 0) events
    (complete (.quiet 7) (addMemoryLimit 7 4096) world.machine).1 = -101 ∧
      ∃ process, world.limitedFor 7 = some process ∧
        (process ∈ world.alive → (Environment.quiet 7).lookup 7 = some process) :=
  ⟨by decide, duplicate_limit_was_set_for_owner (fun _ => 0)
    [.fork 1 7, .call (.add (.quiet 7) 7 8192)] (by decide) (.quiet 7) 7 4096 (by decide)
    (by decide)⟩

/-- The owner exits, its pid goes to a new process, and the new process is
found already limited. -/
theorem duplicate_limit_left_by_exited_owner :
    let events : List WorldEvent :=
      [.fork 1 7, .call (.add (.quiet 7) 7 8192), .exit 1, .fork 2 7]
    let world := Transition.final World.step (.boot fun _ => 0) events
    let env := { Environment.quiet 7 with processes := [2] }
    Transition.Along World.step Possible (.boot fun _ => 0) events ∧ Shows env world ∧
      (complete env (addMemoryLimit 7 8192) world.machine).1 = -101 ∧
      world.limitedFor 7 = some 1 ∧ env.lookup 7 = some 2 := by
  decide

end UsacSyscalls.Project3
