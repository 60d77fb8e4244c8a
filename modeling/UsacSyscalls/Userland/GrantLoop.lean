import Mathlib.Order.Interval.Finset.Nat
import UsacSyscalls.Userland.Process

/-!
Contract: `202000173_test_tamalloc_stat.c`, the program that maps memory once a
second and marks both ends of every mapping.

Owns the program, what one iteration does, and the outcome of any number of
iterations: which mappings are held and marked, what the program has shown, and
that the address space bounds how often it can go on.

Does not own the mapping itself; that is `Entry`.
-/

set_option autoImplicit false

namespace UsacSyscalls.Userland

open UsacSyscalls.Foundation
open UsacSyscalls.Kernel
open UsacSyscalls.Project2

/-! ### The program -/

def tamallocGetStat (size : SizeT) : User Int := syscall 552 ⟨size, 0, 0⟩

def sleepMs (milliseconds : Nat) : User Unit :=
  idle (.nanosleep (milliseconds / 1000) (milliseconds % 1000 * 1000000))

def assignedText (size : SizeT) (addr : Nat) : String :=
  "[Tiempo Real] Se asignaron " ++ toString size.toNat ++ " bytes en 0x" ++
    String.ofList (Nat.toDigits 16 addr) ++ "\n"

/-- `%c` -/
def charText (byte : Byte) : String := String.singleton (Char.ofNat byte.toNat)

def dataText (first last : Byte) : String :=
  "Datos escritos: Inicio = '" ++ charText first ++ "', Final = '" ++ charText last ++ "'\n"

/-- The block under `if (addr != 0)`; `'H'` is 72 and `'Z'` is 90. -/
def demonstrate (size : SizeT) (addr : Int) : User Unit :=
  if addr ≠ 0 then do
    let ptr : UnsignedLong := BitVec.ofInt 64 addr
    store ptr.toNat [72]
    store (ptr + (size - 1)).toNat [90]
    let first ← load ptr.toNat 1 8
    let last ← load (ptr + (size - 1)).toNat 1 8
    printf (dataText first last)
  else pure ()

def statFailed : String := "tamalloc_get_stat syscall"

/-- The loop of `main`, for a number of iterations; it has no end of its own
but the `return` of a failed call. -/
def statLoop (size : SizeT) : Nat → User (Option Int)
  | 0 => pure none
  | iterations + 1 => do
      idle .clear
      let addr ← tamallocGetStat size
      if addr < 0 then do
        perror statFailed
        pure (some 1)
      else do
        printf (assignedText size addr.toNat)
        demonstrate size addr
        sleepMs 1000
        statLoop size iterations

/-- The size a command line asks for: one megabyte without an argument. -/
def requestedSize : List (List Char) → SizeT
  | [] => 1024 * 1024
  | argument :: _ => atol argument

/-- `main` with its arguments after the program's name. -/
def statMain (arguments : List (List Char)) (iterations : Nat) : User (Option Int) :=
  statLoop (requestedSize arguments) iterations

/-! ### One iteration -/

/-- Memory with both ends of a mapping marked. -/
def marked (user : ByteMemory) (base : Nat) (size : SizeT) : ByteMemory :=
  if base = 0 then user else (user.store base [72]).store (base + (size.toNat - 1)) [90]

/-- What is found at the start of a marked mapping: a single byte is its own
end. -/
def firstMark (size : SizeT) : Byte := if size = 1 then 90 else 72

def iterationLog (size : SizeT) (base : Nat) : List Event :=
  [.idled .clear, .printed (assignedText size base)] ++
    (if base = 0 then [] else [.printed (dataText (firstMark size) 90)]) ++
    [.idled (.nanosleep 1 0)]

/-- The process after an iteration that was granted a mapping at `base`. -/
def iterated (world : World) (size : SizeT) (base : Nat) (process : Process) : Process :=
  ((afterMap world size process).written
    (marked (afterMap world size process).user base size)).shown (iterationLog size base)

section Iteration

variable {world : World} {size : SizeT} {process : Process} {base : Nat}
  (granted : MapGranted world size process base)

include granted

theorem lastByte_address :
    (BitVec.ofInt 64 (base : Int) + (size - 1)).toNat = base + (size.toNat - 1) ∧
      (BitVec.ofInt 64 (base : Int)).toNat = base := by
  have positive := granted.nonempty
  have covers := granted.covers
  have below := granted.below
  have start : (BitVec.ofInt 64 (base : Int)).toNat = base := by
    rw [BitVec.ofInt_natCast, BitVec.toNat_ofNat, Nat.mod_eq_of_lt (by omega)]
  have last : (size - 1).toNat = size.toNat - 1 := by
    bv_omega
  refine ⟨?_, start⟩
  rw [BitVec.toNat_add, start, last, Nat.mod_eq_of_lt (by omega)]

omit granted in
theorem marked_ends (user : ByteMemory) (placed : base ≠ 0) (positive : 0 < size.toNat) :
    marked user base size base = firstMark size ∧
      marked user base size (base + (size.toNat - 1)) = 90 := by
  have single : size = 1 ↔ size.toNat = 1 := by
    rw [← BitVec.toNat_inj]
    rfl
  unfold marked firstMark
  rw [if_neg placed]
  constructor
  · by_cases last : size = 1
    · have address : base + (size.toNat - 1) = base := by
        rw [single.mp last]
        rfl
      rw [if_pos last, address, ByteMemory.store_singleton_self]
    · have longer : size.toNat ≠ 1 := fun one => last (single.mpr one)
      rw [if_neg last, ByteMemory.store_singleton_other _ (by omega),
        ByteMemory.store_singleton_self]
  · exact ByteMemory.store_singleton_self _ _ _

/-- The marks are inside the new mapping. -/
theorem marked_outside {user : ByteMemory} {address : Nat}
    (outside : address < base ∨ base + (pageAlign size).toNat ≤ address) :
    marked user base size address = user address := by
  have positive := granted.nonempty
  have covers := granted.covers
  unfold marked
  by_cases null : base = 0
  · rw [if_pos null]
  · rw [if_neg null, ByteMemory.store_singleton_other _ (by omega),
      ByteMemory.store_singleton_other _ (by omega)]

theorem behaves_demonstrate {current : Process} (room : current.Mapped base size.toNat) :
    Behaves world (demonstrate size base) current ()
      ((current.written (marked current.user base size)).shown
        (if base = 0 then [] else [.printed (dataText (firstMark size) 90)])) := by
  have positive := granted.nonempty
  obtain ⟨last, first⟩ := lastByte_address granted
  obtain ⟨region, member, lower, upper⟩ := room
  unfold demonstrate
  by_cases null : base = 0
  · have unmarked : marked current.user base size = current.user := if_pos null
    rw [if_neg (by omega), if_pos null, unmarked, Process.written_self, Process.shown_nil]
    exact Program.Runs.pure ()
  · have placed : marked current.user base size =
        (current.user.store base [72]).store (base + (size.toNat - 1)) [90] := if_neg null
    obtain ⟨startMark, endMark⟩ := marked_ends current.user null positive
    rw [if_pos (by omega), if_neg null]
    simp only [last, first]
    have startRoom : ∀ user, (current.written user).Mapped base 1 := by
      intro user
      exact ⟨region, member, lower, by omega⟩
    have endRoom : ∀ user, (current.written user).Mapped (base + (size.toNat - 1)) 1 := by
      intro user
      exact ⟨region, member, by omega, by omega⟩
    apply Program.Runs.bind (behaves_store (startRoom current.user))
    apply Program.Runs.bind (behaves_store (endRoom _))
    apply Program.Runs.bind (behaves_load (startRoom _))
    apply Program.Runs.bind (behaves_load (endRoom _))
    rw [getField_byte, getField_byte]
    simp only [Process.written_user, ← placed, startMark, endMark]
    exact behaves_printf _

theorem behaves_granted_iteration {iterations : Nat} {value : Option Int} {after : Process}
    (rest : Behaves world (statLoop size iterations) (iterated world size base process) value
      after) :
    Behaves world (statLoop size (iterations + 1)) process value after := by
  have room : (((afterMap world size (process.shown [.idled .clear])).shown
      [.printed (assignedText size base)])).Mapped base size.toNat := by
    refine ⟨⟨base, (pageAlign size).toNat⟩, ?_, Nat.le_refl _,
      Nat.add_le_add_left granted.covers _⟩
    show _ ∈ (enterMap (world.moment process.calls) size process.system).2.space.regions
    rw [granted.regions]
    exact List.mem_cons_self
  have grantedHere : MapGranted world size (process.shown [.idled .clear]) base := granted
  unfold statLoop
  apply Program.Runs.bind (behaves_idle _)
  apply Program.Runs.bind (behaves_map_granted grantedHere)
  rw [if_neg (by omega), Int.toNat_natCast]
  apply Program.Runs.bind (behaves_printf _)
  apply Program.Runs.bind (behaves_demonstrate granted room)
  apply Program.Runs.bind (behaves_idle _)
  have lines : iterationLog size base = [.idled .clear] ++ ([.printed (assignedText size base)] ++
      ((if base = 0 then [] else [.printed (dataText (firstMark size) 90)]) ++
        [.idled (.nanosleep 1 0)])) := by
    simp [iterationLog]
  unfold iterated at rest
  rw [lines, ← Process.shown_shown, ← Process.shown_shown, ← Process.shown_shown] at rest
  exact rest

theorem iterated_user {address : Nat}
    (outside : address < base ∨ base + (pageAlign size).toNat ≤ address) :
    (iterated world size base process).user address = process.user address := by
  have fresh : (afterMap world size process).user = _ := granted.user
  show marked (afterMap world size process).user base size address = _
  rw [marked_outside granted outside, fresh]
  exact newPages_outside outside

/-- What was mapped before keeps its contents through an iteration. -/
theorem iterated_keeps {region : Region} (member : region ∈ process.system.space.regions)
    {address : Nat} (inside : address ∈ region.addresses) :
    (iterated world size base process).user address = process.user address := by
  apply iterated_user granted
  have apart := Set.disjoint_right.mp (granted.fresh region member) inside
  exact not_mem_addresses apart

theorem iterated_regions :
    (iterated world size base process).system.space.regions =
      ⟨base, (pageAlign size).toNat⟩ :: process.system.space.regions :=
  granted.regions

end Iteration

/-! ### Any number of iterations -/

/-- The mappings that iterations from the syscall `start` on ask for. -/
def mapCalls (world : World) (size : SizeT) (start count : Nat) : List MapCall :=
  (List.range' start count).map fun time => ⟨size, (world.moment time).answer⟩

/-- The ranges that `count` iterations of a process are granted. -/
def grants (world : World) (size : SizeT) (process : Process) (count : Nat) : List Region :=
  granted process.system.space (mapCalls world size process.calls count)

theorem grants_succ {world : World} {size : SizeT} {process : Process} (count : Nat)
    (got : MapGranted world size process (world.moment process.calls).answer.toNat) :
    grants world size process (count + 1) =
      ⟨(world.moment process.calls).answer.toNat, size.toNat⟩ ::
        grants world size
          (iterated world size (world.moment process.calls).answer.toNat process) count := by
  obtain ⟨-, -, -, base, -⟩ := mapStep_granted got.succeeded
  have first : grant (⟨size, (world.moment process.calls).answer⟩,
      (mapStep process.system.space ⟨size, (world.moment process.calls).answer⟩).1) =
        some ⟨(world.moment process.calls).answer.toNat, size.toNat⟩ := by
    have valid : ¬ IsErrValue
        (mapStep process.system.space ⟨size, (world.moment process.calls).answer⟩).1 :=
      got.succeeded
    exact (if_neg valid).trans (by rw [base])
  exact (granted_cons _ _ _).trans (by rw [first]; rfl)

theorem grants_of_refused {world : World} {size : SizeT} {process : Process}
    (refused : MapRefused world size process) : grants world size process 1 = [] := by
  have failed : IsErrValue
      (mapStep process.system.space ⟨size, (world.moment process.calls).answer⟩).1 :=
    refused.failed
  have nothing : grant (⟨size, (world.moment process.calls).answer⟩,
      (mapStep process.system.space ⟨size, (world.moment process.calls).answer⟩).1) = none :=
    if_pos failed
  exact (granted_cons _ _ _).trans (by rw [nothing]; rfl)

/-- What a process holds after `count` iterations that were granted a mapping:
ranges below the end of the address space, marked at both ends, next to all it
had before. -/
structure Held (world : World) (size : SizeT) (process : Process) (count : Nat)
    (after : Process) : Prop where
  length : (grants world size process count).length = count
  ranges : ∀ range ∈ grants world size process count,
    range.length = size.toNat ∧ 0 < range.length ∧ range.base + range.length ≤ 2 ^ 56
  marks : ∀ range ∈ grants world size process count, range.base ≠ 0 →
    after.user range.base = firstMark size ∧ after.user (range.base + (size.toNat - 1)) = 90
  kept : ∀ region ∈ process.system.space.regions, ∀ address ∈ region.addresses,
    after.user address = process.user address

theorem held_zero {world : World} {size : SizeT} {process after : Process}
    (same : after.user = process.user) : Held world size process 0 after where
  length := rfl
  ranges := by
    intro range absent
    cases absent
  marks := by
    intro range absent
    cases absent
  kept := by
    intro region member address inside
    rw [same]

theorem held_succ {world : World} {size : SizeT} {process after : Process} {count : Nat}
    (got : MapGranted world size process (world.moment process.calls).answer.toNat)
    (later : Held world size
      (iterated world size (world.moment process.calls).answer.toNat process) count after) :
    Held world size process (count + 1) after := by
  have positive := got.nonempty
  have covers := got.covers
  have below := got.below
  have atFirst : ∀ address ∈ Region.addresses ⟨(world.moment process.calls).answer.toNat,
      (pageAlign size).toNat⟩, after.user address =
        (iterated world size (world.moment process.calls).answer.toNat process).user address := by
    apply later.kept
    rw [iterated_regions got]
    exact List.mem_cons_self
  constructor
  · rw [grants_succ count got, List.length_cons, later.length]
  · intro range member
    rw [grants_succ count got] at member
    rcases List.mem_cons.mp member with rfl | member
    · exact ⟨rfl, positive, Nat.le_trans (Nat.add_le_add_left covers _) below⟩
    · exact later.ranges range member
  · intro range member placed
    rw [grants_succ count got] at member
    rcases List.mem_cons.mp member with rfl | member
    · obtain ⟨first, last⟩ := marked_ends
        (afterMap world size process).user placed positive
      constructor
      · rw [atFirst _ (Set.mem_Ico.mpr ⟨Nat.le_refl _, by simp only; omega⟩)]
        exact first
      · rw [atFirst _ (Set.mem_Ico.mpr ⟨Nat.le_add_right _ _, by simp only; omega⟩)]
        exact last
    · exact later.marks range member placed
  · intro region member address inside
    rw [later.kept region _ address inside, iterated_keeps got member inside]
    rw [iterated_regions got]
    exact List.mem_cons_of_mem _ member

/-- What the process shows when a mapping is refused. -/
def refusalLog (size : SizeT) : List Event :=
  [.idled .clear, .failed statFailed (if size = 0 then einval else enomem)]

theorem behaves_refusal {world : World} {size : SizeT} {process : Process}
    (refused : MapRefused world size process) (iterations : Nat) :
    Behaves world (statLoop size (iterations + 1)) process (some 1)
      ((afterMap world size process).shown (refusalLog size)) := by
  have refusedHere : MapRefused world size (process.shown [.idled .clear]) := refused
  have errno := afterMap_errno refusedHere
  unfold statLoop refusalLog
  apply Program.Runs.bind (behaves_idle _)
  apply Program.Runs.bind (behaves_map_refused refusedHere)
  rw [if_pos (by decide), ← errno]
  have joined : (afterMap world size process).shown ([.idled .clear] ++
      [.failed statFailed (afterMap world size (process.shown [.idled .clear])).errno]) = _ :=
    ((afterMap world size process).shown_shown _ _).symm
  exact Program.Runs.bind ((behaves_perror _).ends joined.symm) (Program.Runs.pure _)

/-- How many of the iterations were granted before the first refusal, and what
came of them. -/
theorem statLoop_held {world : World} {size : SizeT} (process : Process) {iterations : Nat}
    (answered : Transition.Along mapStep AnsweredThroughout process.system.space
      (mapCalls world size process.calls iterations)) :
    ∃ made after, made ≤ iterations ∧
      (made < iterations → grants world size process (made + 1) = grants world size process made) ∧
      Behaves world (statLoop size iterations) process
        (if made < iterations then some 1 else none) after ∧
      Held world size process made after ∧
      after.log = process.log ++
        ((grants world size process made).flatMap (fun range => iterationLog size range.base) ++
          if made < iterations then refusalLog size else []) := by
  induction iterations generalizing process with
  | zero =>
      refine ⟨0, process, Nat.le_refl 0, fun below => absurd below (Nat.lt_irrefl 0),
        Program.Runs.pure none, held_zero rfl, ?_⟩
      simp [grants, mapCalls, granted]
  | succ iterations inductionHypothesis =>
      rcases map_cases answered.1 with refused | got
      · refine ⟨0, (afterMap world size process).shown (refusalLog size), Nat.zero_le _,
          fun _ => grants_of_refused refused, ?_, held_zero (afterMap_user_of_refused refused), ?_⟩
        · rw [if_pos (Nat.succ_pos _)]
          exact behaves_refusal refused iterations
        · rw [if_pos (Nat.succ_pos _)]
          rfl
      · obtain ⟨made, after, bound, ended, run, held, log⟩ := inductionHypothesis
          (iterated world size (world.moment process.calls).answer.toNat process) answered.2
        refine ⟨made + 1, after, Nat.succ_le_succ bound, ?_, ?_, held_succ got held, ?_⟩
        · intro fewer
          rw [grants_succ (made + 1) got, grants_succ made got,
            ended (Nat.lt_of_succ_lt_succ fewer)]
        · simp only [Nat.succ_lt_succ_iff]
          exact behaves_granted_iteration got run
        · rw [log, grants_succ made got]
          simp only [Nat.succ_lt_succ_iff, List.flatMap_cons, List.append_assoc]
          show (process.log ++ iterationLog size _) ++ _ = _
          rw [List.append_assoc]

/-! ### The end of the loop -/

/-- Separate ranges of one size cover that many addresses. -/
theorem cells_of_ranges {ranges : List Region} {size : Nat}
    (apart : ranges.Pairwise fun range other => Disjoint range.addresses other.addresses)
    (sizes : ∀ range ∈ ranges, range.length = size) :
    ∃ cells : Finset Nat, cells.card = ranges.length * size ∧
      ∀ cell ∈ cells, ∃ range ∈ ranges, cell ∈ range.addresses := by
  induction ranges with
  | nil => exact ⟨∅, by simp, by simp⟩
  | cons range rest inductionHypothesis =>
      obtain ⟨separate, restApart⟩ := List.pairwise_cons.mp apart
      obtain ⟨length, restSizes⟩ := List.forall_mem_cons.mp sizes
      obtain ⟨cells, card, covered⟩ := inductionHypothesis restApart restSizes
      have disjoint : Disjoint (Finset.Ico range.base (range.base + range.length)) cells := by
        rw [Finset.disjoint_left]
        intro cell inside member
        obtain ⟨other, inRest, inOther⟩ := covered cell member
        exact Set.disjoint_left.mp (separate other inRest) (Finset.mem_Ico.mp inside) inOther
      refine ⟨Finset.Ico range.base (range.base + range.length) ∪ cells, ?_, ?_⟩
      · rw [Finset.card_union_of_disjoint disjoint, Nat.card_Ico, card, List.length_cons]
        rw [Nat.add_sub_cancel_left, length, Nat.succ_mul, Nat.add_comm]
      · intro cell member
        rcases Finset.mem_union.mp member with inside | member
        · exact ⟨range, List.mem_cons_self, Finset.mem_Ico.mp inside⟩
        · obtain ⟨other, inRest, inOther⟩ := covered cell member
          exact ⟨other, List.mem_cons_of_mem _ inRest, inOther⟩

theorem ranges_fit {ranges : List Region} {size bound : Nat}
    (apart : ranges.Pairwise fun range other => Disjoint range.addresses other.addresses)
    (fit : ∀ range ∈ ranges, range.length = size ∧ range.base + range.length ≤ bound) :
    ranges.length * size ≤ bound := by
  obtain ⟨cells, card, covered⟩ := cells_of_ranges apart fun range member => (fit range member).1
  have below : cells ⊆ Finset.range bound := by
    intro cell member
    obtain ⟨range, inRanges, inside⟩ := covered cell member
    exact Finset.mem_range.mpr (Nat.lt_of_lt_of_le inside.2 (fit range inRanges).2)
  calc ranges.length * size = cells.card := card.symm
    _ ≤ (Finset.range bound).card := Finset.card_le_card below
    _ = bound := Finset.card_range bound

section Main

variable {world : World} {arguments : List (List Char)} {process : Process} {iterations : Nat}

theorem mapCalls_append (size : SizeT) (start first second : Nat) :
    mapCalls world size start (first + second) =
      mapCalls world size start first ++ mapCalls world size (start + first) second := by
  unfold mapCalls
  rw [← List.map_append, List.range'_append_1]

/-- Mappings that the program holds at once fit side by side below `2 ^ 56`. -/
theorem made_mul_size_le {size : SizeT} {made : Nat} {after : Process} (bound : made ≤ iterations)
    (answered : Transition.Along mapStep AnsweredThroughout process.system.space
      (mapCalls world size process.calls iterations))
    (held : Held world size process made after) : made * size.toNat ≤ 2 ^ 56 := by
  obtain ⟨rest, rfl⟩ : ∃ rest, iterations = made + rest := ⟨iterations - made, by omega⟩
  rw [mapCalls_append] at answered
  have separated := separated_of_answered (Transition.Along.of_append mapStep answered)
  have fits := ranges_fit separated.pairwise fun range member =>
    ⟨(held.ranges range member).1, (held.ranges range member).2.2⟩
  rw [← held.length]
  exact fits

/-- Nothing is granted to a process that asks for no bytes. -/
theorem size_pos_of_made {size : SizeT} {made : Nat} {after : Process}
    (held : Held world size process made after) (some : 0 < made) : 0 < size.toNat := by
  rw [← held.length] at some
  obtain ⟨range, member⟩ := List.exists_mem_of_length_pos some
  obtain ⟨length, positive, -⟩ := held.ranges range member
  rwa [length] at positive

/-- However long the program runs, it stops at the first mapping that is refused.
Until then it shows one screen for each mapping and accesses only these, all
mappings are still marked at both ends, and what the process had mapped before
is untouched. -/
theorem statMain_marks_every_mapping
    (answered : Transition.Along mapStep AnsweredThroughout process.system.space
      (mapCalls world (requestedSize arguments) process.calls iterations)) :
    ∃ made after, made ≤ iterations ∧
      (made < iterations → grants world (requestedSize arguments) process (made + 1) =
        grants world (requestedSize arguments) process made) ∧
      Behaves world (statMain arguments iterations) process
        (if made < iterations then some 1 else none) after ∧
      Held world (requestedSize arguments) process made after ∧
      after.log = process.log ++
        ((grants world (requestedSize arguments) process made).flatMap
            (fun range => iterationLog (requestedSize arguments) range.base) ++
          if made < iterations then refusalLog (requestedSize arguments) else []) :=
  statLoop_held process answered

/-- The program never frees what it maps, so it always comes to an end: it
returns `1` before the mappings together exceed the address space. -/
theorem statMain_ends
    (answered : Transition.Along mapStep AnsweredThroughout process.system.space
      (mapCalls world (requestedSize arguments) process.calls iterations))
    (long : 2 ^ 56 < iterations * max 1 (requestedSize arguments).toNat) :
    ∃ after, Behaves world (statMain arguments iterations) process (some 1) after := by
  obtain ⟨made, after, bound, -, run, held, -⟩ := statLoop_held process answered
  have fits := made_mul_size_le bound answered held
  have fewer : made < iterations := by
    apply Nat.lt_of_le_of_ne bound
    rintro rfl
    have some : 0 < made := by
      apply Nat.pos_of_ne_zero
      rintro rfl
      omega
    have positive := size_pos_of_made held some
    rw [Nat.max_eq_right positive] at long
    omega
  rw [if_pos fewer] at run
  exact ⟨after, run⟩

end Main

/-- A world that grants a mapping at `2 ^ 55` and then nothing more. -/
def grantOnce : World :=
  { quietWorld with
    moment := fun time =>
      { quietMoment with answer := if time = 0 then 2 ^ 55 else failure enomem } }

/-- Half of the address space can be mapped once. -/
theorem statMain_ends_on_half_of_memory :
    ∃ after, Behaves grantOnce (statMain [decimal (2 ^ 55)] 3) newProcess (some 1) after := by
  have size : requestedSize [decimal (2 ^ 55)] = BitVec.ofNat 64 (2 ^ 55) := by
    show BitVec.ofInt 64 (strtol (decimal (2 ^ 55))) = _
    rw [strtol_decimal (by decide)]
    rfl
  have roundable : Roundable (BitVec.ofNat 64 (2 ^ 55)) := ⟨2 ^ 55, by decide⟩
  have refused : ∀ space : AddressSpace,
      AnsweredThroughout space ⟨BitVec.ofNat 64 (2 ^ 55), failure enomem⟩ :=
    answeredThroughout_of_failed (by decide) roundable (by decide)
  apply statMain_ends
  · rw [size]
    refine ⟨?_, refused _, refused _, trivial⟩
    apply answeredThroughout_of_free (by decide) roundable (by decide) (by decide)
    intro region absent
    cases absent
  · rw [size]
    decide

/-- A world that grants two mappings and then nothing more. -/
def grantTwice : World :=
  { quietWorld with
    moment := fun time =>
      { quietMoment with
        answer := if time = 0 then 2 ^ 30 else if time = 1 then 2 ^ 31 else failure enomem } }

/-- Of five megabytes two are granted; both are marked when the program ends. -/
theorem statMain_marks_two_megabytes :
    ∃ after, Behaves grantTwice (statMain [] 5) newProcess (some 1) after ∧
      Held grantTwice (1024 * 1024) newProcess 2 after ∧
      after.user (2 ^ 30) = 72 ∧ after.user (2 ^ 31 + (1024 * 1024 - 1)) = 90 ∧
      after.log = iterationLog (1024 * 1024) (2 ^ 30) ++ iterationLog (1024 * 1024) (2 ^ 31) ++
        refusalLog (1024 * 1024) := by
  have roundable : Roundable (1024 * 1024) := ⟨1024 * 1024, by decide⟩
  have refused : ∀ space : AddressSpace,
      AnsweredThroughout space ⟨1024 * 1024, failure enomem⟩ :=
    answeredThroughout_of_failed (by decide) roundable (by decide)
  have answered : Transition.Along mapStep AnsweredThroughout newProcess.system.space
      (mapCalls grantTwice (requestedSize []) newProcess.calls 5) := by
    refine ⟨?_, ?_, refused _, refused _, refused _, trivial⟩
    · apply answeredThroughout_of_free (by decide) roundable (by decide) (by decide)
      intro region absent
      cases absent
    · apply answeredThroughout_of_free (by decide) roundable (by decide) (by decide)
      intro region member
      obtain rfl := List.mem_singleton.mp member
      exact Set.Ico_disjoint_Ico.mpr (by decide)
  obtain ⟨made, after, bound, ended, run, held, log⟩ := statMain_marks_every_mapping answered
  rw [show requestedSize [] = 1024 * 1024 from rfl] at ended held log
  have two : made = 2 := by
    have counts : ∀ count ≤ 5,
        (grants grantTwice (1024 * 1024) newProcess count).length = min count 2 := by decide
    have whole : min made 2 = made := (counts made bound).symm.trans held.length
    by_contra other
    have lengths := congrArg List.length (ended (by omega))
    rw [counts (made + 1) (by omega), counts made bound] at lengths
    omega
  subst two
  have ranges : grants grantTwice (1024 * 1024) newProcess 2 =
      [⟨2 ^ 30, 1024 * 1024⟩, ⟨2 ^ 31, 1024 * 1024⟩] := by decide
  have first := held.marks ⟨2 ^ 30, 1024 * 1024⟩ (by rw [ranges]; simp) (by decide)
  have second := held.marks ⟨2 ^ 31, 1024 * 1024⟩ (by rw [ranges]; simp) (by decide)
  refine ⟨after, run, held, first.1, second.2, ?_⟩
  rw [log, ranges]
  rfl

end UsacSyscalls.Userland
